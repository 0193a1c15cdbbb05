import HydraDb.Store.Cell

/-!
# Vertex, edge-metadata and relationship records

The record tables of a cell and the index keys that go with them, as the helpers of
`shard/write.rs` write them. A record is stored in the form it is read back in
(`EdgeMetadata.readBack`), while its index keys are computed from the value the caller passed.
-/

namespace HydraDb

/-! ## Vertices -/

namespace VertexStore

/-- The label keys of a vertex. -/
def labelKeys (vertex : VertexId) (metadata : VertexMetadata) : List VertexLabelKey :=
  metadata.labels.keys.map fun label => ⟨label, vertex⟩

/-- The property-index keys of a vertex. -/
def propertyKeys (vertex : VertexId) (metadata : VertexMetadata) : List VertexPropertyKey :=
  metadata.properties.entries.map fun e => ⟨e.1, encodeVertexPropertyValueKey e.2, vertex⟩

/-- `put_vertex_metadata_indexes_txn`. -/
def putMetadataIndexes (s : VertexStore) (vertex : VertexId) (metadata : VertexMetadata) :
    VertexStore :=
  { s with
    labels := s.labels.addAll (labelKeys vertex metadata)
    properties := s.properties.addAll (propertyKeys vertex metadata) }

/-- `delete_vertex_metadata_indexes_txn`. -/
def deleteMetadataIndexes (s : VertexStore) (vertex : VertexId) (metadata : VertexMetadata) :
    VertexStore :=
  { s with
    labels := s.labels.delAll (labelKeys vertex metadata)
    properties := s.properties.delAll (propertyKeys vertex metadata) }

/-- `apply_vertex_metadata_update_txn`: the record is kept even when it becomes empty. -/
def applyMetadataUpdate (s : VertexStore) (vertex : VertexId) (previous next : VertexMetadata) :
    Except GraphError VertexStore := do
  validateVertexMetadata next
  let s := s.deleteMetadataIndexes vertex previous
  let s := { s with records := s.records.put vertex next.readBack }
  return s.putMetadataIndexes vertex next

/-- `delete_vertex_record_txn`. -/
def deleteRecord (s : VertexStore) (vertex : VertexId) (previous : VertexMetadata) : VertexStore :=
  let s := s.deleteMetadataIndexes vertex previous
  { s with records := s.records.del vertex }

variable {s : VertexStore}

/-- What an update writes. -/
theorem applyMetadataUpdate_ok (h : s.applyMetadataUpdate vertex previous next = .ok s') :
    s' = putMetadataIndexes
      { s.deleteMetadataIndexes vertex previous with
        records := s.records.put vertex next.readBack } vertex next := by
  obtain ⟨⟨⟩, -, h⟩ := bind_ok h
  exact (Except.ok.inj h).symm

theorem records_applyMetadataUpdate (h : s.applyMetadataUpdate vertex previous next = .ok s') :
    s'.records = s.records.put vertex next.readBack := by
  rw [applyMetadataUpdate_ok h]
  rfl

/-- Give a vertex that has no record an empty one; a fresh cell is not read first. -/
def ensureRecord (fresh : Bool) (s : VertexStore) (vertex : VertexId) : VertexStore :=
  if fresh || !s.records.contains vertex then { s with records := s.records.put vertex default }
  else s

/-- `ensure_vertex_records_txn`: the endpoints of inserted edges get a record, apart from those in
`skip`. -/
def ensureRecords (s : VertexStore) (endpoints : List VertexId) (skip : OrdMap VertexId Unit)
    (fresh : Bool) : VertexStore :=
  (OrdMap.addAll ∅ (endpoints.filter fun v => !skip.contains v)).keys.foldl (ensureRecord fresh) s

end VertexStore

/-! ## Edge metadata -/

namespace EdgeMetadataStore

/-- The property-index keys of an edge. -/
def propertyKeys (k : EdgeKey) (metadata : EdgeMetadata) : List EdgePropertyKey :=
  metadata.properties.entries.map fun e =>
    ⟨k.edgeType, e.1, encodeVertexPropertyValueKey e.2, k.src, k.dst⟩

/-- The metadata of an edge, empty when it has none. -/
def read (s : EdgeMetadataStore) (k : EdgeKey) : EdgeMetadata := (s.records.get k).getD default

/-- `apply_edge_metadata_update_txn`: an edge without properties has no metadata record. -/
def applyUpdate (s : EdgeMetadataStore) (k : EdgeKey) (previous next : EdgeMetadata) :
    Except GraphError EdgeMetadataStore := do
  validateEdgeMetadata next
  let s := { s with properties := s.properties.delAll (propertyKeys k previous) }
  if next.properties.entries.isEmpty then
    return { s with records := s.records.del k }
  else
    return {
      records := s.records.put k next.readBack
      properties := s.properties.addAll (propertyKeys k next) }

/-- Remove the metadata of an edge that is deleted: the update to empty metadata, made when there
is something to remove. -/
def clear (s : EdgeMetadataStore) (k : EdgeKey) : Except GraphError EdgeMetadataStore :=
  let previous := s.read k
  if previous.properties.entries.isEmpty then return s
  else s.applyUpdate k previous default

theorem read_applyUpdate_of_ne {s : EdgeMetadataStore} (h : s.applyUpdate k previous next = .ok s')
    (hk : k' ≠ k) : s'.read k' = s.read k' := by
  replace h := seq_ok h
  split at h
  · cases h
    rw [read, read, OrdMap.get_del_of_ne hk]
  · cases h
    rw [read, read, OrdMap.get_put_of_ne hk]

end EdgeMetadataStore

/-! ## Relationships -/

/-- A relationship record as it is read (`RelationshipRecord`). -/
structure RelationshipRecord where
  key : RelationshipKey
  metadata : EdgeMetadata

/-- `RELATIONSHIP_IDENTITY_PROPERTY`: the property a merge resolves a relationship by. -/
def relationshipIdentityProperty : String := "id"

namespace RelationshipStore

/-- The property-index keys of a relationship. -/
def propertyKeys (k : RelationshipKey) (metadata : EdgeMetadata) : List RelationshipPropertyKey :=
  metadata.properties.entries.map fun e =>
    ⟨k.edgeType, e.1, encodeVertexPropertyValueKey e.2, k.src, k.dst, k.relationshipId⟩

/-- The key of the unique-identity pointer of a value on an edge. -/
def mergeKey (k : EdgeKey) (value : VertexPropertyValue) : EdgePropertyKey :=
  ⟨k.edgeType, relationshipIdentityProperty, encodeVertexPropertyValueKey value, k.src, k.dst⟩

/-- Delete the unique-identity pointer of the identity that `metadata` carries, if any. -/
def dropMergePointer (s : RelationshipStore) (k : EdgeKey) (metadata : EdgeMetadata) :
    RelationshipStore :=
  match metadata.properties.get relationshipIdentityProperty with
  | some value => { s with merges := s.merges.del (mergeKey k value) }
  | none => s

section

variable (s : RelationshipStore) (k : EdgeKey) (metadata : EdgeMetadata)

@[simp] theorem records_dropMergePointer : (s.dropMergePointer k metadata).records = s.records := by
  unfold dropMergePointer; split <;> rfl

@[simp] theorem ids_dropMergePointer : (s.dropMergePointer k metadata).ids = s.ids := by
  unfold dropMergePointer; split <;> rfl

@[simp] theorem counts_dropMergePointer : (s.dropMergePointer k metadata).counts = s.counts := by
  unfold dropMergePointer; split <;> rfl

@[simp] theorem properties_dropMergePointer :
    (s.dropMergePointer k metadata).properties = s.properties := by
  unfold dropMergePointer; split <;> rfl

end

/-- `put_relationship_property_indexes_txn`. -/
def putPropertyIndexes (s : RelationshipStore) (k : RelationshipKey) (metadata : EdgeMetadata) :
    RelationshipStore :=
  dropMergePointer { s with properties := s.properties.addAll (propertyKeys k metadata) } k.edge
    metadata

/-- `delete_relationship_property_indexes_txn`. -/
def deletePropertyIndexes (s : RelationshipStore) (k : RelationshipKey) (metadata : EdgeMetadata) :
    RelationshipStore :=
  dropMergePointer { s with properties := s.properties.delAll (propertyKeys k metadata) } k.edge
    metadata

/-- Write a relationship record. -/
def putRecord (s : RelationshipStore) (k : RelationshipKey) (metadata : EdgeMetadata) :
    RelationshipStore :=
  { s with records := s.records.put k metadata.readBack }

/-- Write the pointer from a relationship id to its record. -/
def putId (s : RelationshipStore) (k : RelationshipKey) : RelationshipStore :=
  { s with ids := s.ids.put k.relationshipId k }

/-- Delete a relationship record, its id pointer and its index keys. -/
def deleteRecord (s : RelationshipStore) (record : RelationshipRecord) : RelationshipStore :=
  let s := { s with
    records := s.records.del record.key
    ids := s.ids.del record.key.relationshipId }
  s.deletePropertyIndexes record.key record.metadata

section

variable (s : RelationshipStore) (k : RelationshipKey) (metadata : EdgeMetadata)
  (record : RelationshipRecord)

@[simp] theorem records_putPropertyIndexes :
    (s.putPropertyIndexes k metadata).records = s.records := by simp [putPropertyIndexes]

@[simp] theorem ids_putPropertyIndexes :
    (s.putPropertyIndexes k metadata).ids = s.ids := by simp [putPropertyIndexes]

@[simp] theorem counts_putPropertyIndexes :
    (s.putPropertyIndexes k metadata).counts = s.counts := by simp [putPropertyIndexes]

@[simp] theorem properties_putPropertyIndexes :
    (s.putPropertyIndexes k metadata).properties =
      s.properties.addAll (propertyKeys k metadata) := by simp [putPropertyIndexes]

@[simp] theorem records_deletePropertyIndexes :
    (s.deletePropertyIndexes k metadata).records = s.records := by simp [deletePropertyIndexes]

@[simp] theorem ids_deletePropertyIndexes :
    (s.deletePropertyIndexes k metadata).ids = s.ids := by simp [deletePropertyIndexes]

@[simp] theorem counts_deletePropertyIndexes :
    (s.deletePropertyIndexes k metadata).counts = s.counts := by simp [deletePropertyIndexes]

@[simp] theorem properties_deletePropertyIndexes :
    (s.deletePropertyIndexes k metadata).properties =
      s.properties.delAll (propertyKeys k metadata) := by simp [deletePropertyIndexes]

@[simp] theorem records_deleteRecord :
    (s.deleteRecord record).records = s.records.del record.key := by simp [deleteRecord]

@[simp] theorem ids_deleteRecord :
    (s.deleteRecord record).ids = s.ids.del record.key.relationshipId := by simp [deleteRecord]

@[simp] theorem counts_deleteRecord :
    (s.deleteRecord record).counts = s.counts := by simp [deleteRecord]

@[simp] theorem properties_deleteRecord :
    (s.deleteRecord record).properties =
      s.properties.delAll (propertyKeys record.key record.metadata) := by simp [deleteRecord]

end

/-- `live_relationships_for_edge_txn`: the relationships of an edge, in id order. -/
def liveForEdge (s : RelationshipStore) (k : EdgeKey) : List RelationshipRecord :=
  (s.records.scan fun r => r.edge = k).map fun e => ⟨e.1, e.2⟩

/-- `delete_prepared_relationships_for_structural_edge_txn`: the relationships of an edge that is
deleted go with it. -/
def deletePrepared (s : RelationshipStore) (k : EdgeKey) (records : List RelationshipRecord) :
    RelationshipStore :=
  let s := records.foldl deleteRecord s
  { s with counts := s.counts.del k }

/-- `delete_relationships_for_structural_edge_txn`. -/
def deleteForEdge (s : RelationshipStore) (k : EdgeKey) : RelationshipStore × Nat :=
  let records := s.liveForEdge k
  (s.deletePrepared k records, records.length)

/-- `has_surviving_relationship_txn`. -/
def hasSurviving (s : RelationshipStore) (k : EdgeKey) (deleting : List RelationshipId) : Bool :=
  (s.liveForEdge k).any fun record => !deleting.contains record.key.relationshipId

/-- The last relationship id handed out. -/
def lastRelationshipId (s : RelationshipStore) : RelationshipId := s.lastId.getD 0

/-- The loop of `create_relationship_txn_locked` that skips ids in use. The recursion is on a
bound of the number of ids in use. -/
def skipUsedIds (s : RelationshipStore) (cellId : CellId) :
    Nat → RelationshipId → Except GraphError RelationshipId
  | 0, _ => .error (.corruptValue (lastRelationshipIdKeyText cellId) "relationship id overflow")
  | fuel + 1, relationshipId =>
    if !s.ids.contains relationshipId then .ok relationshipId
    else if relationshipId.toNat + 1 < u64Bound then s.skipUsedIds cellId fuel (relationshipId + 1)
    else .error (.corruptValue (lastRelationshipIdKeyText cellId) "relationship id overflow")

/-- The id a new relationship gets. -/
def newRelationshipId (s : RelationshipStore) (cellId : CellId) :
    Except GraphError RelationshipId :=
  if s.lastRelationshipId.toNat + 1 < u64Bound then
    s.skipUsedIds cellId (s.ids.entries.length + 1) (s.lastRelationshipId + 1)
  else .error (.corruptValue (lastRelationshipIdKeyText cellId) "relationship id overflow")

/-- `next_available_relationship_ids_txn`: rounds of as many candidates as ids are still missing,
until enough of them are not in use. Returns the ids and the cursor. The recursion is on a bound
of the number of rounds: each finds an id or passes one in use. -/
def nextAvailableRelationshipIds (s : RelationshipStore) (cellId : CellId) (operation : String)
    (count : Nat) : Nat → RelationshipId → List RelationshipId →
      Except GraphError (List RelationshipId × RelationshipId)
  | 0, cursor, available =>
    if available.length < count then
      .error (.corruptValue (lastRelationshipIdKeyText cellId)
        ("relationship id overflow during " ++ operation))
    else .ok (available, cursor)
  | fuel + 1, cursor, available =>
    if available.length < count then
      let remaining := count - available.length
      if cursor.toNat + remaining < u64Bound then
        let candidates := (List.range remaining).map fun i => cursor + 1 + UInt64.ofNat i
        s.nextAvailableRelationshipIds cellId operation count fuel (cursor + UInt64.ofNat remaining)
          (available ++ candidates.filter fun id => !s.ids.contains id)
      else .error (.corruptValue (lastRelationshipIdKeyText cellId)
        ("relationship id overflow during " ++ operation))
    else .ok (available, cursor)

/-- The ids an import allocates, from the last id handed out. -/
def allocateRelationshipIds (s : RelationshipStore) (cellId : CellId) (operation : String)
    (count : Nat) : Except GraphError (List RelationshipId × RelationshipId) :=
  s.nextAvailableRelationshipIds cellId operation count (count + s.ids.entries.length)
    s.lastRelationshipId []

end RelationshipStore

end HydraDb
