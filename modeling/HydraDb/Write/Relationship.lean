import HydraDb.Write.EdgeDelete

/-!
# Relationships

A relationship is a record of its own on an edge: several may share one edge. This file has the
create, the metadata update and the deletes (`create_relationship_txn_locked`,
`set_relationship_metadata_txn_locked`, `delete_relationship_txn_locked` and
`delete_relationship_mutations_batch_txn_locked`, `shard/write.rs`). A create inserts the edge when
it is not visible; the delete of the last relationship of an edge deletes the edge when it is
stored as a direct key.
-/

namespace HydraDb

/-- The relationship a request names. -/
def EdgeMutation.relationship (mutation : EdgeMutation) (relationshipId : RelationshipId) :
    RelationshipKey :=
  ⟨mutation.edgeType, mutation.src, mutation.dst, relationshipId⟩

/-! ## Create -/

/-- Write a new relationship record with its id pointer and its index keys. -/
def RelationshipStore.insertRelationship (s : RelationshipStore) (k : RelationshipKey)
    (metadata : EdgeMetadata) : RelationshipStore :=
  ((s.putRecord k metadata).putId k).putPropertyIndexes k metadata

section

variable (s : RelationshipStore) (k : RelationshipKey) (metadata : EdgeMetadata)

@[simp] theorem RelationshipStore.records_insertRelationship :
    (s.insertRelationship k metadata).records = s.records.put k metadata.readBack := by
  simp [insertRelationship, putId, putRecord]

@[simp] theorem RelationshipStore.ids_insertRelationship :
    (s.insertRelationship k metadata).ids = s.ids.put k.relationshipId k := by
  simp [insertRelationship, putId, putRecord]

@[simp] theorem RelationshipStore.counts_insertRelationship :
    (s.insertRelationship k metadata).counts = s.counts := by
  simp [insertRelationship, putId, putRecord]

@[simp] theorem RelationshipStore.properties_insertRelationship :
    (s.insertRelationship k metadata).properties =
      s.properties.addAll (propertyKeys k metadata) := by
  simp [insertRelationship, putId, putRecord]

end

/-- `create_relationship_txn_locked`. -/
def createRelationshipTxn (env : WriteEnv) (mutation : EdgeMutation)
    (metadataUpdates : List (VertexId × VertexMetadata)) (edgeMetadata : EdgeMetadata)
    (fingerprint : UInt64) (sequence : StorageSequence) (c : Cell) :
    Except GraphError (Outcome RelationshipCreateResult) := do
  c.validateWriteFence mutation.cellId "create_relationship"
  c.replayOr mutation.cellId "relationship-create" mutation.idempotencyKey
    (decodeRelationshipCreateIdempotency · mutation fingerprint) <| do
    let k := mutation.edge
    let inserted := (c.topology.edgeEpochAt k sequence).isNone
    let epoch ← nextSequence sequence "storage_sequence" "epoch overflow during relationship create"
    let relationshipId ← c.relationships.newRelationshipId mutation.cellId
    let changed := changedMetadata c.vertices metadataUpdates
    let c := c.setRelationships { c.relationships with lastId := some relationshipId }
    let c ← c.applyChangedMetadata changed
    let written := OrdMap.addAll ∅ (metadataUpdates.map Prod.fst)
    let c := c.setVertices (c.vertices.ensureRecords [k.src, k.dst] written false)
    let c := if inserted then c.insertCountedEdge env mutation.cellId k epoch else c
    let relationships := c.relationships.insertRelationship (mutation.relationship relationshipId)
      edgeMetadata
    let relationships :=
      { relationships with counts := relationships.counts.put k (relationships.counts.count k + 1) }
    let c := c.setRelationships relationships
    let result : RelationshipCreateResult := ⟨epoch, relationshipId, inserted, false⟩
    commitTxn sequence (c.putIdempotency "relationship-create" mutation.idempotencyKey
      (.relationshipCreate result fingerprint mutation.cellId k)) result

/-- `create_relationship_with_full_metadata`. -/
def createRelationshipWithFullMetadata (env : WriteEnv) (mutation : EdgeMutation)
    (srcMetadata dstMetadata : VertexMetadata) (edgeMetadata : EdgeMetadata)
    (sequence : StorageSequence) (c : Cell) :
    Except GraphError (Outcome RelationshipCreateResult) := do
  mutation.validate
  validateVertexMetadata srcMetadata
  validateVertexMetadata dstMetadata
  validateEdgeMetadata edgeMetadata
  let updates ← coalesceVertexMetadataUpdates
    [(mutation.src, srcMetadata), (mutation.dst, dstMetadata)]
  createRelationshipTxn env mutation updates edgeMetadata
    (relationshipCreateFingerprint mutation updates edgeMetadata) sequence c

/-! ## Metadata -/

/-- Replace the metadata of a relationship and its index keys. -/
def RelationshipStore.replaceMetadata (s : RelationshipStore) (k : RelationshipKey)
    (previous next : EdgeMetadata) : RelationshipStore :=
  ((s.putRecord k next).deletePropertyIndexes k previous).putPropertyIndexes k next

section

variable (s : RelationshipStore) (k : RelationshipKey) (previous next : EdgeMetadata)

@[simp] theorem RelationshipStore.records_replaceMetadata :
    (s.replaceMetadata k previous next).records = s.records.put k next.readBack := by
  simp [replaceMetadata, putRecord]

@[simp] theorem RelationshipStore.ids_replaceMetadata :
    (s.replaceMetadata k previous next).ids = s.ids := by simp [replaceMetadata, putRecord]

@[simp] theorem RelationshipStore.counts_replaceMetadata :
    (s.replaceMetadata k previous next).counts = s.counts := by simp [replaceMetadata, putRecord]

@[simp] theorem RelationshipStore.properties_replaceMetadata :
    (s.replaceMetadata k previous next).properties =
      (s.properties.delAll (propertyKeys k previous)).addAll
        (propertyKeys k next) := by simp [replaceMetadata, putRecord]

end

/-- `set_relationship_metadata_txn_locked`. -/
def setRelationshipMetadataTxn (cellId : CellId) (k : RelationshipKey) (metadata : EdgeMetadata)
    (sequence : StorageSequence) (c : Cell) : Except GraphError (Outcome Bool) := do
  c.validateWriteFence cellId "set_relationship_metadata"
  match c.relationships.records.get k with
  | none => .error (.unsupportedQuery "GraphQuery"
      "cannot set metadata for a missing relationship" .mutation)
  | some previous =>
    if previous = metadata then return .unchanged false
    else
      commitTxn sequence
        (c.setRelationships (c.relationships.replaceMetadata k previous metadata)) true

/-- `set_relationship_metadata`. -/
def setRelationshipMetadata (cellId : CellId) (k : RelationshipKey) (metadata : EdgeMetadata)
    (sequence : StorageSequence) (c : Cell) : Except GraphError (Outcome Bool) := do
  validateComponent "cell_id" cellId
  validateComponent "edge_type" k.edgeType
  validateEdgeMetadata metadata
  setRelationshipMetadataTxn cellId k metadata sequence c

/-! ## Delete -/

/-- Set a relationship count; a count of zero is deleted. -/
def RelationshipStore.setCount (s : RelationshipStore) (k : EdgeKey) (count : Nat) :
    RelationshipStore :=
  { s with counts := if count = 0 then s.counts.del k else s.counts.put k count }

/-- `delete_structural_edge_txn`: delete an edge stored as a direct key, and say whether there was
one. An edge that only a segment shows is left. -/
def Cell.deleteStructuralEdge (c : Cell) (env : WriteEnv) (cellId : CellId) (k : EdgeKey)
    (epoch : StorageSequence) : Except GraphError (Cell × Bool) :=
  if c.topology.outEdges.contains k then do
    let c := c.markTopologyChange env cellId k.edgeType epoch [(k.src, k.dst, false)]
    let edgeMetadata ← c.edgeMetadata.clear k
    let c := c.setEdgeMetadata edgeMetadata
    let c := c.removeDirect env.reverseIndex k
    let c := c.decrementDegreeOut ⟨k.edgeType, k.src⟩
    return (if env.reverseIndex then c.decrementDegreeIn ⟨k.edgeType, k.dst⟩ else c, true)
  else return (c, false)

/-- `delete_relationship_txn_locked`. -/
def deleteRelationshipTxn (env : WriteEnv) (mutation : EdgeMutation)
    (relationshipId : RelationshipId) (sequence : StorageSequence) (c : Cell) :
    Except GraphError (Outcome DeleteResult) := do
  c.validateWriteFence mutation.cellId "delete_relationship"
  c.replayOr mutation.cellId "relationship-delete" mutation.idempotencyKey
    (decodeRelationshipDeleteIdempotency · mutation relationshipId) <|
    let k := mutation.edge
    let r := mutation.relationship relationshipId
    let finish (c : Cell) (result : DeleteResult) : Except GraphError (Outcome DeleteResult) :=
      commitTxn sequence (c.putIdempotency "relationship-delete" mutation.idempotencyKey
        (.relationshipDelete result mutation.cellId r)) result
    match c.relationships.records.get r with
    | none => finish c ⟨sequence, false⟩
    | some metadata => do
      let epoch ← nextSequence sequence "storage_sequence"
        "epoch overflow during relationship delete"
      let others := c.relationships.hasSurviving k [relationshipId]
      let relationships := c.relationships.deleteRecord ⟨r, metadata⟩
      let c := c.setRelationships (relationships.setCount k (relationships.counts.count k - 1))
      let c ← if others then .ok (c, false)
        else c.deleteStructuralEdge env mutation.cellId k epoch
      finish c.1 ⟨epoch, true⟩

/-- `delete_relationship`. -/
def deleteRelationship (env : WriteEnv) (mutation : EdgeMutation) (relationshipId : RelationshipId)
    (sequence : StorageSequence) (c : Cell) : Except GraphError (Outcome DeleteResult) := do
  mutation.validate
  deleteRelationshipTxn env mutation relationshipId sequence c

/-! ## Delete a batch -/

/-- `reserve_edge_delete_noops_txn`: record that the named edge deletes did nothing, so that a
replay of one of them cannot delete an edge. Returns whether anything was written. -/
def Cell.reserveEdgeDeleteNoops (c : Cell) (cellId : CellId) (sequence : StorageSequence)
    (mutations : List EdgeMutation) : Except GraphError (Cell × Bool) :=
  mutations.foldlM (fun acc mutation =>
    match c.idempotency.get ⟨"delete", mutation.idempotencyKey⟩ with
    | some record => do
      let _ ← decodeDeleteIdempotency
        (idempotencyKeyText cellId "delete" mutation.idempotencyKey) mutation record
      return acc
    | none =>
      return (acc.1.putIdempotency "delete" mutation.idempotencyKey
        (.delete ⟨sequence, false⟩ mutation.cellId mutation.edge), true)) (c, false)

/-- The first loop of the batch: replayed and absent relationships are counted, the others wait to
be deleted. -/
structure RelationshipDeleteBatch where
  cell : Cell
  deleted : Nat
  alreadyDeleted : Nat
  pending : List (EdgeMutation × RelationshipRecord)
  wrote : Bool

namespace RelationshipDeleteBatch

/-- One deletion of the first loop; `initial` is the cell it reads. -/
def step (cellId : CellId) (initial : Cell) (sequence : StorageSequence)
    (b : RelationshipDeleteBatch) (deletion : EdgeMutation × RelationshipId) :
    Except GraphError RelationshipDeleteBatch :=
  let (mutation, relationshipId) := deletion
  let r := mutation.relationship relationshipId
  match initial.idempotency.get ⟨"relationship-delete", mutation.idempotencyKey⟩ with
  | some record => do
    let result ← decodeRelationshipDeleteIdempotency
      (idempotencyKeyText cellId "relationship-delete" mutation.idempotencyKey) mutation
      relationshipId record
    return if result.deleted then { b with deleted := b.deleted + 1 }
      else { b with alreadyDeleted := b.alreadyDeleted + 1 }
  | none =>
    match initial.relationships.records.get r with
    | none =>
      return { b with
        cell := b.cell.putIdempotency "relationship-delete" mutation.idempotencyKey
          (.relationshipDelete ⟨sequence, false⟩ mutation.cellId r)
        alreadyDeleted := b.alreadyDeleted + 1
        wrote := true }
    | some metadata => return { b with pending := b.pending ++ [(mutation, ⟨r, metadata⟩)] }

/-- The relationships to delete, by edge. -/
def deletingByEdge (pending : List (EdgeMutation × RelationshipRecord)) :
    OrdMap EdgeKey (OrdMap RelationshipId Unit) :=
  pending.foldl (fun m p =>
    m.put p.1.edge (((m.get p.1.edge).getD ∅).put p.2.key.relationshipId ())) ∅

/-- Delete one pending relationship and record it. -/
def deletePending (commitEpoch : StorageSequence) (c : Cell)
    (p : EdgeMutation × RelationshipRecord) : Cell :=
  (c.setRelationships (c.relationships.deleteRecord p.2)).putIdempotency "relationship-delete"
    p.1.idempotencyKey (.relationshipDelete ⟨commitEpoch, true⟩ p.1.cellId p.2.key)

/-- Subtract the deleted relationships of an edge from its count. -/
def lowerCount (s : RelationshipStore) (e : EdgeKey × OrdMap RelationshipId Unit) :
    RelationshipStore :=
  s.setCount e.1 (s.counts.count e.1 - e.2.entries.length)

end RelationshipDeleteBatch

/-- `delete_relationship_mutations_batch_txn_locked`. -/
def deleteRelationshipMutationsBatchTxn (env : WriteEnv) (cellId : CellId)
    (deletions : List (EdgeMutation × RelationshipId)) (guards : List EdgeMutation)
    (sequence : StorageSequence) (c : Cell) :
    Except GraphError (Outcome RelationshipDeleteBatchResult) := do
  c.validateWriteFence cellId "delete_relationship_mutations_batch"
  let (c, reserved) ← c.reserveEdgeDeleteNoops cellId sequence guards
  let commitEpoch ← nextSequence sequence "storage_sequence"
    "epoch overflow during relationship delete batch"
  let b ← deletions.foldlM (RelationshipDeleteBatch.step cellId c sequence) ⟨c, 0, 0, [], reserved⟩
  let byEdge := RelationshipDeleteBatch.deletingByEdge b.pending
  -- the survivor checks read the relationships before any of them is deleted
  let structuralDeletes := (byEdge.entries.filter fun e =>
    !b.cell.relationships.hasSurviving e.1 e.2.keys).map Prod.fst
  let c := b.pending.foldl (RelationshipDeleteBatch.deletePending commitEpoch) b.cell
  let c := c.setRelationships (byEdge.entries.foldl RelationshipDeleteBatch.lowerCount
    c.relationships)
  let (c, topologyChanged) ← structuralDeletes.foldlM (fun (acc : Cell × Bool) k => do
    let (c, changed) ← acc.1.deleteStructuralEdge env cellId k commitEpoch
    return (c, acc.2 || changed)) (c, false)
  commitTxnIf (b.wrote || !b.pending.isEmpty) sequence c
    { deleted := b.deleted + b.pending.length
      alreadyDeleted := b.alreadyDeleted
      topologySequence := if topologyChanged then some commitEpoch else none }

/-- The checks on the identities of a batch: neither a key nor a relationship occurs twice. -/
def validateUniqueRelationshipDeletes (deletions : List (EdgeMutation × RelationshipId)) :
    Except GraphError Unit := do
  let _ ← deletions.foldlM
    (fun (seen : OrdMap String Unit × OrdMap RelationshipKey Unit) deletion =>
      let r := deletion.1.relationship deletion.2
      if seen.1.contains deletion.1.idempotencyKey then
        .error (.idempotencyConflict "relationship-delete" deletion.1.idempotencyKey
          "the same idempotency key appears twice in one batch")
      else if seen.2.contains r then
        .error (.idempotencyConflict "relationship-delete" deletion.1.idempotencyKey
          "the same relationship appears twice in one batch")
      else .ok (seen.1.put deletion.1.idempotencyKey (), seen.2.put r ())) (∅, ∅)

/-- `delete_relationship_mutations_batch_with_guards`. An empty batch returns at once. -/
def deleteRelationshipMutationsBatchWithGuards (env : WriteEnv) (cellId : CellId)
    (deletions : List (EdgeMutation × RelationshipId)) (guards : List EdgeMutation)
    (sequence : StorageSequence) (c : Cell) :
    Except GraphError (Outcome RelationshipDeleteBatchResult) := do
  validateComponent "cell_id" cellId
  if deletions.isEmpty then return .unchanged ⟨0, 0, none⟩
  else do
    ensureLimit "delete_relationship_mutations_batch" deletions.length env.limits.maxBulkImportEdges
    validateEdgeMutationsForCell cellId "delete_relationship_mutations_batch"
      (deletions.map Prod.fst)
    ensureLimit "reserve_edge_delete_noops_batch" guards.length env.limits.maxBulkImportEdges
    validateEdgeMutationsForCell cellId "reserve_edge_delete_noops_batch" guards
    validateUniqueDeleteMutationIdentities guards
    validateUniqueRelationshipDeletes deletions
    deleteRelationshipMutationsBatchTxn env cellId deletions guards sequence c

end HydraDb
