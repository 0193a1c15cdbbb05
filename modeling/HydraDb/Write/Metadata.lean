import HydraDb.Write.Edge
import HydraDb.Write.Merge

/-!
# Metadata updates

The operations that write vertex and edge metadata and change no edge: set, batched set, batched
merge and import of vertex metadata, set of edge metadata, and the installation of unique-identity
pointers for relationships that an offline import verified (`shard/write.rs`). None of them writes
an idempotency record, and a request that changes nothing commits nothing.

A merge without a policy that finds the writer busy asks first, in a read-only snapshot, whether
there is anything to change (`vertexMetadataMergesAreNoops`). If there is not, it answers without a
transaction, which would have committed nothing either.
-/

namespace HydraDb

/-! ## Vertex metadata -/

/-- `next_epoch_txn`. -/
def nextEpoch (cellId : CellId) (sequence : StorageSequence) : Except GraphError StorageSequence :=
  nextSequence sequence ("cell/" ++ cellId ++ "/storage_sequence")
    "SlateDB storage sequence overflow"

/-- Write the vertex records that change, if any, and return their number. -/
def Cell.commitChangedMetadata (c : Cell) (cellId : CellId)
    (changed : List (VertexId × VertexMetadata × VertexMetadata)) (sequence : StorageSequence) :
    Except GraphError (Outcome Nat) :=
  if changed.isEmpty then return .unchanged 0
  else do
    let _ ← nextEpoch cellId sequence
    let c ← c.applyChangedMetadata changed
    commitTxn sequence c changed.length

/-- `set_vertex_metadata`. -/
def setVertexMetadata (cellId : CellId) (vertex : VertexId) (metadata : VertexMetadata)
    (sequence : StorageSequence) (c : Cell) : Except GraphError (Outcome Unit) := do
  validateComponent "cell_id" cellId
  validateVertexMetadata metadata
  c.validateWriteFence cellId "set_vertex_metadata"
  let existing := c.vertices.records.get vertex
  if existing = some metadata then return .unchanged ()
  else do
    let _ ← nextEpoch cellId sequence
    let vertices ← c.vertices.applyMetadataUpdate vertex (existing.getD default) metadata
    commitTxn sequence (c.setVertices vertices) ()

/-- The vertices whose record differs from the one requested. -/
def replacedMetadata (s : VertexStore) (updates : List (VertexId × VertexMetadata)) :
    List (VertexId × VertexMetadata × VertexMetadata) :=
  updates.filterMap fun u =>
    let existing := s.records.get u.1
    if existing ≠ some u.2 then some (u.1, existing.getD default, u.2) else none

/-- `set_vertex_metadata_batch`. -/
def setVertexMetadataBatch (env : WriteEnv) (cellId : CellId)
    (updates : List (VertexId × VertexMetadata)) (sequence : StorageSequence) (c : Cell) :
    Except GraphError (Outcome Nat) := do
  validateComponent "cell_id" cellId
  let updates ← coalesceVertexMetadataUpdates updates
  if updates.isEmpty then return .unchanged 0
  else do
    ensureLimit "set_vertex_metadata_batch" updates.length env.limits.maxBulkImportEdges
    c.validateWriteFence cellId "set_vertex_metadata_batch"
    c.commitChangedMetadata cellId (replacedMetadata c.vertices updates) sequence

/-- One update of an import: a vertex that has other metadata already is an error. -/
def importedMetadata (cellId : CellId) (s : VertexStore)
    (changed : List (VertexId × VertexMetadata × VertexMetadata)) (u : VertexId × VertexMetadata) :
    Except GraphError (List (VertexId × VertexMetadata × VertexMetadata)) :=
  let existing := s.records.get u.1
  if existing = some u.2 then return changed
  else if existing.getD default ≠ default then
    .error (.corruptValue (vertexKeyText cellId u.1)
      ("vertex " ++ toString u.1 ++ " already has different metadata during import"))
  else return changed ++ [(u.1, existing.getD default, u.2)]

/-- `import_vertex_metadata_batch`. -/
def importVertexMetadataBatch (env : WriteEnv) (cellId : CellId)
    (updates : List (VertexId × VertexMetadata)) (sequence : StorageSequence) (c : Cell) :
    Except GraphError (Outcome Nat) := do
  validateComponent "cell_id" cellId
  let updates ← coalesceVertexMetadataUpdates updates
  if updates.isEmpty then return .unchanged 0
  else do
    ensureLimit "import_vertex_metadata_batch" updates.length env.limits.maxBulkImportEdges
    c.validateWriteFence cellId "import_vertex_metadata_batch"
    let changed ← updates.foldlM (importedMetadata cellId c.vertices) []
    c.commitChangedMetadata cellId changed sequence

/-! ## Merges of vertex metadata -/

/-- `fold_vertex_metadata_row`: labels accumulate and a later value replaces an earlier one;
create-only properties belong to the first row. -/
def foldVertexMetadataRow (mergePolicy : Option QueryBatchMergePolicy)
    (folded row : VertexMetadata) : VertexMetadata where
  labels := folded.labels.putAll row.labels.entries
  properties := folded.properties.putAll (row.properties.entries.filter fun e =>
    !mergePolicy.any fun policy => policy.createOnlyProperties.contains e.1)

/-- Whether a row carries the guard of its policy. -/
def carriesGuard (mergePolicy : Option QueryBatchMergePolicy) (metadata : VertexMetadata) : Bool :=
  mergePolicy.any fun policy => metadata.properties.contains policy.updateIfNewerBy

/-- Add a row to the patches of a vertex: adjacent rows without a guard fold into one. -/
def addMergeRow (mergePolicy : Option QueryBatchMergePolicy) (patches : List VertexMetadata)
    (row : VertexMetadata) : List VertexMetadata :=
  match patches.getLast? with
  | some folded =>
    if !carriesGuard mergePolicy folded && !carriesGuard mergePolicy row then
      patches.dropLast ++ [foldVertexMetadataRow mergePolicy folded row]
    else patches ++ [row]
  | none => [row]

/-- `group_vertex_metadata_merges`: the patches of each vertex, in vertex order. -/
def groupVertexMetadataMerges (updates : List (VertexId × VertexMetadata))
    (mergePolicy : Option QueryBatchMergePolicy) :
    Except GraphError (List (VertexId × List VertexMetadata)) := do
  let byVertex ← updates.foldlM (fun (byVertex : OrdMap VertexId (List VertexMetadata)) u => do
    validateVertexMetadata u.2
    return byVertex.put u.1 (addMergeRow mergePolicy ((byVertex.get u.1).getD []) u.2)) ∅
  return byVertex.entries

/-- The state of `apply_vertex_metadata_merges`: the metadata so far, whether the vertex exists,
the rows without a guard that have not landed, whether the last guarded row landed and whether
there was one. -/
structure VertexMergeState where
  merged : VertexMetadata
  existed : Bool
  waiting : Option VertexMetadata
  landed : Bool
  guarded : Bool

namespace VertexMergeState

/-- A guarded row lands, with the rows that waited for it. -/
def land (st : VertexMergeState) (row : VertexMetadata) : VertexMergeState :=
  ⟨mergeVertexMetadata st.merged row, true, none, true, true⟩

/-- A row without the guard rides on the guarded row that just landed, or waits. -/
def ride (st : VertexMergeState) (policy : QueryBatchMergePolicy) (patch : VertexMetadata) :
    VertexMergeState :=
  if st.landed then { st with merged := foldVertexMetadataRow (some policy) st.merged patch }
  else { st with
    waiting := some (match st.waiting with
      | some folded => foldVertexMetadataRow (some policy) folded patch
      | none => patch) }

/-- One patch. -/
def step (policy : QueryBatchMergePolicy) (key : String) (st : VertexMergeState)
    (patch : VertexMetadata) : Except GraphError VertexMergeState :=
  if !patch.properties.contains policy.updateIfNewerBy then return st.ride policy patch
  else
    let row := match st.waiting with
      | some folded => foldVertexMetadataRow (some policy) folded patch
      | none => patch
    if st.existed then do
      match ← guardedMetadataPatch st.merged.properties row.properties policy key with
      | none => return { st with landed := false, guarded := true }
      | some properties => return st.land { row with properties }
    else return st.land row

/-- The rows still waiting at the end create the vertex, or fail for want of a guard. -/
def finish (policy : QueryBatchMergePolicy) (key : String) (st : VertexMergeState) :
    Except GraphError VertexMetadata :=
  match st.waiting with
  | none => return st.merged
  | some row =>
    if !st.existed then return mergeVertexMetadata st.merged row
    else if !st.guarded then do
      let _ ← guardedMetadataPatch st.merged.properties row.properties policy key
      return st.merged
    else return st.merged

end VertexMergeState

/-- `apply_vertex_metadata_merges`. -/
def applyVertexMetadataMerges (previous : VertexMetadata) (existed : Bool)
    (patches : List VertexMetadata) (mergePolicy : Option QueryBatchMergePolicy) (key : String) :
    Except GraphError VertexMetadata :=
  match mergePolicy with
  | none => return patches.foldl mergeVertexMetadata previous
  | some policy => do
    let st ← patches.foldlM (VertexMergeState.step policy key)
      ⟨previous, existed, none, false, false⟩
    st.finish policy key

/-- One vertex of a merge. -/
def mergedMetadata (cellId : CellId) (s : VertexStore) (mergePolicy : Option QueryBatchMergePolicy)
    (changed : List (VertexId × VertexMetadata × VertexMetadata))
    (u : VertexId × List VertexMetadata) :
    Except GraphError (List (VertexId × VertexMetadata × VertexMetadata)) := do
  let existing := s.records.get u.1
  let previous := existing.getD default
  let merged ← applyVertexMetadataMerges previous existing.isSome u.2 mergePolicy
    (vertexKeyText cellId u.1)
  return if previous ≠ merged ∨ existing.isNone then changed ++ [(u.1, previous, merged)]
    else changed

/-- `merge_vertex_metadata_batch_txn_locked`, on the grouped patches. -/
def mergeVertexMetadataBatchTxn (cellId : CellId) (updates : List (VertexId × List VertexMetadata))
    (mergePolicy : Option QueryBatchMergePolicy) (sequence : StorageSequence) (c : Cell) :
    Except GraphError (Outcome Nat) := do
  c.validateWriteFence cellId "merge_vertex_metadata_batch"
  let changed ← updates.foldlM (mergedMetadata cellId c.vertices mergePolicy) []
  c.commitChangedMetadata cellId changed sequence

/-- `vertex_metadata_merges_are_noops`, the preflight of a merge without a policy. Without a
hydration permit it does not look. Merging into an absent vertex creates it, even with an empty
patch. -/
def vertexMetadataMergesAreNoops (hydrationPermit : Bool) (cellId : CellId)
    (updates : List (VertexId × List VertexMetadata)) (c : Cell) : Except GraphError Bool :=
  if !hydrationPermit then return false
  else do
    c.validateWriteFence cellId "merge_vertex_metadata_batch"
    return updates.all fun u =>
      match c.vertices.records.get u.1 with
      | none => false
      | some previous => u.2.all fun patch =>
        patch.labels.keys.all previous.labels.contains &&
          patch.properties.entries.all fun e => decide (previous.properties.get e.1 = some e.2)

/-- `merge_vertex_metadata_batch`. -/
def mergeVertexMetadataBatch (env : WriteEnv) (cellId : CellId)
    (updates : List (VertexId × VertexMetadata)) (mergePolicy : Option QueryBatchMergePolicy)
    (sequence : StorageSequence) (c : Cell) : Except GraphError (Outcome Nat) := do
  validateComponent "cell_id" cellId
  validateMergePolicy mergePolicy
  let updates ← groupVertexMetadataMerges updates mergePolicy
  if updates.isEmpty then return .unchanged 0
  else do
    ensureLimit "merge_vertex_metadata_batch" (updates.map fun u => u.2.length).sum
      env.limits.maxBulkImportEdges
    mergeVertexMetadataBatchTxn cellId updates mergePolicy sequence c

/-! ## Edge metadata -/

/-- `set_edge_metadata`. -/
def setEdgeMetadata (cellId : CellId) (k : EdgeKey) (metadata : EdgeMetadata)
    (sequence : StorageSequence) (c : Cell) : Except GraphError (Outcome Bool) := do
  validateComponent "cell_id" cellId
  validateComponent "edge_type" k.edgeType
  validateEdgeMetadata metadata
  c.validateWriteFence cellId "set_edge_metadata"
  if (c.topology.edgeEpochAt k sequence).isNone then
    .error (.unsupportedQuery "GraphQuery" "cannot set metadata for a missing edge" .mutation)
  else
    let previous := c.edgeMetadata.read k
    if previous = metadata then return .unchanged false
    else do
      let _ ← nextEpoch cellId sequence
      let edgeMetadata ← c.edgeMetadata.applyUpdate k previous metadata
      commitTxn sequence (c.setEdgeMetadata edgeMetadata) true

/-- `coalesce_edge_metadata_updates`: one update an edge. -/
def coalesceEdgeMetadataUpdates (updates : List (VertexId × VertexId × EdgeMetadata)) :
    Except GraphError (List (VertexId × VertexId × EdgeMetadata)) := do
  let byEdge ← updates.foldlM (fun (byEdge : OrdMap (VertexId ×ₗ VertexId) EdgeMetadata) u => do
    validateEdgeMetadata u.2.2
    match byEdge.get (toLex (u.1, u.2.1)) with
    | some existing =>
      if existing ≠ u.2.2 then
        .error (.batchValueConflict ("edge " ++ toString u.1 ++ "->" ++ toString u.2.1))
      else .ok byEdge
    | none => .ok (byEdge.put (toLex (u.1, u.2.1)) u.2.2)) ∅
  return byEdge.entries.map fun e => ((ofLex e.1).1, (ofLex e.1).2, e.2)

/-- One update of a batch: the edge must exist. -/
def changedEdgeMetadata (c : Cell) (edgeType : EdgeType) (sequence : StorageSequence)
    (changed : List (EdgeKey × EdgeMetadata × EdgeMetadata))
    (u : VertexId × VertexId × EdgeMetadata) :
    Except GraphError (List (EdgeKey × EdgeMetadata × EdgeMetadata)) :=
  let k : EdgeKey := ⟨edgeType, u.1, u.2.1⟩
  if (c.topology.edgeEpochAt k sequence).isNone then
    .error (.unsupportedQuery "GraphQuery" ("cannot set metadata for missing edge " ++ edgeType ++
      "(" ++ toString u.1 ++ "->" ++ toString u.2.1 ++ ")") .mutation)
  else
    let previous := c.edgeMetadata.read k
    return if previous ≠ u.2.2 then changed ++ [(k, previous, u.2.2)] else changed

/-- `set_edge_metadata_batch`. -/
def setEdgeMetadataBatch (env : WriteEnv) (cellId : CellId) (edgeType : EdgeType)
    (updates : List (VertexId × VertexId × EdgeMetadata)) (sequence : StorageSequence) (c : Cell) :
    Except GraphError (Outcome Nat) := do
  validateComponent "cell_id" cellId
  validateComponent "edge_type" edgeType
  let updates ← coalesceEdgeMetadataUpdates updates
  if updates.isEmpty then return .unchanged 0
  else do
    ensureLimit "set_edge_metadata_batch" updates.length env.limits.maxBulkImportEdges
    c.validateWriteFence cellId "set_edge_metadata_batch"
    let changed ← updates.foldlM (changedEdgeMetadata c edgeType sequence) []
    if changed.isEmpty then return .unchanged 0
    else do
      let _ ← nextEpoch cellId sequence
      let edgeMetadata ← changed.foldlM
        (fun (s : EdgeMetadataStore) u => s.applyUpdate u.1 u.2.1 u.2.2) c.edgeMetadata
      commitTxn sequence (c.setEdgeMetadata edgeMetadata) changed.length

/-! ## Unique-identity pointers -/

/-- The text of the key of a unique-identity pointer. -/
def relationshipMergeIndexText (cellId : CellId) (k : EdgePropertyKey) : String :=
  "cell/" ++ cellId ++ "/rmerge_idx/" ++ k.edgeType ++ "/" ++ k.property ++ "/" ++ k.encoded ++
    "/" ++ padded20 k.src.toNat ++ "/" ++ padded20 k.dst.toNat

/-- One relationship of the batch: the stored record must be the verified one, and no other
relationship of the batch may claim its identity. -/
def verifiedPointer (cellId : CellId) (edgeType : EdgeType) (s : RelationshipStore)
    (pointers : OrdMap EdgePropertyKey RelationshipId) (row : RelationshipMutation) :
    Except GraphError (OrdMap EdgePropertyKey RelationshipId) :=
  let recordKey := relationshipKeyText cellId edgeType row.src row.dst row.relationshipId
  let identity := VertexPropertyValue.integer row.relationshipId
  if row.cellId ≠ cellId ∨ row.edgeType ≠ edgeType then
    .error (.corruptValue recordKey "offline relationship identity does not match the batch")
  else if row.metadata.properties.get relationshipIdentityProperty ≠ some identity then
    .error (.corruptValue recordKey "offline relationship id property does not match its stable id")
  else
    match s.records.get ⟨edgeType, row.src, row.dst, row.relationshipId⟩ with
    | none => .error (.corruptValue recordKey "offline relationship record is missing")
    | some persisted =>
      if persisted ≠ row.metadata then
        .error (.corruptValue recordKey
          "offline relationship record differs from the verified input")
      else
        let pointerKey := RelationshipStore.mergeKey ⟨edgeType, row.src, row.dst⟩ identity
        match pointers.get pointerKey with
        | some existing =>
          if existing ≠ row.relationshipId then
            .error (.corruptValue (relationshipMergeIndexText cellId pointerKey)
              "offline relationship identity is not unique")
          else .ok (pointers.put pointerKey row.relationshipId)
        | none => .ok (pointers.put pointerKey row.relationshipId)

/-- Write one pointer; a stored one must name the same relationship. -/
def installPointer (cellId : CellId) (s : RelationshipStore)
    (e : EdgePropertyKey × RelationshipId) : Except GraphError RelationshipStore :=
  match s.merges.get e.1 with
  | some existing =>
    if existing ≠ e.2 then
      .error (.corruptValue (relationshipMergeIndexText cellId e.1)
        ("offline relationship identity already points to " ++ toString existing ++
          ", expected " ++ toString e.2))
    else .ok { s with merges := s.merges.put e.1 e.2 }
  | none => .ok { s with merges := s.merges.put e.1 e.2 }

/-- `install_relationship_merge_indexes_batch`. -/
def installRelationshipMergeIndexesBatch (env : WriteEnv) (cellId : CellId) (edgeType : EdgeType)
    (rows : List RelationshipMutation) (sequence : StorageSequence) (c : Cell) :
    Except GraphError (Outcome Nat) := do
  validateComponent "cell_id" cellId
  validateComponent "edge_type" edgeType
  if rows.isEmpty then return .unchanged 0
  else do
    ensureLimit "install_relationship_merge_indexes_batch" rows.length env.limits.maxBulkImportEdges
    c.validateWriteFence cellId "install_relationship_merge_indexes_batch"
    let pointers ← rows.foldlM (verifiedPointer cellId edgeType c.relationships) ∅
    let relationships ← pointers.entries.foldlM (installPointer cellId) c.relationships
    commitTxn sequence (c.setRelationships relationships) pointers.entries.length

end HydraDb
