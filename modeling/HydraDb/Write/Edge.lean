import HydraDb.Store.Transaction

/-!
# Edge inserts

The single edge write, with or without metadata for its endpoints and itself, and the batch of
edge writes (`write_edge_txn_locked_with_metadata` and `write_edge_mutations_batch_txn_locked`,
`shard/write.rs`). A single write inserts a direct edge only when the edge is not visible, and
counts it at once. The batch collects the degree increments and the endpoints of the edges it
inserts and writes them after its loop.
-/

namespace HydraDb

/-! ## Requests -/

/-- The components of an edge mutation. -/
def EdgeMutation.validate (mutation : EdgeMutation) : Except GraphError Unit := do
  validateComponent "cell_id" mutation.cellId
  validateComponent "edge_type" mutation.edgeType
  validateComponent "idempotency_key" mutation.idempotencyKey

/-- Set a property that an earlier update of the same vertex may have set to the same value
only. -/
def coalesceProperty (vertex : VertexId) (properties : Properties)
    (e : String × VertexPropertyValue) : Except GraphError Properties :=
  match properties.get e.1 with
  | some existing =>
    if existing ≠ e.2 then
      .error (.batchValueConflict ("vertex " ++ toString vertex ++ " property " ++ e.1))
    else .ok (properties.put e.1 e.2)
  | none => .ok (properties.put e.1 e.2)

/-- `coalesce_vertex_metadata_updates`: one update a vertex, in vertex order. -/
def coalesceVertexMetadataUpdates (updates : List (VertexId × VertexMetadata)) :
    Except GraphError (List (VertexId × VertexMetadata)) := do
  let byVertex ← updates.foldlM (fun (byVertex : OrdMap VertexId VertexMetadata) u => do
    validateVertexMetadata u.2
    let entry := (byVertex.get u.1).getD default
    let properties ← u.2.properties.entries.foldlM (coalesceProperty u.1) entry.properties
    return byVertex.put u.1 ⟨entry.labels.putAll u.2.labels.entries, properties⟩) ∅
  return byVertex.entries

/-! ## One edge -/

/-- The vertices whose record the updates change or create, each with its previous and its next
metadata. -/
def changedMetadata (s : VertexStore) (updates : List (VertexId × VertexMetadata)) :
    List (VertexId × VertexMetadata × VertexMetadata) :=
  updates.filterMap fun u =>
    let existing := s.records.get u.1
    let previous := existing.getD default
    let next := mergeVertexMetadata previous u.2
    if previous ≠ next ∨ existing.isNone then some (u.1, previous, next) else none

/-- Write the changed vertex records. -/
def Cell.applyChangedMetadata (c : Cell)
    (changed : List (VertexId × VertexMetadata × VertexMetadata)) : Except GraphError Cell := do
  let vertices ← changed.foldlM
    (fun (s : VertexStore) u => s.applyMetadataUpdate u.1 u.2.1 u.2.2) c.vertices
  return c.setVertices vertices

/-- Write the metadata of an edge when it changes. -/
def Cell.applyEdgeMetadata (c : Cell) (k : EdgeKey) (previous next : EdgeMetadata) :
    Except GraphError Cell :=
  if previous = next then return c
  else do
    let edgeMetadata ← c.edgeMetadata.applyUpdate k previous next
    return c.setEdgeMetadata edgeMetadata

/-- Insert a direct edge that is not visible: log it, write its keys, count it. -/
def Cell.insertCountedEdge (c : Cell) (env : WriteEnv) (cellId : CellId) (k : EdgeKey)
    (epoch : StorageSequence) : Cell :=
  let outKey : DegreeKey := ⟨k.edgeType, k.src⟩
  let inKey : DegreeKey := ⟨k.edgeType, k.dst⟩
  let c := c.markTopologyChange env cellId k.edgeType epoch [(k.src, k.dst, true)]
  let outDegree := c.topology.degreeOut.count outKey + 1
  let inDegree := c.topology.degreeIn.count inKey + 1
  let c := c.insertDirect env.reverseIndex k
  let c := c.setDegreeOut (c.topology.degreeOut.put outKey outDegree)
  if env.reverseIndex then c.setDegreeIn (c.topology.degreeIn.put inKey inDegree) else c

/-- `write_edge_txn_locked_with_metadata`. -/
def writeEdgeTxn (env : WriteEnv) (mutation : EdgeMutation)
    (metadataUpdates : List (VertexId × VertexMetadata)) (edgeMetadata : EdgeMetadata)
    (operation : String) (sequence : StorageSequence) (c : Cell) :
    Except GraphError (Outcome CommitResult) := do
  c.validateWriteFence mutation.cellId operation
  c.replayOr mutation.cellId "create" mutation.idempotencyKey
    (decodeCommitIdempotency · mutation) <|
    let k := mutation.edge
    let record (result : CommitResult) := IdempotencyRecord.commit result mutation.cellId k
    let changed := changedMetadata c.vertices metadataUpdates
    let previous := c.edgeMetadata.read k
    let next := mergeEdgeMetadata previous edgeMetadata
    match c.topology.edgeEpochAt k sequence with
    | some existingEpoch =>
      if changed.isEmpty ∧ previous = next then
        let result : CommitResult := ⟨existingEpoch, true⟩
        commitTxn sequence (c.putIdempotency "create" mutation.idempotencyKey (record result))
          result
      else do
        let epoch ← nextSequence sequence "storage_sequence" "epoch overflow"
        let result : CommitResult := ⟨epoch, true⟩
        let c ← c.applyChangedMetadata changed
        let c ← c.applyEdgeMetadata k previous next
        commitTxn sequence (c.putIdempotency "create" mutation.idempotencyKey (record result))
          result
    | none => do
      let epoch ← nextSequence sequence "storage_sequence" "epoch overflow"
      let result : CommitResult := ⟨epoch, false⟩
      let c ← c.applyChangedMetadata changed
      let c ← c.applyEdgeMetadata k previous next
      let written := OrdMap.addAll ∅ (metadataUpdates.map Prod.fst)
      let c := c.setVertices (c.vertices.ensureRecords [k.src, k.dst] written false)
      let c := c.insertCountedEdge env mutation.cellId k epoch
      commitTxn sequence (c.putIdempotency "create" mutation.idempotencyKey (record result)) result

/-- `write_edge`. -/
def writeEdge (env : WriteEnv) (mutation : EdgeMutation) (sequence : StorageSequence) (c : Cell) :
    Except GraphError (Outcome CommitResult) := do
  mutation.validate
  writeEdgeTxn env mutation [] default "write_edge" sequence c

/-- `write_edge_with_vertex_metadata`. -/
def writeEdgeWithVertexMetadata (env : WriteEnv) (mutation : EdgeMutation)
    (srcMetadata dstMetadata : VertexMetadata) (sequence : StorageSequence) (c : Cell) :
    Except GraphError (Outcome CommitResult) := do
  mutation.validate
  validateVertexMetadata srcMetadata
  validateVertexMetadata dstMetadata
  let updates ← coalesceVertexMetadataUpdates
    [(mutation.src, srcMetadata), (mutation.dst, dstMetadata)]
  writeEdgeTxn env mutation updates default "write_edge_with_vertex_metadata" sequence c

/-- `write_edge_with_full_metadata`. -/
def writeEdgeWithFullMetadata (env : WriteEnv) (mutation : EdgeMutation)
    (srcMetadata dstMetadata : VertexMetadata) (edgeMetadata : EdgeMetadata)
    (sequence : StorageSequence) (c : Cell) : Except GraphError (Outcome CommitResult) := do
  mutation.validate
  validateVertexMetadata srcMetadata
  validateVertexMetadata dstMetadata
  validateEdgeMetadata edgeMetadata
  let updates ← coalesceVertexMetadataUpdates
    [(mutation.src, srcMetadata), (mutation.dst, dstMetadata)]
  writeEdgeTxn env mutation updates edgeMetadata "write_edge_with_full_metadata" sequence c

/-! ## A batch of edges -/

/-- The accumulators of the batch loop. -/
structure EdgeBatch where
  cell : Cell
  nextEpoch : StorageSequence
  results : List CommitResult
  knownEdges : OrdMap EdgeKey StorageSequence
  validatedEndpoints : OrdMap VertexLabelKey Unit
  outIncrements : OrdMap DegreeKey Nat
  inIncrements : OrdMap DegreeKey Nat
  inserted : Nat
  alreadyExisted : Nat
  insertedEndpoints : OrdMap VertexId Unit
  /-- Whether anything has been written. -/
  wrote : Bool

namespace EdgeBatch

/-- The accumulators before the first mutation. -/
def start (sequence : StorageSequence) (c : Cell) : EdgeBatch :=
  ⟨c, sequence, [], ∅, ∅, ∅, ∅, 0, 0, ∅, false⟩

/-- A mutation whose key has a recorded result. -/
def replay (b : EdgeBatch) (result : CommitResult) : EdgeBatch :=
  { b with
    results := b.results ++ [result]
    inserted := if result.alreadyExisted then b.inserted else b.inserted + 1
    alreadyExisted := if result.alreadyExisted then b.alreadyExisted + 1 else b.alreadyExisted }

/-- A mutation whose edge exists, as of `epoch`. -/
def existing (b : EdgeBatch) (mutation : EdgeMutation) (epoch : StorageSequence) : EdgeBatch :=
  let result : CommitResult := ⟨epoch, true⟩
  { b with
    cell := b.cell.putIdempotency "create" mutation.idempotencyKey
      (.commit result mutation.cellId mutation.edge)
    knownEdges := b.knownEdges.put mutation.edge epoch
    alreadyExisted := b.alreadyExisted + 1
    results := b.results ++ [result]
    wrote := true }

/-- A mutation whose edge is inserted. -/
def insert (b : EdgeBatch) (env : WriteEnv) (mutation : EdgeMutation) (labelled : Bool)
    (commitEpoch : StorageSequence) : EdgeBatch :=
  let k := mutation.edge
  let result : CommitResult := ⟨commitEpoch, false⟩
  let c := b.cell.markTopologyChange env mutation.cellId k.edgeType commitEpoch
    [(k.src, k.dst, true)]
  let c := c.insertDirect env.reverseIndex k
  { b with
    cell := c.putIdempotency "create" mutation.idempotencyKey (.commit result mutation.cellId k)
    nextEpoch := commitEpoch
    knownEdges := b.knownEdges.put k commitEpoch
    insertedEndpoints :=
      if labelled then b.insertedEndpoints else b.insertedEndpoints.addAll [k.src, k.dst]
    outIncrements := b.outIncrements.bump ⟨k.edgeType, k.src⟩
    inIncrements :=
      if env.reverseIndex then b.inIncrements.bump ⟨k.edgeType, k.dst⟩ else b.inIncrements
    inserted := b.inserted + 1
    results := b.results ++ [result]
    wrote := true }

/-- Check that a vertex exists with a label, once for each of them. -/
def validateEndpoint (b : EdgeBatch) (vertex : VertexId) (label : String) :
    Except GraphError EdgeBatch :=
  if b.validatedEndpoints.contains ⟨label, vertex⟩ then return b
  else
    let b := { b with validatedEndpoints := b.validatedEndpoints.put ⟨label, vertex⟩ () }
    match b.cell.vertices.records.get vertex with
    | none => .error (.unsupportedQuery "OpenCypher"
        ("MATCH endpoint vertex " ++ toString vertex ++ " with label " ++ label ++
          " does not exist") .mutation)
    | some metadata =>
      if metadata.labels.contains label then return b
      else .error (.unsupportedQuery "OpenCypher"
        ("MATCH endpoint vertex " ++ toString vertex ++ " does not have label " ++ label)
        .mutation)

/-- Check the labels of both ends of an edge. -/
def validateEndpoints (b : EdgeBatch) (mutation : EdgeMutation) :
    Option (String × String) → Except GraphError EdgeBatch
  | none => return b
  | some (sourceLabel, destinationLabel) => do
    let b ← b.validateEndpoint mutation.src sourceLabel
    b.validateEndpoint mutation.dst destinationLabel

/-- One mutation of the batch. The source caches the visible segment edges of a source; the
transaction writes no segment and no tombstone, so a read answers what the cache does. -/
def step (env : WriteEnv) (cellId : CellId) (endpointLabels : Option (String × String))
    (sequence commitEpoch : StorageSequence) (b : EdgeBatch) (mutation : EdgeMutation) :
    Except GraphError EdgeBatch :=
  match b.cell.idempotency.get ⟨"create", mutation.idempotencyKey⟩ with
  | some record => do
    let result ← decodeCommitIdempotency
      (idempotencyKeyText cellId "create" mutation.idempotencyKey) mutation record
    return b.replay result
  | none => do
    let b ← b.validateEndpoints mutation endpointLabels
    match b.knownEdges.get mutation.edge with
    | some epoch => return b.existing mutation epoch
    | none =>
      match b.cell.topology.edgeEpochAt mutation.edge sequence with
      | some epoch => return b.existing mutation epoch
      | none => return b.insert env mutation endpointLabels.isSome commitEpoch

/-- The counters and endpoint records after the loop. -/
def finish (b : EdgeBatch) (env : WriteEnv) (fresh : Bool) : Cell :=
  let c := b.cell.setDegreeOut (b.cell.topology.degreeOut.addAllCounts b.outIncrements)
  let c := if env.reverseIndex then
      c.setDegreeIn (c.topology.degreeIn.addAllCounts b.inIncrements) else c
  c.setVertices (c.vertices.ensureRecords b.insertedEndpoints.keys ∅ fresh)

end EdgeBatch

/-- No idempotency key occurs twice in a batch. -/
def validateDistinctKeys (operation : String) (mutations : List EdgeMutation) :
    Except GraphError Unit := do
  let _ ← mutations.foldlM (fun (seen : OrdMap String Unit) mutation =>
    if seen.contains mutation.idempotencyKey then
      .error (.idempotencyConflict operation mutation.idempotencyKey
        "the same key appears twice in one batch")
    else .ok (seen.put mutation.idempotencyKey ())) (∅ : OrdMap String Unit)

/-- The epochs of the edges a batch inserted, now or when its results were recorded. -/
def insertedEpochs (results : List CommitResult) : List StorageSequence :=
  (results.filter fun result => !result.alreadyExisted).map CommitResult.epoch

/-- `write_edge_mutations_batch_txn_locked`. -/
def writeEdgeMutationsBatchTxn (env : WriteEnv) (cellId : CellId) (mutations : List EdgeMutation)
    (operation : String) (endpointLabels : Option (String × String)) (sequence : StorageSequence)
    (c : Cell) : Except GraphError (Outcome EdgeMutationBatchResult) := do
  c.validateWriteFence cellId operation
  validateDistinctKeys "create" mutations
  let commitEpoch ← nextSequence sequence operation
    "SlateDB storage sequence overflow during edge mutation batch"
  let b ← mutations.foldlM (EdgeBatch.step env cellId endpointLabels sequence commitEpoch)
    (EdgeBatch.start sequence c)
  let epochs := insertedEpochs b.results
  commitTxnIf b.wrote sequence (b.finish env (sequence = 0))
    { startEpoch := epochs.min?.getD sequence
      endEpoch := epochs.max?.getD b.nextEpoch
      inserted := b.inserted
      alreadyExisted := b.alreadyExisted
      results := b.results }

/-- The checks of one mutation of a batch for a cell. -/
def EdgeMutation.validateForCell (cellId : CellId) (operation : String)
    (mutation : EdgeMutation) : Except GraphError Unit := do
  mutation.validate
  if mutation.cellId ≠ cellId then
    .error (.corruptValue ("cell/" ++ cellId ++ "/" ++ operation)
      ("batch contains mutation for different cell " ++ mutation.cellId))
  else .ok ()

/-- `write_edge_mutations_batch_with_endpoint_labels`. An empty batch returns at once. -/
def writeEdgeMutationsBatchWithEndpointLabels (env : WriteEnv) (cellId : CellId)
    (mutations : List EdgeMutation) (endpointLabels : Option (String × String))
    (operation : String) (sequence : StorageSequence) (c : Cell) :
    Except GraphError (Outcome EdgeMutationBatchResult) := do
  validateComponent "cell_id" cellId
  if mutations.isEmpty then return .unchanged ⟨sequence, sequence, 0, 0, []⟩
  else do
    ensureLimit operation mutations.length env.limits.maxBulkImportEdges
    mutations.forM (EdgeMutation.validateForCell cellId "write_edge_mutations_batch")
    writeEdgeMutationsBatchTxn env cellId mutations operation endpointLabels sequence c

/-- `write_edge_mutations_batch`. -/
def writeEdgeMutationsBatch (env : WriteEnv) (cellId : CellId) (mutations : List EdgeMutation)
    (sequence : StorageSequence) (c : Cell) : Except GraphError (Outcome EdgeMutationBatchResult) :=
  writeEdgeMutationsBatchWithEndpointLabels env cellId mutations none
    "write_edge_mutations_batch" sequence c

/-- `write_edge_mutations_batch_between_labeled_vertices`. -/
def writeEdgeMutationsBatchBetweenLabeledVertices (env : WriteEnv) (cellId : CellId)
    (mutations : List EdgeMutation) (sourceLabel destinationLabel : String)
    (sequence : StorageSequence) (c : Cell) :
    Except GraphError (Outcome EdgeMutationBatchResult) := do
  validateComponent "source_label" sourceLabel
  validateComponent "destination_label" destinationLabel
  writeEdgeMutationsBatchWithEndpointLabels env cellId mutations
    (some (sourceLabel, destinationLabel))
    "write_edge_mutations_batch_between_labeled_vertices" sequence c

end HydraDb
