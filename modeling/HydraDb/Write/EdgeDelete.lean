import HydraDb.Write.Edge

/-!
# Edge deletes

The single edge delete and the batch (`delete_edge_txn_locked` and
`delete_edge_mutations_batch_txn_locked`, `shard/write.rs`). A direct edge loses its keys; an edge
that only a segment shows gets a tombstone. Either way the metadata and the relationships of the
edge go with it. Under the policy that keeps a reverse index there are no segments, and they are
not read.
-/

namespace HydraDb

/-- What every delete of an edge does apart from its keys and counters: log it, delete its
relationships, clear its metadata. -/
def Cell.unlinkEdge (c : Cell) (env : WriteEnv) (cellId : CellId) (k : EdgeKey)
    (epoch : StorageSequence) : Except GraphError Cell := do
  let c := c.markTopologyChange env cellId k.edgeType epoch [(k.src, k.dst, false)]
  let c := c.setRelationships (c.relationships.deleteForEdge k).1
  let edgeMetadata ← c.edgeMetadata.clear k
  return c.setEdgeMetadata edgeMetadata

/-- Subtract one from the out-degree of a source. -/
def Cell.decrementDegreeOut (c : Cell) (k : DegreeKey) : Cell :=
  c.setDegreeOut (c.topology.degreeOut.put k (c.topology.degreeOut.count k - 1))

/-- Subtract one from the in-degree of a destination. -/
def Cell.decrementDegreeIn (c : Cell) (k : DegreeKey) : Cell :=
  c.setDegreeIn (c.topology.degreeIn.put k (c.topology.degreeIn.count k - 1))

/-! ## One edge -/

/-- The delete of an edge stored as a direct key. The reverse key is deleted under both
policies. -/
def Cell.deleteDirectEdge (c : Cell) (env : WriteEnv) (cellId : CellId) (k : EdgeKey)
    (epoch : StorageSequence) : Except GraphError Cell := do
  let c ← c.unlinkEdge env cellId k epoch
  let c := c.removeDirect true k
  let c := c.decrementDegreeOut ⟨k.edgeType, k.src⟩
  return if env.reverseIndex then c.decrementDegreeIn ⟨k.edgeType, k.dst⟩ else c

/-- The delete of an edge that a segment shows. -/
def Cell.deleteSegmentEdge (c : Cell) (env : WriteEnv) (cellId : CellId) (k : EdgeKey)
    (epoch : StorageSequence) : Except GraphError Cell := do
  let c ← c.unlinkEdge env cellId k epoch
  let c := c.putTombstone k epoch
  return c.decrementDegreeOut ⟨k.edgeType, k.src⟩

/-- `delete_edge_txn_locked`. -/
def deleteEdgeTxn (env : WriteEnv) (mutation : EdgeMutation) (sequence : StorageSequence)
    (c : Cell) : Except GraphError (Outcome DeleteResult) := do
  c.validateWriteFence mutation.cellId "delete_edge"
  c.replayOr mutation.cellId "delete" mutation.idempotencyKey
    (decodeDeleteIdempotency · mutation) <|
    let k := mutation.edge
    let finish (c : Cell) (result : DeleteResult) : Except GraphError (Outcome DeleteResult) :=
      commitTxn sequence (c.putIdempotency "delete" mutation.idempotencyKey
        (.delete result mutation.cellId k)) result
    if c.topology.outEdges.contains k then do
      let epoch ← nextSequence sequence ("cell/" ++ mutation.cellId ++ "/storage_sequence")
        "SlateDB storage sequence overflow"
      let c ← c.deleteDirectEdge env mutation.cellId k epoch
      finish c ⟨epoch, true⟩
    else
      let segmentEdge :=
        if env.reverseIndex then none else c.topology.outSegmentEdgeRecordAt k sequence
      match segmentEdge with
      | none => finish c ⟨sequence, false⟩
      | some segmentSequence =>
        if segmentEdgeVisible segmentSequence (c.topology.tombstones.get k) then do
          let epoch ← nextSequence sequence "storage_sequence" "epoch overflow"
          let c ← c.deleteSegmentEdge env mutation.cellId k epoch
          finish c ⟨epoch, true⟩
        else finish c ⟨sequence, false⟩

/-- `delete_edge`. -/
def deleteEdge (env : WriteEnv) (mutation : EdgeMutation) (sequence : StorageSequence) (c : Cell) :
    Except GraphError (Outcome DeleteResult) := do
  mutation.validate
  deleteEdgeTxn env mutation sequence c

/-! ## A batch of edges -/

/-- The accumulators of the batch loop. -/
structure EdgeDeleteBatch where
  cell : Cell
  nextEpoch : StorageSequence
  results : List DeleteResult
  deleted : Nat
  alreadyDeleted : Nat
  outDecrements : OrdMap DegreeKey Nat
  inDecrements : OrdMap DegreeKey Nat
  /-- Whether anything has been written. -/
  wrote : Bool

namespace EdgeDeleteBatch

def start (sequence : StorageSequence) (c : Cell) : EdgeDeleteBatch :=
  ⟨c, sequence, [], 0, 0, ∅, ∅, false⟩

/-- A mutation whose key has a recorded result. -/
def replay (b : EdgeDeleteBatch) (result : DeleteResult) : EdgeDeleteBatch :=
  { b with
    results := b.results ++ [result]
    deleted := if result.deleted then b.deleted + 1 else b.deleted
    alreadyDeleted := if result.deleted then b.alreadyDeleted else b.alreadyDeleted + 1 }

/-- A mutation whose edge does not exist. -/
def absent (b : EdgeDeleteBatch) (mutation : EdgeMutation) (sequence : StorageSequence) :
    EdgeDeleteBatch :=
  let result : DeleteResult := ⟨sequence, false⟩
  { b with
    cell := b.cell.putIdempotency "delete" mutation.idempotencyKey
      (.delete result mutation.cellId mutation.edge)
    alreadyDeleted := b.alreadyDeleted + 1
    results := b.results ++ [result]
    wrote := true }

/-- A mutation whose edge is deleted: `direct` says in which form it is stored. -/
def delete (b : EdgeDeleteBatch) (env : WriteEnv) (cellId : CellId) (mutation : EdgeMutation)
    (direct : Bool) (commitEpoch : StorageSequence) : Except GraphError EdgeDeleteBatch := do
  let k := mutation.edge
  let result : DeleteResult := ⟨commitEpoch, true⟩
  let c ← b.cell.unlinkEdge env cellId k commitEpoch
  let c := if direct then c.removeDirect env.reverseIndex k else c.putTombstone k commitEpoch
  return { b with
    cell := c.putIdempotency "delete" mutation.idempotencyKey (.delete result mutation.cellId k)
    nextEpoch := commitEpoch
    outDecrements := b.outDecrements.bump ⟨k.edgeType, k.src⟩
    inDecrements := if direct && env.reverseIndex then b.inDecrements.bump ⟨k.edgeType, k.dst⟩
      else b.inDecrements
    deleted := b.deleted + 1
    results := b.results ++ [result]
    wrote := true }

/-- One mutation of the batch. The visible segment edges of a source are read once and cached; the
tombstones this batch writes are newer than the read epoch, so the cache is what the transaction's
first cell shows. -/
def step (env : WriteEnv) (cellId : CellId) (initial : Cell)
    (sequence commitEpoch : StorageSequence) (b : EdgeDeleteBatch) (mutation : EdgeMutation) :
    Except GraphError EdgeDeleteBatch :=
  match b.cell.idempotency.get ⟨"delete", mutation.idempotencyKey⟩ with
  | some record => do
    let result ← decodeDeleteIdempotency
      (idempotencyKeyText cellId "delete" mutation.idempotencyKey) mutation record
    return b.replay result
  | none =>
    let k := mutation.edge
    if b.cell.topology.outEdges.contains k then b.delete env cellId mutation true commitEpoch
    else
      let segmentEdges := initial.topology.outSegmentEdgesForSrc k.edgeType k.src sequence
      if !env.reverseIndex && segmentEdges.contains k.dst then
        b.delete env cellId mutation false commitEpoch
      else return b.absent mutation sequence

/-- The counters after the loop. -/
def finish (b : EdgeDeleteBatch) (env : WriteEnv) : Cell :=
  let c := b.cell.setDegreeOut (b.cell.topology.degreeOut.subAllCounts b.outDecrements)
  if env.reverseIndex then c.setDegreeIn (c.topology.degreeIn.subAllCounts b.inDecrements) else c

end EdgeDeleteBatch

/-- `delete_edge_mutations_batch_txn_locked`. -/
def deleteEdgeMutationsBatchTxn (env : WriteEnv) (cellId : CellId) (mutations : List EdgeMutation)
    (sequence : StorageSequence) (c : Cell) :
    Except GraphError (Outcome EdgeDeleteBatchResult) := do
  c.validateWriteFence cellId "delete_edge_mutations_batch"
  let commitEpoch ← nextSequence sequence "storage_sequence"
    "SlateDB storage sequence overflow during edge delete batch"
  let b ← mutations.foldlM (EdgeDeleteBatch.step env cellId c sequence commitEpoch)
    (EdgeDeleteBatch.start sequence c)
  let epochs := (b.results.filter DeleteResult.deleted).map DeleteResult.epoch
  commitTxnIf b.wrote sequence (b.finish env)
    { startEpoch := epochs.min?.getD sequence
      endEpoch := epochs.max?.getD b.nextEpoch
      deleted := b.deleted
      alreadyDeleted := b.alreadyDeleted
      results := b.results }

/-- `validate_edge_mutations_for_cell` (`codec.rs`). A repeated key is reported under the name of
the create operation, whatever the operation is. -/
def validateEdgeMutationsForCell (cellId : CellId) (operation : String)
    (mutations : List EdgeMutation) : Except GraphError Unit := do
  let _ ← mutations.foldlM (fun (seen : OrdMap String Unit) mutation => do
    mutation.validateForCell cellId operation
    if seen.contains mutation.idempotencyKey then
      .error (.idempotencyConflict "create" mutation.idempotencyKey
        "the same key appears twice in one batch")
    else .ok (seen.put mutation.idempotencyKey ())) (∅ : OrdMap String Unit)

/-- `validate_unique_delete_mutation_identities`: no edge occurs twice. -/
def validateUniqueDeleteMutationIdentities (mutations : List EdgeMutation) :
    Except GraphError Unit := do
  let _ ← mutations.foldlM (fun (seen : OrdMap EdgeKey String) mutation =>
    match seen.get mutation.edge with
    | some firstKey => .error (.idempotencyConflict "delete"
        (firstKey ++ "," ++ mutation.idempotencyKey)
        "two keys in one batch delete the same edge")
    | none => .ok (seen.put mutation.edge mutation.idempotencyKey)) (∅ : OrdMap EdgeKey String)

/-- `delete_edge_mutations_batch`. An empty batch returns at once. -/
def deleteEdgeMutationsBatch (env : WriteEnv) (cellId : CellId) (mutations : List EdgeMutation)
    (sequence : StorageSequence) (c : Cell) :
    Except GraphError (Outcome EdgeDeleteBatchResult) := do
  validateComponent "cell_id" cellId
  if mutations.isEmpty then return .unchanged ⟨sequence, sequence, 0, 0, []⟩
  else do
    ensureLimit "delete_edge_mutations_batch" mutations.length env.limits.maxBulkImportEdges
    validateEdgeMutationsForCell cellId "delete_edge_mutations_batch" mutations
    validateUniqueDeleteMutationIdentities mutations
    deleteEdgeMutationsBatchTxn env cellId mutations sequence c

end HydraDb
