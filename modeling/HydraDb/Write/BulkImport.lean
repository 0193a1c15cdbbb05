import HydraDb.Store.Transaction

/-!
# Bulk imports

The bulk import of edges and the append of an out-segment (`bulk_import_edges_txn_locked` and
`bulk_append_out_adjacency_segment_trusted_txn_locked`, `shard/write.rs`). An import that trusts
its caller not to name existing edges makes no existence check; neither does any import into a
store nothing was ever committed to.
-/

namespace HydraDb

/-- `edges.sort_unstable(); edges.dedup()`. -/
def sortDedupEdges (edges : List (VertexId × VertexId)) : List (VertexId × VertexId) :=
  (OrdMap.sortDedup (edges.map toLex)).map ofLex

/-! ## Import -/

/-- The edges of an import that are not there yet. -/
def absentEdges (t : Topology) (edgeType : EdgeType) (edges : List (VertexId × VertexId))
    (policy : BulkImportDuplicatePolicy) (sequence : StorageSequence) :
    List (VertexId × VertexId) :=
  edges.filter fun e =>
    !(policy.checks && sequence ≠ 0 && (t.edgeEpochAt ⟨edgeType, e.1, e.2⟩ sequence).isSome)

/-- Insert one edge of an import. -/
def Cell.importEdge (c : Cell) (env : WriteEnv) (cellId : CellId) (edgeType : EdgeType)
    (epoch : StorageSequence) (e : VertexId × VertexId) : Cell :=
  (c.markTopologyChange env cellId edgeType epoch [(e.1, e.2, true)]).insertDirect
    env.reverseIndex ⟨edgeType, e.1, e.2⟩

/-- How many edges of a list leave each source, or enter each destination. -/
def degreeIncrements (edgeType : EdgeType) (ends : List VertexId) : OrdMap DegreeKey Nat :=
  ends.foldl (fun counts v => counts.bump ⟨edgeType, v⟩) ∅

/-- Add increments to counters, which are taken as zero in a store nothing was committed to. -/
def addCounters {K : Type} [LinearOrder K] (fresh : Bool) (counters increments : OrdMap K Nat) :
    OrdMap K Nat :=
  increments.entries.foldl
    (fun m e => m.put e.1 ((if fresh then 0 else m.count e.1) + e.2)) counters

/-- `bulk_import_edges_txn_locked`. -/
def bulkImportEdgesTxn (env : WriteEnv) (cellId : CellId) (edgeType : EdgeType)
    (edges : List (VertexId × VertexId)) (idempotencyKey : String) (fingerprint : UInt64)
    (policy : BulkImportDuplicatePolicy) (sequence : StorageSequence) (c : Cell) :
    Except GraphError (Outcome BulkImportResult) := do
  c.validateWriteFence cellId "bulk_import_edges"
  c.replayOr cellId "bulk-import" idempotencyKey
    (decodeBulkImportIdempotency · idempotencyKey fingerprint) <| do
    let fresh : Bool := sequence = 0
    let inserted := absentEdges c.topology edgeType edges policy sequence
    let epoch ← epochIf (!inserted.isEmpty) sequence "bulk_import"
      "SlateDB storage sequence overflow during bulk import"
    let result : BulkImportResult :=
      ⟨epoch, epoch, inserted.length, edges.length - inserted.length⟩
    let c := inserted.foldl (fun c e => c.importEdge env cellId edgeType epoch e) c
    let c := c.setDegreeOut (addCounters fresh c.topology.degreeOut
      (degreeIncrements edgeType (inserted.map Prod.fst)))
    let c := if env.reverseIndex then
        c.setDegreeIn (addCounters fresh c.topology.degreeIn
          (degreeIncrements edgeType (inserted.map Prod.snd)))
      else c
    let c := c.setVertices (c.vertices.ensureRecords (inserted.flatMap fun e => [e.1, e.2]) ∅ fresh)
    -- the edges are logged above; this marks the edge type dirty once more
    let c := if inserted.isEmpty then c
      else c.markTopologyChange env cellId edgeType epoch []
    commitTxn sequence (c.putIdempotency "bulk-import" idempotencyKey
      (.bulkImport result fingerprint idempotencyKey)) result

/-- `bulk_import_edges_with_options`. -/
def bulkImportEdgesWithOptions (env : WriteEnv) (cellId : CellId) (edgeType : EdgeType)
    (edges : List (VertexId × VertexId)) (idempotencyKey : String)
    (policy : BulkImportDuplicatePolicy) (sequence : StorageSequence) (c : Cell) :
    Except GraphError (Outcome BulkImportResult) := do
  validateComponent "cell_id" cellId
  validateComponent "edge_type" edgeType
  validateComponent "idempotency_key" idempotencyKey
  ensureLimit "bulk_import_edges" edges.length env.limits.maxBulkImportEdges
  let edges := sortDedupEdges edges
  bulkImportEdgesTxn env cellId edgeType edges idempotencyKey
    (bulkImportFingerprint cellId edgeType edges) policy sequence c

/-! ## Segments -/

/-- `bulk_append_out_adjacency_segment_trusted_txn_locked`. -/
def bulkAppendOutAdjacencySegmentTrustedTxn (env : WriteEnv) (cellId : CellId) (edgeType : EdgeType)
    (src : VertexId) (dsts : List VertexId) (idempotencyKey : String) (fingerprint : UInt64)
    (sequence : StorageSequence) (c : Cell) : Except GraphError (Outcome BulkImportResult) := do
  c.validateWriteFence cellId "bulk_append_out_adjacency_segment_trusted"
  c.replayOr cellId "segment-import" idempotencyKey
    (decodeBulkImportIdempotency · idempotencyKey fingerprint) <|
    let existing := c.topology.outNeighborsForSrc edgeType src sequence
    let inserted := dsts.filter fun dst => !existing.contains dst
    let finish (c : Cell) (epoch : StorageSequence) :
        Except GraphError (Outcome BulkImportResult) :=
      let result : BulkImportResult :=
        ⟨epoch, epoch, inserted.length, dsts.length - inserted.length⟩
      commitTxn sequence (c.putIdempotency "segment-import" idempotencyKey
        (.bulkImport result fingerprint idempotencyKey)) result
    if inserted.isEmpty then finish c sequence
    else do
      let fresh : Bool := sequence = 0
      let epoch ← nextSequence sequence "segment_import"
        "SlateDB storage sequence overflow during segment import"
      let c := c.setVertices (c.vertices.ensureRecords (src :: inserted) ∅ fresh)
      let c := c.markTopologyChange env cellId edgeType epoch
        (inserted.map fun dst => (src, dst, true))
      let c := c.appendSegment ⟨edgeType, src, epoch, idempotencyKey⟩ inserted
      let degreeKey : DegreeKey := ⟨edgeType, src⟩
      let c := c.setDegreeOut (c.topology.degreeOut.put degreeKey
        ((if fresh then 0 else c.topology.degreeOut.count degreeKey) + inserted.length))
      finish c epoch

/-- `bulk_append_out_adjacency_segment_trusted`: only the policy without a reverse index keeps
segments. -/
def bulkAppendOutAdjacencySegmentTrusted (env : WriteEnv) (cellId : CellId) (edgeType : EdgeType)
    (src : VertexId) (dsts : List VertexId) (idempotencyKey : String)
    (sequence : StorageSequence) (c : Cell) : Except GraphError (Outcome BulkImportResult) := do
  validateComponent "cell_id" cellId
  validateComponent "edge_type" edgeType
  validateComponent "idempotency_key" idempotencyKey
  if env.reverseIndex then
    .error (.unsupportedQuery "GraphWrite"
      "segment trusted append requires outbound-only index policy" .other)
  else do
    ensureLimit "bulk_append_out_adjacency_segment_trusted" dsts.length
      env.limits.maxBulkImportEdges
    let dsts := OrdMap.sortDedup dsts
    let fingerprint := bulkImportFingerprint cellId edgeType (dsts.map fun dst => (src, dst))
    bulkAppendOutAdjacencySegmentTrustedTxn env cellId edgeType src dsts idempotencyKey
      fingerprint sequence c

end HydraDb
