import HydraDb.Store.Transaction

/-!
# Maintenance

The two maintenance operations that write a cell: the compaction of the out-segments of a source
(`compact_out_adjacency_segments_locked`, `shard/maintenance.rs`) and the garbage collection of the
changelog (`gc_topology_changelog_to`, `shard/xlog.rs`). Both read under the locks of the writer
and then commit one batch, so each is one step on its cell.
-/

namespace HydraDb

/-! ## Compaction -/

/-- `segment_compaction_idempotency_operation` (`codec.rs`). -/
def segmentCompactionIdempotencyOperation (edgeType : EdgeType) (src : VertexId) : String :=
  "segment-compact-" ++ edgeType ++ "-" ++ padded20 src.toNat

namespace Topology

/-- The destinations that survive a compaction through `through`: those of the compacted segments
that no tombstone up to `through` hides. Tombstones newer than `current` are not seen. -/
def compactedDestinations (t : Topology) (edgeType : EdgeType) (src : VertexId)
    (through current : StorageSequence) : List VertexId :=
  let tombstones := t.segmentTombstones edgeType src current
  ((t.segmentsForSrc edgeType src through).foldl (fun (live : OrdMap VertexId Unit) s =>
    live.addAll (s.2.filter fun dst =>
      segmentEdgeVisible s.1.sequence
        ((tombstones.get dst).filter fun epoch => epoch ≤ through))) ∅).keys

/-- The tombstones that a compaction through `through` removes. -/
def compactedTombstones (t : Topology) (edgeType : EdgeType) (src : VertexId)
    (through current : StorageSequence) : List EdgeKey :=
  ((t.segmentTombstones edgeType src current).entries.filter fun e => e.2 ≤ through).map
    fun e => ⟨edgeType, src, e.1⟩

/-- The batch of a compaction: the compacted segments and their tombstones go, one segment with the
surviving destinations comes, and the out-degree is written anew. -/
def compactSegments (t : Topology) (edgeType : EdgeType) (src : VertexId)
    (through current : StorageSequence) (segmentId : String) : Topology :=
  let destinations := t.compactedDestinations edgeType src through current
  let kept := t.outSegments.delAll ((t.segmentsForSrc edgeType src through).map Prod.fst)
  { t with
    outSegments := if destinations.isEmpty then kept
      else kept.put ⟨edgeType, src, through, segmentId⟩ destinations
    tombstones := t.tombstones.delAll (t.compactedTombstones edgeType src through current)
    degreeOut := t.degreeOut.put ⟨edgeType, src⟩
      (t.outNeighborsForSrc edgeType src current).entries.length }

end Topology

/-- `compact_out_adjacency_segments`. `artifactBase` is the base of the latest matrix artifact not
newer than `through` (`latest_matrix_artifact`): a compaction follows the build of an artifact at
its epoch. -/
def compactOutAdjacencySegments (cellId : CellId) (edgeType : EdgeType) (src : VertexId)
    (through : StorageSequence) (idempotencyKey : String)
    (artifactBase : Option StorageSequence) (sequence : StorageSequence) (c : Cell) :
    Except GraphError (Outcome SegmentCompactionResult) := do
  validateComponent "cell_id" cellId
  validateComponent "edge_type" edgeType
  validateComponent "idempotency_key" idempotencyKey
  let operation := segmentCompactionIdempotencyOperation edgeType src
  c.replayOr cellId operation idempotencyKey
    (decodeSegmentCompactionIdempotency · idempotencyKey through) <|
    if through > sequence then .error (.snapshotAhead cellId through sequence)
    else
      match artifactBase with
      | none => .error (.corruptValue (outSegmentSrcPrefixText cellId edgeType src)
          "cannot compact adjacency segments without a matrix artifact")
      | some base =>
        if base ≠ through then
          .error (.corruptValue (outSegmentSrcPrefixText cellId edgeType src)
            ("latest matrix artifact is at epoch " ++ toString base ++ ", expected " ++
              toString through))
        else do
          let segments := c.topology.segmentsForSrc edgeType src through
          let result : SegmentCompactionResult :=
            { compactedThroughEpoch := through
              sourceSegments := segments.length
              deletedSegmentKeys := segments.length
              deletedTombstoneKeys :=
                (c.topology.compactedTombstones edgeType src through sequence).length
              inputEdges := (segments.map fun s => s.2.length).sum
              outputEdges :=
                (c.topology.compactedDestinations edgeType src through sequence).length }
          c.validateWriteFence cellId "compact_out_adjacency_segments"
          let topology := c.topology.compactSegments edgeType src through sequence
            ("compact-" ++ idempotencyKey)
          commitTxn sequence ({ c with topology := topology }.putIdempotency operation
            idempotencyKey (.segmentCompact result idempotencyKey)) result

/-! ## Garbage collection of the changelog -/

/-- `gc_topology_changelog_to` against a published generation with base `gcThrough`. `cap` is
`XLOG_GC_MAX_DELETES`, and `repairEpoch` is the epoch read to repair an absent low-water mark. -/
def gcTopologyChangelog (cap : Nat) (cellId : CellId) (edgeType : EdgeType)
    (gcThrough repairEpoch sequence : StorageSequence) (c : Cell) :
    Except GraphError (Outcome Nat) := do
  validateComponent "cell_id" cellId
  validateComponent "edge_type" edgeType
  match c.changelog.gcTopologyChangelogTo cap repairEpoch edgeType gcThrough with
  | (none, deleted) => return .unchanged deleted
  | (some changelog, deleted) => do
    c.validateWriteFence cellId "gc_topology_changelog"
    commitTxn sequence { c with changelog := changelog } deleted

end HydraDb
