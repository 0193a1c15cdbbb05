import HydraDb.Write.EdgeDelete

/-!
# Vertex deletes

The batch that deletes vertices (`delete_vertex_mutations_batch_txn_locked`, `shard/write.rs`). A
request names for each vertex whether its edges go with it or whether it is a candidate that is
deleted only when no edge survives at it. The incident edges are discovered under the writer guard,
or ahead of it at a snapshot: such a preparation is used only when the changelog shows that no edge
of a requested vertex changed since (`vertex_delete_preparation_is_current`).

Discovery runs several scans at once over shared counters. The model runs them one after another,
which answers the same edges and the same refusals.
-/

namespace HydraDb

/-- `VertexDeleteBatchMode`. -/
inductive VertexDeleteBatchMode where
  | rejectConnected
  | detach
  | isolatedOnly
  | detachAndIsolated
  deriving DecidableEq

namespace VertexDeleteBatchMode

def operation : VertexDeleteBatchMode → String
  | rejectConnected => "delete_vertices_batch"
  | detach => "detach_delete_vertices_batch"
  | isolatedOnly => "delete_isolated_vertices_batch"
  | detachAndIsolated => "delete_vertices_and_isolated_candidates_batch"

def idempotencyOperation : VertexDeleteBatchMode → String
  | isolatedOnly => "isolated-vertex-delete"
  | detachAndIsolated => "source-cleanup-vertex-delete"
  | rejectConnected | detach => "vertex-delete"

/-- The modes in which a vertex that is not detached is a candidate, deleted when isolated. -/
def isolates : VertexDeleteBatchMode → Bool
  | isolatedOnly | detachAndIsolated => true
  | rejectConnected | detach => false

end VertexDeleteBatchMode

/-- One requested deletion. -/
structure VertexDeletion where
  vertex : VertexId
  idempotencyKey : String
  detach : Bool
  constraints : VertexMetadata

/-- `vertex_matches_path_node_constraints`. The property `id` is the vertex id. -/
def vertexMatchesPathNodeConstraints
    (constraintEq : VertexPropertyValue → VertexPropertyValue → Bool) (vertex : VertexId)
    (metadata constraints : VertexMetadata) : Bool :=
  (constraints.labels.keys.all fun label => metadata.labels.contains label) &&
    constraints.properties.entries.all fun e =>
      if e.1 = "id" then constraintEq (.integer vertex) e.2
      else (metadata.properties.get e.1).any fun existing => constraintEq existing e.2

/-- One end of the edge is among the vertices. -/
def EdgeKey.touches (k : EdgeKey) (vertices : OrdMap VertexId Unit) : Bool :=
  vertices.contains k.src || vertices.contains k.dst

/-! ## Discovery through the indexes -/

/-- `DELETE_PREPARATION_MAX_VERTICES`. -/
def deletePreparationMaxVertices : Nat := 4096

/-- `DELETE_PREPARATION_BYTES`. -/
def deletePreparationBytes : Nat := 8 * 1024 * 1024

/-- The text of the dirty marker of an edge type. -/
def matrixDirtyKeyText (cellId : CellId) (edgeType : EdgeType) : String :=
  "cell/" ++ cellId ++ "/meta/matrix_dirty/" ++ edgeType

/-- `VertexDeleteDiscovery`: the edges found, and the dirty markers read on the way. -/
structure VertexDeleteDiscovery where
  edges : OrdMap EdgeKey Unit
  catalog : OrdMap EdgeType StorageSequence

/-- The accumulators of a discovery. -/
structure IncidentScan where
  edges : OrdMap EdgeKey Unit
  scanned : Nat
  retainedBytes : Nat

/-- The direct edges at a vertex in the order in which a discovery scans them: for each edge type
those that leave the vertex, then those that enter it. -/
def Topology.incidentEdges (t : Topology) (edgeTypes : List EdgeType) (vertex : VertexId) :
    List EdgeKey :=
  edgeTypes.flatMap fun edgeType =>
    ((t.outEdges.scan fun k => k.edgeType = edgeType ∧ k.src = vertex).map Prod.fst) ++
      (t.inEdges.scan fun k => k.edgeType = edgeType ∧ k.dst = vertex).map fun e =>
        ⟨e.1.edgeType, e.1.src, e.1.dst⟩

namespace IncidentScan

/-- Count one key read. -/
def read (s : IncidentScan) (limits : GraphLimits) : Except GraphError IncidentScan := do
  ensureLimit "delete_vertex_scan_incident_edges" (s.scanned + 1) limits.maxQueryScanEdges
  return { s with scanned := s.scanned + 1 }

/-- Count bytes that are kept. Only a preparation, which waits for the writer, is limited. -/
def retain (s : IncidentScan) (preparing : Bool) (bytes : Nat) :
    Except GraphError IncidentScan := do
  if preparing then
    ensureLimit "prepare_vertex_delete_bytes" (s.retainedBytes + bytes) deletePreparationBytes
  return { s with retainedBytes := s.retainedBytes + bytes }

/-- One dirty marker of the catalog scan. -/
def catalogEntry (limits : GraphLimits) (preparing : Bool) (cellId : CellId) (s : IncidentScan)
    (e : EdgeType × StorageSequence) : Except GraphError IncidentScan := do
  let key := matrixDirtyKeyText cellId e.1
  let s ← s.read limits
  if e.1.isEmpty then .error (.corruptValue key "matrix dirty key has no edge type")
  else do
    validateComponent "edge_type" e.1
    s.retain preparing (key.utf8ByteSize * 2 + 8 + 128)

/-- Keep an edge. -/
def addEdge (s : IncidentScan) (limits : GraphLimits) (preparing : Bool) (k : EdgeKey) :
    Except GraphError IncidentScan := do
  let s ← if s.edges.contains k then .ok s
    else s.retain preparing (k.edgeType.utf8ByteSize + 128)
  let edges := s.edges.put k ()
  ensureLimit "delete_vertex_incident_edges" edges.entries.length limits.maxQueryIntermediateRows
  return { s with edges }

/-- The scan of the edges at one vertex. With `candidate` the vertices whose edges are removed
anyway, the vertex is a candidate: its scan skips their edges and stops at the first other one. -/
def scanVertex (limits : GraphLimits) (preparing : Bool) (candidate : Option (OrdMap VertexId Unit))
    : List EdgeKey → IncidentScan → Except GraphError IncidentScan
  | [], s => .ok s
  | k :: ks, s => do
    let s ← s.read limits
    match candidate with
    | none => do
      let s ← s.addEdge limits preparing k
      scanVertex limits preparing candidate ks s
    | some detach =>
      if k.touches detach then scanVertex limits preparing candidate ks s
      else s.addEdge limits preparing k

end IncidentScan

/-- `indexed_vertex_delete_discovery`. `isolationDetach` is given in the modes with candidates: the
vertices that are detached. -/
def indexedVertexDeleteDiscovery (limits : GraphLimits) (preparing : Bool) (cellId : CellId)
    (c : Cell) (vertices : OrdMap VertexId Unit) (isolationDetach : Option (OrdMap VertexId Unit)) :
    Except GraphError VertexDeleteDiscovery := do
  let catalog := c.changelog.matrixDirty
  let s ← catalog.entries.foldlM (IncidentScan.catalogEntry limits preparing cellId) ⟨∅, 0, 0⟩
  let s ← vertices.keys.foldlM (fun s vertex =>
    IncidentScan.scanVertex limits preparing
      (isolationDetach.filter fun detach => !detach.contains vertex)
      (c.topology.incidentEdges catalog.keys vertex) s) s
  ensureLimit "delete_vertex_incident_edges" s.edges.entries.length limits.maxQueryIntermediateRows
  return ⟨s.edges, catalog⟩

/-! ## Discovery by a full scan -/

/-- Count one key of a full scan. -/
def countScanned (limits : GraphLimits) (operation : String) (scanned : Nat) :
    Except GraphError Nat := do
  ensureLimit operation (scanned + 1) limits.maxQueryScanEdges
  return scanned + 1

/-- The edges among `ks` that touch one of the vertices, added to `edges`. -/
def addTouching (vertices : OrdMap VertexId Unit) (edges : OrdMap EdgeKey Unit)
    (ks : List EdgeKey) : OrdMap EdgeKey Unit :=
  edges.addAll (ks.filter fun k => k.touches vertices)

/-- The edges a segment shows. A segment newer than the read epoch is passed over. -/
def Topology.visibleSegmentEdges (t : Topology) (readEpoch : StorageSequence)
    (s : SegmentKey × List VertexId) : List EdgeKey :=
  if s.1.sequence > readEpoch then []
  else (s.2.map fun dst => ⟨s.1.edgeType, s.1.src, dst⟩).filter fun k =>
    segmentEdgeVisible s.1.sequence (t.tombstones.get k)

/-- `full_scan_incident_edges_for_vertices_at`: the direct edges, the edges of relationships and
the visible segment edges at the vertices. -/
def fullScanIncidentEdgesForVertices (limits : GraphLimits) (c : Cell)
    (vertices : OrdMap VertexId Unit) (readEpoch : StorageSequence) :
    Except GraphError (OrdMap EdgeKey Unit) := do
  let (edges, scanned) ← c.topology.outEdges.keys.foldlM
    (fun (acc : OrdMap EdgeKey Unit × Nat) k => do
      let scanned ← countScanned limits "delete_vertex_scan_edges" acc.2
      return (addTouching vertices acc.1 [k], scanned)) (∅, 0)
  let (edges, scanned) ← c.relationships.records.keys.foldlM
    (fun (acc : OrdMap EdgeKey Unit × Nat) k => do
      let scanned ← countScanned limits "delete_vertex_scan_relationships" acc.2
      return (addTouching vertices acc.1 [k.edge], scanned)) (edges, scanned)
  let (edges, _) ← c.topology.outSegments.entries.foldlM
    (fun (acc : OrdMap EdgeKey Unit × Nat) s => do
      let scanned ← countScanned limits "delete_vertex_scan_segments" acc.2
      return (addTouching vertices acc.1 (c.topology.visibleSegmentEdges readEpoch s), scanned))
    (edges, scanned)
  ensureLimit "delete_vertex_incident_edges" edges.entries.length limits.maxQueryIntermediateRows
  return edges

/-! ## Preparation -/

/-- `PreparedVertexDelete`. -/
structure PreparedVertexDelete where
  vertices : OrdMap VertexId Unit
  epoch : StorageSequence
  discovery : VertexDeleteDiscovery

/-- The vertices of a list of deletions. -/
def deletionVertices (deletions : List VertexDeletion) : OrdMap VertexId Unit :=
  OrdMap.addAll ∅ (deletions.map VertexDeletion.vertex)

/-- The detached vertices of a list of deletions. -/
def detachVertices (deletions : List VertexDeletion) : OrdMap VertexId Unit :=
  deletionVertices (deletions.filter VertexDeletion.detach)

/-- The detached vertices, in the modes that have candidates. -/
def isolationDetachSet (mode : VertexDeleteBatchMode) (deletions : List VertexDeletion) :
    Option (OrdMap VertexId Unit) :=
  if mode.isolates then some (detachVertices deletions) else none

/-- The deletions that have no recorded result. -/
def pendingDeletions (c : Cell) (mode : VertexDeleteBatchMode) (deletions : List VertexDeletion) :
    List VertexDeletion :=
  deletions.filter fun d => !c.idempotency.contains ⟨mode.idempotencyOperation, d.idempotencyKey⟩

/-- `prepare_vertex_delete`: discovery at a snapshot, ahead of the writer guard. A discovery that
would keep too much is left to the guarded transaction. -/
def prepareVertexDelete (env : WriteEnv) (cellId : CellId) (deletions : List VertexDeletion)
    (mode : VertexDeleteBatchMode) (sequence : StorageSequence) (c : Cell) :
    Except GraphError (Option PreparedVertexDelete) :=
  if !env.reverseIndex || deletions.length > deletePreparationMaxVertices then return none
  else
    let pending := pendingDeletions c mode deletions
    let vertices := deletionVertices pending
    if vertices.entries.isEmpty then return none
    else
      match indexedVertexDeleteDiscovery env.limits true cellId c vertices
          (isolationDetachSet mode pending) with
      | .ok discovery => return some ⟨vertices, sequence, discovery⟩
      | .error (.admissionRejected operation actual limit) =>
        if operation = "prepare_vertex_delete_bytes" then return none
        else .error (.admissionRejected operation actual limit)
      | .error e => .error e

/-- The edge types whose dirty marker changed, or `none` when the types themselves did. -/
def changedTypes (catalog current : OrdMap EdgeType StorageSequence) : Option (List EdgeType) :=
  if catalog.keys = current.keys then
    some ((current.entries.filter fun e => catalog.get e.1 ≠ some e.2).map Prod.fst)
  else none

/-- Read the changes of one edge type since the preparation; `none` when one of them is at a
requested vertex, when the changelog does not reach back far enough or when the budget of changes
is used up. Returns the number of changes read so far. -/
def unchangedSince (l : Changelog) (vertices : OrdMap VertexId Unit)
    (epoch sequence : StorageSequence) (scanLimit scanned : Nat) (edgeType : EdgeType) :
    Option Nat :=
  match l.lowWater.get edgeType with
  | none => none
  | some lowWater =>
    if lowWater > saturatingSucc epoch then none
    else
      (l.changesIn edgeType (saturatingSucc epoch) (saturatingSucc sequence)).foldlM
        (fun scanned change =>
          if scanned + 1 > scanLimit then none
          else if vertices.contains change.1 || vertices.contains change.2.1 then none
          else some (scanned + 1)) scanned

/-- `vertex_delete_preparation_is_current`. -/
def vertexDeletePreparationIsCurrent (limits : GraphLimits) (sequence : StorageSequence)
    (l : Changelog) (prepared : PreparedVertexDelete) : Bool :=
  if sequence = prepared.epoch then true
  else
    match changedTypes prepared.discovery.catalog l.matrixDirty with
    | none => false
    | some edgeTypes =>
      (edgeTypes.foldlM (unchangedSince l prepared.vertices prepared.epoch sequence
        (min limits.maxQueryScanEdges 4096)) 0).isSome

/-! ## The transaction -/

/-- A deletion that waits to be made, with the vertex record. -/
structure PendingVertexDelete where
  deletion : VertexDeletion
  previous : Option VertexMetadata

/-- Each deletion with its recorded result, or as one to be made. -/
def splitReplays (cellId : CellId) (c : Cell) (mode : VertexDeleteBatchMode)
    (deletions : List VertexDeletion) :
    Except GraphError (List (VertexDeleteResult ⊕ PendingVertexDelete)) :=
  deletions.mapM fun d =>
    match c.idempotency.get ⟨mode.idempotencyOperation, d.idempotencyKey⟩ with
    | some record => do
      let result ← decodeVertexDeleteIdempotency
        (idempotencyKeyText cellId mode.idempotencyOperation d.idempotencyKey) cellId d.vertex
        d.idempotencyKey record
      return .inl result
    | none => return .inr ⟨d, c.vertices.records.get d.vertex⟩

/-- The results in the order of the request. -/
def assembleResults :
    List (VertexDeleteResult ⊕ PendingVertexDelete) → List VertexDeleteResult →
      List VertexDeleteResult
  | [], _ => []
  | .inl result :: rest, made => result :: assembleResults rest made
  | .inr _ :: rest, result :: made => result :: assembleResults rest made
  | .inr _ :: _, [] => []

/-- The incident edges a transaction works on: those of a preparation that is still current, or
those it discovers itself. -/
def vertexDeleteIncidentEdges (env : WriteEnv) (cellId : CellId) (mode : VertexDeleteBatchMode)
    (pending : List VertexDeletion) (prepared : Option PreparedVertexDelete)
    (sequence : StorageSequence) (c : Cell) : Except GraphError (OrdMap EdgeKey Unit) :=
  let vertices := deletionVertices pending
  match prepared with
  | some prepared =>
    if vertices = prepared.vertices ∧
        vertexDeletePreparationIsCurrent env.limits sequence c.changelog prepared then
      .ok prepared.discovery.edges
    else .error (.conditionalWriteConflict "validate_vertex_delete_preparation" cellId)
  | none =>
    if env.reverseIndex then do
      let discovery ← indexedVertexDeleteDiscovery env.limits false cellId c vertices
        (isolationDetachSet mode pending)
      return discovery.edges
    else fullScanIncidentEdgesForVertices env.limits c vertices sequence

/-- The requested vertices with an edge that no detached vertex takes away. -/
def connectedVertices (vertices detach : OrdMap VertexId Unit) (edges : OrdMap EdgeKey Unit) :
    OrdMap VertexId Unit :=
  OrdMap.addAll ∅ (((edges.keys.filter fun k => !k.touches detach).flatMap fun k =>
    [k.src, k.dst]).filter fun vertex => vertices.contains vertex)

/-- Whether a vertex matches the constraints of its request; an absent one counts as empty. -/
def PendingVertexDelete.matchesPattern (p : PendingVertexDelete) (env : WriteEnv) : Bool :=
  vertexMatchesPathNodeConstraints env.constraintEq p.deletion.vertex (p.previous.getD default)
    p.deletion.constraints

/-- The refusals of a batch: a connected vertex where nothing may be detached, and a connected
candidate that does not match its constraints. -/
def checkConnected (env : WriteEnv) (mode : VertexDeleteBatchMode)
    (pending : List PendingVertexDelete) (edges : OrdMap EdgeKey Unit)
    (connected : OrdMap VertexId Unit) : Except GraphError Unit :=
  if mode = .rejectConnected ∧ ¬ edges.entries.isEmpty then
    .error (.unsupportedQuery "Graph" ("DELETE vertex batch requires DETACH because it has " ++
      toString edges.entries.length ++ " incident edge(s)") .mutation)
  else
    let mismatches := (pending.filter fun p =>
      !p.deletion.detach && connected.contains p.deletion.vertex && !p.matchesPattern env).length
    if mode.isolates ∧ mismatches > 0 then
      .error (.unsupportedQuery "Graph" ("DELETE vertex batch requires DETACH because " ++
        toString mismatches ++ " predicate-mismatched vertex/vertices have incident edges")
        .mutation)
    else .ok ()

/-- The accumulators of the loop over the incident edges. The counts are by the position of the
deletion an edge is attributed to. -/
structure VertexDeleteBatch where
  cell : Cell
  edgeCounts : OrdMap Nat Nat
  relationshipCounts : OrdMap Nat Nat
  outDecrements : OrdMap DegreeKey Nat
  inDecrements : OrdMap DegreeKey Nat
  relationshipReads : Nat

namespace VertexDeleteBatch

def start (c : Cell) : VertexDeleteBatch := ⟨c, ∅, ∅, ∅, ∅, 0⟩

/-- The deletion an edge is attributed to: the first one that detaches one of its ends. -/
def owner (pending : List PendingVertexDelete) (detach : OrdMap VertexId Unit) (k : EdgeKey) :
    Option Nat :=
  (([k.src, k.dst].filter fun vertex => detach.contains vertex).filterMap fun vertex =>
    pending.findIdx? fun p => p.deletion.vertex = vertex).min?

/-- Delete the relationships of an edge and the edge itself, in the form in which it is stored.
`direct` and `segment` say whether there is an edge; if not, only relationships can remain. -/
def deleteEdge (env : WriteEnv) (cellId : CellId) (commitEpoch : StorageSequence)
    (b : VertexDeleteBatch) (k : EdgeKey) (direct segment : Bool) :
    Except GraphError VertexDeleteBatch :=
  if direct || segment then do
    let c ← b.cell.unlinkEdge env cellId k commitEpoch
    return { b with
      cell := if direct then c.removeDirect env.reverseIndex k else c.putTombstone k commitEpoch
      outDecrements := b.outDecrements.bump ⟨k.edgeType, k.src⟩
      inDecrements :=
        if direct && env.reverseIndex then b.inDecrements.bump ⟨k.edgeType, k.dst⟩
        else b.inDecrements }
  else return { b with
    cell := b.cell.setRelationships (b.cell.relationships.deleteForEdge k).1 }

/-- One incident edge. The visible segment edges of a source are read once and cached, so they are
what the transaction's first cell shows. -/
def step (env : WriteEnv) (cellId : CellId) (initial : Cell) (pending : List PendingVertexDelete)
    (detach : OrdMap VertexId Unit) (sequence commitEpoch : StorageSequence)
    (b : VertexDeleteBatch) (k : EdgeKey) : Except GraphError VertexDeleteBatch := do
  let relationships := (b.cell.relationships.liveForEdge k).length
  let limit := env.limits.maxQueryIntermediateRows
  -- the records are counted one by one, so the first past the limit is the one reported
  ensureLimit "delete_vertex_relationship_records"
    (min (b.relationshipReads + relationships) (limit + 1)) limit
  match owner pending detach k with
  | none => .error (.corruptValue
      ("edge/" ++ k.edgeType ++ "/" ++ toString k.src ++ "/" ++ toString k.dst)
      "incident edge is not owned by a requested vertex")
  | some owner => do
    let direct := b.cell.topology.outEdges.contains k
    let segment := !env.reverseIndex &&
      (initial.topology.outSegmentEdgesForSrc k.edgeType k.src sequence).contains k.dst
    let b ← b.deleteEdge env cellId commitEpoch k direct segment
    return { b with
      edgeCounts := b.edgeCounts.bump owner
      relationshipCounts :=
        b.relationshipCounts.put owner (b.relationshipCounts.count owner + relationships)
      relationshipReads := b.relationshipReads + relationships }

/-- The counters after the loop. -/
def counters (b : VertexDeleteBatch) : Cell :=
  let c := b.cell.setDegreeOut (b.cell.topology.degreeOut.subAllCounts b.outDecrements)
  c.setDegreeIn (c.topology.degreeIn.subAllCounts b.inDecrements)

/-- Whether a deletion deletes its vertex: an absent vertex is not deleted, nor is a candidate that
does not match or that keeps an edge. -/
def deletesVertex (env : WriteEnv) (mode : VertexDeleteBatchMode)
    (connected : OrdMap VertexId Unit) (p : PendingVertexDelete) : Bool :=
  let pattern := p.matchesPattern env
  let kept := !p.deletion.detach && mode.isolates && pattern && connected.contains p.deletion.vertex
  p.previous.isSome && (p.deletion.detach || !mode.isolates || pattern) && !kept

/-- The deletion at a position: delete the vertex record and record the result. -/
def settle (env : WriteEnv) (cellId : CellId) (mode : VertexDeleteBatchMode)
    (sequence commitEpoch : StorageSequence) (connected : OrdMap VertexId Unit)
    (b : VertexDeleteBatch) (acc : Cell × List VertexDeleteResult)
    (p : PendingVertexDelete × Nat) : Cell × List VertexDeleteResult :=
  let (p, index) := p
  let deleted := deletesVertex env mode connected p
  let c := if deleted then
      acc.1.setVertices (acc.1.vertices.deleteRecord p.deletion.vertex (p.previous.getD default))
    else acc.1
  let changed := deleted || b.edgeCounts.count index > 0 || b.relationshipCounts.count index > 0
  let result : VertexDeleteResult :=
    { epoch := if changed then commitEpoch else sequence
      vertexDeleted := deleted
      incidentEdgesDeleted := b.edgeCounts.count index
      relationshipsDeleted := b.relationshipCounts.count index }
  (c.putIdempotency mode.idempotencyOperation p.deletion.idempotencyKey
    (.vertexDelete result cellId p.deletion.vertex), acc.2 ++ [result])

end VertexDeleteBatch

/-- `delete_vertex_mutations_batch_txn_locked`. -/
def deleteVertexMutationsBatchTxn (env : WriteEnv) (cellId : CellId)
    (deletions : List VertexDeletion) (mode : VertexDeleteBatchMode)
    (prepared : Option PreparedVertexDelete) (sequence : StorageSequence) (c : Cell) :
    Except GraphError (Outcome (List VertexDeleteResult)) := do
  c.validateWriteFence cellId mode.operation
  let commitEpoch ← nextSequence sequence "storage_sequence"
    "epoch overflow during vertex delete batch"
  let entries ← splitReplays cellId c mode deletions
  let pending := entries.filterMap Sum.getRight?
  if pending.isEmpty then return .unchanged (assembleResults entries [])
  else do
    let requested := pending.map PendingVertexDelete.deletion
    let detach := detachVertices requested
    let edges ← vertexDeleteIncidentEdges env cellId mode requested prepared sequence c
    let connected := connectedVertices (deletionVertices requested) detach edges
    checkConnected env mode pending edges connected
    let b ← (edges.keys.filter fun k => k.touches detach).foldlM
      (VertexDeleteBatch.step env cellId c pending detach sequence commitEpoch)
      (VertexDeleteBatch.start c)
    let (c, results) := pending.zipIdx.foldl
      (VertexDeleteBatch.settle env cellId mode sequence commitEpoch connected b) (b.counters, [])
    commitTxn sequence c (assembleResults entries results)

/-! ## Requests -/

/-- The first deletion of each vertex. -/
def retainFirst : OrdMap VertexId Unit → List VertexDeletion → List VertexDeletion
  | _, [] => []
  | seen, d :: ds =>
    if seen.contains d.vertex then retainFirst seen ds
    else d :: retainFirst (seen.put d.vertex ()) ds

/-- `delete_vertex_mutation_requests_batch_with_mode`, one attempt of it. An empty request returns
at once. -/
def deleteVertexMutationRequestsBatchWithMode (env : WriteEnv) (cellId : CellId)
    (deletions : List VertexDeletion) (mode : VertexDeleteBatchMode)
    (prepared : Option PreparedVertexDelete) (sequence : StorageSequence) (c : Cell) :
    Except GraphError (Outcome (List VertexDeleteResult)) := do
  validateComponent "cell_id" cellId
  let deletions := retainFirst ∅ deletions
  deletions.forM fun d => validateComponent "idempotency_key" d.idempotencyKey
  ensureLimit mode.operation deletions.length env.limits.maxQueryIntermediateRows
  if deletions.isEmpty then return .unchanged []
  else deleteVertexMutationsBatchTxn env cellId deletions mode prepared sequence c

/-- The request of `delete_vertex_mutations_batch`, and with one vertex that of `delete_vertex` and
`detach_delete_vertex`. -/
def vertexDeletions (deletions : List (VertexId × String)) (detach : Bool) :
    List VertexDeletion × VertexDeleteBatchMode :=
  (deletions.map fun d => ⟨d.1, d.2, detach, default⟩,
    if detach then .detach else .rejectConnected)

/-- The request of `delete_isolated_vertex_mutations_batch`. -/
def isolatedVertexDeletions (deletions : List (VertexId × String × VertexMetadata)) :
    List VertexDeletion × VertexDeleteBatchMode :=
  (deletions.map fun d => ⟨d.1, d.2.1, false, d.2.2⟩, .isolatedOnly)

/-- The request of `delete_vertices_and_isolated_candidates_batch`. -/
def vertexAndCandidateDeletions (deletions : List VertexDeletion) :
    List VertexDeletion × VertexDeleteBatchMode :=
  (deletions, .detachAndIsolated)

end HydraDb
