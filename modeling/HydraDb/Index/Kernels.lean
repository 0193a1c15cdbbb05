import HydraDb.Index.Payload
import HydraDb.Lib.Walk

/-!
# Traversal kernels

A traversal runs on one of three kernels (`sparse_kernel`): a search over the adjacency map, a
search over the compressed matrix, and products of the matrix with vectors in SuiteSparse. Each of
the last two has two forms. `expand` leaves out what it has seen and answers what is within a number
of hops, without the starts. `expandRange` keeps every walk and answers what walks of a length in
the range lead to.

The product of SuiteSparse is a call of an outside library, so the searches that make it take it as
a parameter (`Mxv`). What the kernels answer, given what the GraphBLAS standard says of a product
(`Mxv.Standard`), is in `HydraDb.Index.KernelWalks`.
-/

namespace HydraDb

/-- `SparseKernelBackend`. -/
inductive SparseKernelBackend where
  | adjacency
  | compactCsc
  | suiteSparse
  deriving DecidableEq

/-- `SparseTraversal`. -/
structure SparseTraversal where
  vertices : List VertexId
  edgeVisits : Nat
  backend : SparseKernelBackend
  deriving DecidableEq

/-- `u64::saturating_add`. -/
def saturatingAdd (a b : Nat) : Nat := min (a + b) (2 ^ 64 - 1)

/-! ## The adjacency search -/

/-- The state of `expand_rust`. -/
structure AdjacencySearch where
  frontier : OrdMap VertexId Unit
  seen : OrdMap VertexId Unit
  edgeVisits : Nat

/-- A destination in `expand_rust`: what is new is seen and goes to the next frontier. -/
def visitNeighbor (found : OrdMap VertexId Unit × OrdMap VertexId Unit) (dst : VertexId) :
    OrdMap VertexId Unit × OrdMap VertexId Unit :=
  if found.1.contains dst then found else (found.1.put dst (), found.2.put dst ())

/-- A source in `expand_rust`. -/
def visitSource (a : MatrixAdjacency) (state : (OrdMap VertexId Unit × OrdMap VertexId Unit) × Nat)
    (src : VertexId) : (OrdMap VertexId Unit × OrdMap VertexId Unit) × Nat :=
  match a.get src with
  | none => state
  | some neighbors =>
    (neighbors.keys.foldl visitNeighbor state.1, state.2 + neighbors.keys.length)

/-- One hop of `expand_rust`. -/
def adjacencyHop (a : MatrixAdjacency) (s : AdjacencySearch) :
    Except GraphError (AdjacencySearch × Bool) :=
  let ((seen, next), edgeVisits) :=
    s.frontier.keys.foldl (visitSource a) ((s.seen, ∅), s.edgeVisits)
  .ok (⟨next, seen, edgeVisits⟩, next.keys.isEmpty)

/-- `expand_rust`. -/
def expandRust (a : MatrixAdjacency) (starts : List VertexId) (hops : UInt8) :
    Except GraphError SparseTraversal := do
  let startSet : OrdMap VertexId Unit := OrdMap.addAll ∅ starts
  let s ← Walk.rounds (fun _ => adjacencyHop a) hops.toNat 0 ⟨startSet, startSet, 0⟩
  return ⟨s.seen.keys.filter fun v => !startSet.contains v, s.edgeVisits, .adjacency⟩

/-! ## The compressed matrix -/

namespace GraphBlasCsc

/-- `validate_csc`. -/
def validate (csc : GraphBlasCsc) : Except GraphError Unit :=
  let fail (reason : String) : Except GraphError Unit :=
    .error (.sparseKernel "SuiteSparseGraphBlas" reason)
  if csc.vertices.length > graphblasIndexMax then
    fail (toString csc.vertices.length ++ " local vertices exceed GraphBLAS index limit")
  else if csc.pointers.length ≠ csc.vertices.length + 1 then
    fail ("CSC pointer count " ++ toString csc.pointers.length ++
      " does not match vertex count " ++ toString csc.vertices.length)
  else if csc.pointers.head? ≠ some 0 then fail "CSC first pointer must be zero"
  else if ¬ csc.pointers.IsChain (· ≤ ·) then fail "CSC pointers must be monotonic"
  else if csc.pointers.getLastD 0 ≠ csc.indices.length then
    fail ("CSC edge count " ++ toString (csc.pointers.getLastD 0) ++
      " does not match index count " ++ toString csc.indices.length)
  else
    match csc.indices.find? fun index => csc.vertices.length ≤ index with
    | some index =>
      fail ("CSC row index " ++ toString index ++ " exceeds dimension " ++
        toString csc.vertices.length)
    | none =>
      if ¬ csc.vertices.IsChain (· < ·) then fail "CSC vertices must be sorted and unique"
      else .ok ()

/-- `ordinal`: a binary search of the sorted dictionary. -/
def ordinal (csc : GraphBlasCsc) (vertex : VertexId) : Option Nat :=
  if vertex ∈ csc.vertices then some (csc.vertices.idxOf vertex) else none

/-- `degree`. -/
def degree (csc : GraphBlasCsc) (ordinal : Nat) : Nat :=
  csc.pointers.getD (ordinal + 1) 0 - csc.pointers.getD ordinal 0

/-- The ordinals at `neighbor_range`. -/
def neighbors (csc : GraphBlasCsc) (ordinal : Nat) : List Nat :=
  (csc.indices.drop (csc.pointers.getD ordinal 0)).take (csc.degree ordinal)

/-- `contains_edge`. -/
def containsEdge (csc : GraphBlasCsc) (src dst : VertexId) : Bool :=
  match csc.ordinal src, csc.ordinal dst with
  | some src, some dst => (csc.neighbors src).contains dst
  | _, _ => false

/-- `start_ordinals`. -/
def startOrdinals (csc : GraphBlasCsc) (starts : List VertexId) : List Nat :=
  OrdMap.sortDedup (starts.filterMap csc.ordinal)

/-- The way into each search: without hops to make, without vertices or without a start that the
dictionary has, the answer is empty. -/
def searchUnless (csc : GraphBlasCsc) (noHops : Bool) (starts : List VertexId)
    (backend : SparseKernelBackend) (ordinals : List Nat)
    (search : Except GraphError SparseTraversal) : Except GraphError SparseTraversal :=
  if noHops ∨ csc.vertices.isEmpty ∨ starts.isEmpty then .ok ⟨[], 0, backend⟩
  else if ordinals.isEmpty then .ok ⟨[], 0, backend⟩
  else search

/-! ## The search over the compressed matrix -/

/-- The vectors of a search: the frontier, the hop that last put each ordinal in a frontier, the
ordinals of the result and the edges visited. -/
structure Search where
  frontier : List Nat
  nextSeen : OrdMap Nat Nat
  result : OrdMap Nat Unit
  edgeVisits : Nat

/-- A destination in `expand` and in `expand_range_bitmap`. -/
def visit (csc : GraphBlasCsc) (hidden : Nat → Bool) (marker : Nat)
    (state : List Nat × OrdMap Nat Nat) (dst : Nat) : List Nat × OrdMap Nat Nat :=
  if csc.vertices.length ≤ dst ∨ hidden dst = true ∨ (state.2.get dst).getD 0 = marker then state
  else (state.1 ++ [dst], state.2.put dst marker)

/-- The destinations of a frontier. -/
def visitFrontier (csc : GraphBlasCsc) (hidden : Nat → Bool) (marker : Nat) (s : Search) :
    (List Nat × OrdMap Nat Nat) × Nat :=
  s.frontier.foldl (fun state src =>
    ((csc.neighbors src).foldl (csc.visit hidden marker) state.1,
      saturatingAdd state.2 (csc.degree src))) (([], s.nextSeen), s.edgeVisits)

/-- One hop of `expand`. The result is what is seen. -/
def expandHop (csc : GraphBlasCsc) (depth : Nat) (s : Search) : Except GraphError (Search × Bool) :=
  let ((next, nextSeen), edgeVisits) := csc.visitFrontier s.result.contains depth s
  if next.isEmpty then .ok (⟨s.frontier, nextSeen, s.result, edgeVisits⟩, true)
  else .ok (⟨next, nextSeen, s.result.addAll next, edgeVisits⟩, false)

/-- `expand` of `CompiledCompactCscMatrix`. -/
def expand (csc : GraphBlasCsc) (starts : List VertexId) (hops : UInt8) :
    Except GraphError SparseTraversal :=
  let ordinals := csc.startOrdinals starts
  csc.searchUnless (hops == 0) starts .compactCsc ordinals do
    let s ← Walk.rounds csc.expandHop hops.toNat 0 ⟨ordinals, ∅, OrdMap.addAll ∅ ordinals, 0⟩
    return ⟨csc.vertices.zipIdx.filterMap fun x =>
      if s.result.contains x.2 ∧ x.2 ∉ ordinals then some x.1 else none, s.edgeVisits, .compactCsc⟩

/-- One hop of `expand_range_bitmap`. -/
def expandRangeHop (csc : GraphBlasCsc) (minHops : Nat) (depth : Nat) (s : Search) :
    Except GraphError (Search × Bool) :=
  let ((next, nextSeen), edgeVisits) := csc.visitFrontier (fun _ => false) depth s
  let result := if minHops ≤ depth then s.result.addAll next else s.result
  if next.isEmpty then .ok (⟨s.frontier, nextSeen, result, edgeVisits⟩, true)
  else .ok (⟨next, nextSeen, result, edgeVisits⟩, false)

/-- `expand_range` of `CompiledCompactCscMatrix`, with `expand_range_ordinals` and
`expand_range_bitmap`. -/
def expandRange (csc : GraphBlasCsc) (starts : List VertexId) (minHops maxHops : UInt8) :
    Except GraphError SparseTraversal :=
  let ordinals := csc.startOrdinals starts
  csc.searchUnless (maxHops < minHops) starts .compactCsc ordinals do
    let s ← Walk.rounds (csc.expandRangeHop minHops.toNat) maxHops.toNat 0
      ⟨ordinals, ∅, if minHops = 0 then OrdMap.addAll ∅ ordinals else ∅, 0⟩
    return ⟨csc.vertices.zipIdx.filterMap fun x =>
      if s.result.contains x.2 then some x.1 else none, s.edgeVisits, .compactCsc⟩

/-! ## SuiteSparse -/

/-- A Boolean vector, as the set of its entries. -/
abbrev Vector := OrdMap Nat Unit

/-- `GrB_mxv` over `GrB_LOR_LAND_SEMIRING_BOOL` of the transposed matrix and a vector, with the
complement of a mask. -/
abbrev Mxv := GraphBlasCsc → Option Vector → Vector → Vector

/-- `frontier_edge_visits_graphblas`. -/
def frontierEdgeVisits (csc : GraphBlasCsc) (frontier : Vector) : Nat :=
  (frontier.keys.map csc.degree).sum

/-- `OrdinalMap::vertex`. -/
def vertex (csc : GraphBlasCsc) (ordinal : Nat) : Except GraphError VertexId :=
  match csc.vertices[ordinal]? with
  | some vertex => .ok vertex
  | none => .error (.sparseKernel "SuiteSparseGraphBlas"
      ("GraphBLAS returned invalid local ordinal " ++ toString ordinal))

/-- The vectors of a search in SuiteSparse. -/
structure VectorSearch where
  frontier : Vector
  result : Vector
  edgeVisits : Nat

section

variable (mxv : Mxv)

/-- One hop of `expand_with_compiled`. -/
def expandCompiledHop (csc : GraphBlasCsc) (s : VectorSearch) :
    Except GraphError (VectorSearch × Bool) :=
  let edgeVisits := s.edgeVisits + csc.frontierEdgeVisits s.frontier
  let next := mxv csc (some s.result) s.frontier
  if next.keys.isEmpty then .ok (⟨s.frontier, s.result, edgeVisits⟩, true)
  else .ok (⟨next, s.result.addAll next.keys, edgeVisits⟩, false)

/-- `expand_with_compiled`. -/
def expandCompiled (csc : GraphBlasCsc) (starts : List VertexId) (hops : UInt8) :
    Except GraphError SparseTraversal :=
  let ordinals := starts.filterMap csc.ordinal
  csc.searchUnless (hops == 0) starts .suiteSparse ordinals do
    let s ← Walk.rounds (fun _ => csc.expandCompiledHop mxv) hops.toNat 0
      ⟨OrdMap.addAll ∅ ordinals, OrdMap.addAll ∅ ordinals, 0⟩
    let vertices ← (s.result.keys.filter (· ∉ ordinals)).mapM csc.vertex
    return ⟨vertices.mergeSort, s.edgeVisits, .suiteSparse⟩

/-- One hop of `range_result_vector`. -/
def expandRangeCompiledHop (csc : GraphBlasCsc) (minHops : Nat) (depth : Nat) (s : VectorSearch) :
    Except GraphError (VectorSearch × Bool) :=
  let edgeVisits := saturatingAdd s.edgeVisits (csc.frontierEdgeVisits s.frontier)
  let next := mxv csc none s.frontier
  let result := if minHops ≤ depth then s.result.addAll next.keys else s.result
  if next.keys.isEmpty then .ok (⟨s.frontier, result, edgeVisits⟩, true)
  else .ok (⟨next, result, edgeVisits⟩, false)

/-- `expand_range_with_compiled`, with `range_result_vector`. -/
def expandRangeCompiled (csc : GraphBlasCsc) (starts : List VertexId) (minHops maxHops : UInt8) :
    Except GraphError SparseTraversal :=
  let ordinals := starts.filterMap csc.ordinal
  csc.searchUnless (maxHops < minHops) starts .suiteSparse ordinals do
    let s ← Walk.rounds (csc.expandRangeCompiledHop mxv minHops.toNat) maxHops.toNat 0
      ⟨OrdMap.addAll ∅ ordinals, if minHops = 0 then OrdMap.addAll ∅ ordinals else ∅, 0⟩
    let vertices ← s.result.keys.mapM csc.vertex
    return ⟨vertices.mergeSort, s.edgeVisits, .suiteSparse⟩

end

end GraphBlasCsc

end HydraDb
