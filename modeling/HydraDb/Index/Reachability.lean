import HydraDb.Index.Snapshot
import Mathlib.Data.Fintype.Card

/-!
# Reachability requests

`matrix_reachable_with_kernel` (`engine/traversal.rs`) answers which vertices are within a number of
hops of the starts, and not starts themselves. Which search serves a request depends on the kernel
that is asked for, on whether there is an index, and on whether its matrix can be brought to the
snapshot. All of them answer the same, except one: the search from storage, taken for a single start
when the matrix cannot be used, does not leave out its start.
-/

namespace HydraDb

open GraphBlasCsc (Mxv)
open Publication (Target)

/-! ## Searches of an adjacency -/

/-- `OrdinalMap::from_vertices`. -/
def checkOrdinals (vertices : List VertexId) : Except GraphError Unit :=
  if vertices.length > graphblasIndexMax then
    .error (.sparseKernel "SuiteSparseGraphBlas"
      (toString vertices.length ++ " local vertices exceed GraphBLAS index limit"))
  else if ¬ vertices.IsChain (· < ·) then
    .error (.sparseKernel "SuiteSparseGraphBlas" "ordinal vertices must be sorted and unique")
  else .ok ()

/-- `expand` of `sparse_kernel`. -/
def expandSparse (mxv : Mxv) (a : MatrixAdjacency) (starts : List VertexId) (hops : UInt8) :
    SparseKernelBackend → Except GraphError SparseTraversal
  | .adjacency => expandRust a starts hops
  | .compactCsc => do
    let csc ← graphblasCscFromAdjacency a
    let compiled ← CompiledGraphBlasMatrix.newFromCsc csc .compactCsc
    compiled.expand mxv starts hops
  | .suiteSparse => do
    let csc ← graphblasCscFromAdjacency a
    checkOrdinals csc.vertices
    csc.expandCompiled mxv starts hops

namespace GraphBlasCsc.Represents

variable {csc : GraphBlasCsc} {a : MatrixAdjacency}

/-- The row of a vertex of the dictionary. -/
theorem neighbors_idxOf (h : csc.Represents a) (hu : u ∈ csc.vertices) :
    csc.neighbors (csc.vertices.idxOf u) =
      ((a.get u).map fun ds => ds.keys.map csc.vertices.idxOf).getD [] := by
  have hlt := List.idxOf_lt_length_of_mem hu
  rw [neighbors, degree, h.getD_pointers hlt.le, h.getD_pointers hlt, h.indices,
    Csr.slice_eq h.dictionary.pairwise_rowsOf, h.row_eq]

theorem wellFormed (h : csc.Represents a) : csc.WellFormed :=
  ⟨h.formed.sorted, h.formed.index_lt⟩

/-- The edges of the matrix of an adjacency. -/
theorem edge_iff (h : csc.Represents a) : csc.Edge u v ↔ a.HasEdge u v := by
  constructor
  · intro hedge
    rw [Edge, containsEdge] at hedge
    split at hedge
    · next i j hi hj =>
      obtain ⟨hu, rfl⟩ : u ∈ csc.vertices ∧ csc.vertices.idxOf u = i := by
        rw [ordinal] at hi
        obtain ⟨hu, hi⟩ := then_of_ne hi (by simp)
        exact ⟨hu, Option.some.inj hi⟩
      obtain ⟨hv, rfl⟩ : v ∈ csc.vertices ∧ csc.vertices.idxOf v = j := by
        rw [ordinal] at hj
        obtain ⟨hv, hj⟩ := then_of_ne hj (by simp)
        exact ⟨hv, Option.some.inj hj⟩
      rw [List.contains_iff_mem, h.neighbors_idxOf hu] at hedge
      cases hget : a.get u with
      | none =>
        rw [hget] at hedge
        cases hedge
      | some ds =>
        rw [hget] at hedge
        obtain ⟨w, hw, hidx⟩ := List.mem_map.1 hedge
        have hmem := h.dictionary.destinations (u, ds) (OrdMap.mem_entries.2 hget) w hw
        obtain rfl := (List.idxOf_inj hmem).1 hidx
        exact ⟨ds, hget, OrdMap.mem_keys_iff_contains.1 hw⟩
    · cases hedge
  · rintro ⟨ds, hget, hv⟩
    have hentry := OrdMap.mem_entries.2 hget
    have hu : u ∈ csc.vertices := h.dictionary.sources (u, ds) hentry
    have hkey := OrdMap.mem_keys_iff_contains.2 hv
    have hv' : v ∈ csc.vertices := h.dictionary.destinations (u, ds) hentry v hkey
    rw [Edge, containsEdge, ordinal, if_pos hu, ordinal, if_pos hv']
    refine List.contains_iff_mem.2 ?_
    rw [h.neighbors_idxOf hu, hget]
    exact List.mem_map_of_mem hkey

end GraphBlasCsc.Represents

/-- Every kernel answers what is within the hops of the starts, without the starts. -/
theorem expandSparse_lists {mxv : Mxv} (standard : mxv.Standard)
    (h : expandSparse mxv a starts hops backend = .ok r) :
    Lists r.vertices (Walk.between a.HasEdge (startSet starts) 1 hops.toNat \ startSet starts) := by
  have hedges : ∀ {csc : GraphBlasCsc}, csc.Represents a → csc.Edge = a.HasEdge := fun h =>
    funext fun u => funext fun v => propext h.edge_iff
  cases backend with
  | adjacency => exact expandRust_lists h
  | compactCsc =>
    obtain ⟨csc, hcsc, h⟩ := bind_ok h
    obtain ⟨compiled, hcompiled, h⟩ := bind_ok h
    have hsame : compiled.csc = csc := by
      unfold CompiledGraphBlasMatrix.newFromCsc at hcompiled
      split at hcompiled
      · cases hcompiled
      · cases hcompiled
        rfl
    have hlists := compiled.expand_lists standard h
    rwa [hsame, hedges (GraphBlasCsc.graphblasCscFromAdjacency_ok hcsc)] at hlists
  | suiteSparse =>
    obtain ⟨csc, hcsc, h⟩ := bind_ok h
    replace h := seq_ok h
    have represents := GraphBlasCsc.graphblasCscFromAdjacency_ok hcsc
    have hlists := GraphBlasCsc.expandCompiled_lists standard represents.wellFormed h
    rwa [hedges represents] at hlists

/-! ## Requests -/

/-- `TraversalBackend`. -/
inductive TraversalBackend where
  | directSnapshot
  | matrixSnapshot
  deriving DecidableEq

/-- `MatrixTraversalResult`. -/
structure MatrixTraversalResult where
  backend : TraversalBackend
  vertices : List VertexId
  hops : UInt8
  baseEpoch : StorageSequence
  edgeVisits : Nat
  sparseKernel : SparseKernelBackend
  deriving DecidableEq

section

variable (mxv : Mxv) (env : SnapshotEnv) (t : Target) (starts : List VertexId) (hops : UInt8)
  (readEpoch : StorageSequence) (kernel : SparseKernelBackend)

/-- The search of the canonical adjacency. -/
def canonicalReachable : Except GraphError SparseTraversal := do
  let a ← canonicalAdjacencyAt env.limits.toGraphLimits env.cell.topology t.edgeType readEpoch
  expandSparse mxv a starts hops kernel

/-- The search when the matrix cannot be brought to the snapshot. -/
def fallbackReachable : Except GraphError SparseTraversal :=
  match starts with
  | [start] =>
    reachableFromStorageFrontier env.limits env.cell.topology t.edgeType start 1 hops readEpoch
  | starts => canonicalReachable mxv env t starts hops readEpoch kernel

/-- The search of a compiled snapshot, with the overlay if there is one. -/
def expandSnapshot (snapshot : CompiledSnapshot) : Except GraphError SparseTraversal :=
  match snapshot.2 with
  | some overlay => expandRangeWithOverlay mxv snapshot.1 overlay starts 1 hops
  | none => snapshot.1.expand mxv starts hops

/-- The search of a compiled snapshot, without the starts. -/
def compiledReachable (snapshot : CompiledSnapshot) : Except GraphError SparseTraversal := do
  let traversal ← expandSnapshot mxv starts hops snapshot
  return { traversal with vertices := traversal.vertices.filter (· ∉ starts) }

/-- The search that serves a request, and the name it goes by in the answer. -/
def serveReachable (artifact : Option (StorageSequence × Nat)) :
    IndexRequest (TraversalBackend × SparseTraversal) := do
  match artifact.filter fun _ => kernel ≠ .adjacency with
  | none =>
    return (.matrixSnapshot,
      ← .ofExcept (canonicalReachable mxv env t starts hops readEpoch kernel))
  | some artifact =>
    match ← compiledGraphblasQuerySnapshot env t readEpoch artifact.1 with
    | none =>
      return (.directSnapshot,
        ← .ofExcept (fallbackReachable mxv env t starts hops readEpoch kernel))
    | some snapshot =>
      return (.matrixSnapshot, ← .ofExcept (compiledReachable mxv starts hops snapshot))

/-- The checks on a request. -/
def validateReachable : Except GraphError Unit := do
  validateComponent "cell_id" t.cellId
  validateComponent "edge_type" t.edgeType
  ensureLimit "matrix_reachable" hops.toNat env.limits.maxTraversalHops

/-- `matrix_reachable_with_kernel`. A policy of no compilation is a ceiling for the request. -/
def matrixReachableWithKernel (sparseKernel : SparseKernelBackend) :
    IndexRequest MatrixTraversalResult := do
  .ofExcept (validateReachable env t hops)
  let kernel := if env.policyKernel = .adjacency then .adjacency else sparseKernel
  let artifact ← latestMatrixArtifact t readEpoch
  let (backend, traversal) ← serveReachable mxv env t starts hops readEpoch kernel artifact
  return ⟨backend, traversal.vertices, hops, (artifact.map Prod.fst).getD 0, traversal.edgeVisits,
    traversal.backend⟩

end

/-- What a reachability request asks for. -/
def reachableSet (t : Topology) (edgeType : EdgeType) (starts : List VertexId) (hops : UInt8) :
    Set VertexId :=
  {v | v ∉ starts ∧ ∃ s ∈ starts, ∃ k, 1 ≤ k ∧ k ≤ hops.toNat ∧
    Walk.Path (VisibleEdge t edgeType) k s v}

section

variable {mxv : Mxv} {env : SnapshotEnv} {t : Target} {starts : List VertexId} {hops : UInt8}
  {e : StorageSequence} {kernel : SparseKernelBackend} {r : SparseTraversal}

theorem reachableSet_eq {t : Topology} : reachableSet t edgeType starts hops =
    Walk.between (VisibleEdge t edgeType) (startSet starts) 1 hops.toNat \ startSet starts := by
  ext v
  constructor
  · rintro ⟨hv, s, hs, k, hk, hn, hpath⟩
    exact ⟨⟨k, hk, hn, Walk.mem_layer.2 ⟨s, hs, hpath⟩⟩, hv⟩
  · rintro ⟨⟨k, hk, hn, hv⟩, hnot⟩
    obtain ⟨s, hs, hpath⟩ := Walk.mem_layer.1 hv
    exact ⟨hnot, s, hs, k, hk, hn, hpath⟩

/-- With the overlay, a walk may come back to a start or revisit its frontier; neither matters once
the starts are left out. -/
theorem compiledReachable_lists {t : Topology} {snapshot : CompiledSnapshot}
    (standard : mxv.Standard) (shows : snapshot.Shows t edgeType)
    (h : compiledReachable mxv starts hops snapshot = .ok r) :
    Lists r.vertices (reachableSet t edgeType starts hops) := by
  obtain ⟨traversal, htraversal, h⟩ := bind_ok h
  cases h
  have hfilter : ∀ {S : Set VertexId}, Lists traversal.vertices S →
      Lists (traversal.vertices.filter (· ∉ starts)) (S \ startSet starts) := by
    intro S hS
    refine ⟨hS.1.filter _, fun v => ?_⟩
    rw [List.mem_filter, hS.2, decide_eq_true_eq]
    rfl
  rw [reachableSet_eq]
  obtain ⟨m, _ | overlay⟩ := snapshot
  · have hlists := hfilter (m.expand_lists standard htraversal)
    have hedges : m.csc.Edge = VisibleEdge t edgeType := funext fun u => funext fun v =>
      propext (shows u v)
    rwa [sdiff_idem, hedges] at hlists
  · have hlists := hfilter (expandRangeWithOverlay_lists standard (by decide) htraversal)
    have hedges : Patched m overlay = VisibleEdge t edgeType :=
      funext fun u => funext fun v => propext (shows u v)
    have hdiff := Walk.window_maskedLayer_diff (R := Patched m overlay) (A := Added overlay)
      (S := startSet starts) (n := hops.toNat)
    rw [← hedges, ← hdiff]
    exact hlists

variable (standard : mxv.Standard) (bounded : env.cell.topology.Bounded e)

include standard bounded

theorem canonicalReachable_lists (h : canonicalReachable mxv env t starts hops e kernel = .ok r) :
    Lists r.vertices (reachableSet env.cell.topology t.edgeType starts hops) := by
  obtain ⟨a, ha, h⟩ := bind_ok h
  have hlists := expandSparse_lists standard h
  have hedges : a.HasEdge = VisibleEdge env.cell.topology t.edgeType := funext fun u =>
    funext fun v => propext ((canonicalAdjacencyAt_ok bounded ha).2 u v)
  rwa [hedges, ← reachableSet_eq] at hlists

variable (hreturn : ¬ ∃ s, starts = [s] ∧ ∃ k, 1 ≤ k ∧ k ≤ hops.toNat ∧
  Walk.Path (VisibleEdge env.cell.topology t.edgeType) k s s)

include hreturn

/-- The search of a fallback keeps a single start if a walk comes back to it. -/
theorem fallbackReachable_lists (h : fallbackReachable mxv env t starts hops e kernel = .ok r) :
    Lists r.vertices (reachableSet env.cell.topology t.edgeType starts hops) := by
  unfold fallbackReachable at h
  split at h
  · next s =>
    have hstart : Walk.between (VisibleEdge env.cell.topology t.edgeType) (startSet [s]) 1
        hops.toNat \ startSet [s] =
          Walk.between (VisibleEdge env.cell.topology t.edgeType) (startSet [s]) 1 hops.toNat := by
      refine Set.Subset.antisymm Set.sdiff_subset fun v hv => ⟨hv, fun hs => ?_⟩
      obtain rfl := List.mem_singleton.1 hs
      obtain ⟨k, hk, hn, hv⟩ := hv
      exact hreturn ⟨v, rfl, k, hk, hn, Walk.mem_layer_singleton.1 hv⟩
    rw [reachableSet_eq, hstart]
    exact reachableFromStorageFrontier_lists bounded (by decide) h
  · exact canonicalReachable_lists standard bounded h

open Request in
/-- Whichever search serves a request, it answers what the request asks for, unless a walk comes
back to the only start. -/
theorem keeps_matrixReachableWithKernel {I : IndexView → Prop}
    (artifact : Keeps I (latestMatrixArtifact t e) fun _ => True)
    (compiled : ∀ base, Keeps I (compiledGraphblasQuerySnapshot env t e base) fun o =>
      ∀ snapshot, o = some snapshot → snapshot.Shows env.cell.topology t.edgeType) :
    Keeps I (matrixReachableWithKernel mxv env t starts hops e kernel) fun r =>
      Lists r.vertices (reachableSet env.cell.topology t.edgeType starts hops) := by
  -- what a search finds is the answer
  have answer {backend : TraversalBackend} {search : Except GraphError SparseTraversal}
      (h : ∀ r, search = .ok r →
        Lists r.vertices (reachableSet env.cell.topology t.edgeType starts hops)) :
      Keeps I (do return (backend, ← .ofExcept search)) fun r =>
        Lists r.2.vertices (reachableSet env.cell.topology t.edgeType starts hops) :=
    keeps_bind (keeps_ofExcept h) fun _ hlists => keeps_pure hlists
  refine keeps_bind (keeps_ofExcept fun _ _ => trivial) fun _ _ =>
    keeps_bind artifact fun artifact _ => keeps_bind ?_ fun _ hlists => keeps_pure hlists
  unfold serveReachable
  split
  · exact answer fun _ => canonicalReachable_lists standard bounded
  · refine keeps_bind (compiled _) fun o hshows => ?_
    cases o with
    | none => exact answer fun _ => fallbackReachable_lists standard bounded hreturn
    | some snapshot => exact answer fun _ => compiledReachable_lists standard (hshows snapshot rfl)

end

/-! ## Limits that are out of reach -/

theorem length_keys_le (m : OrdMap VertexId V) : m.keys.length ≤ 2 ^ 64 := by
  have hnodup : (m.keys.map UInt64.toFin).Nodup :=
    OrdMap.nodup_keys.map fun u v h => UInt64.toFin_inj.1 h
  have hle := List.Nodup.length_le_card hnodup
  rwa [List.length_map, Fintype.card_fin] at hle

theorem ensureLimit_ok (h : actual ≤ limit) :
    ensureLimit operation actual limit = .ok () := if_neg (Nat.not_lt.2 h)

/-- A search from storage does not fail under limits that cannot be reached. -/
theorem reachableFromStorageFrontier_isOk {edgeType : EdgeType}
    (hscan : 2 ^ 64 ≤ limits.maxQueryScanEdges)
    (hrows : 2 ^ 64 ≤ limits.maxQueryIntermediateRows)
    (hresult : 2 ^ 64 ≤ limits.maxQueryResultVertices) :
    ∃ r, reachableFromStorageFrontier limits t edgeType s minHops maxHops e = .ok r := by
  refine bind_isOk (Walk.rounds_isOk (fun hop s => ?_) _ _ _) fun _ _ => ⟨_, rfl⟩
  unfold storageHop
  split
  · exact ⟨_, rfl⟩
  refine bind_isOk (List.foldlM_isOk (fun source _ state => ?_) _) fun found _ => ?_
  · have hle : saturatingAdd state.2 (t.outNeighborsForSrc edgeType source e).keys.length ≤
        limits.maxQueryScanEdges := (min_le_right _ _).trans (le_trans (by decide) hscan)
    exact bind_isOk ⟨(), ensureLimit_ok hle⟩ fun _ _ => ⟨_, rfl⟩
  refine bind_isOk ⟨(), ensureLimit_ok ((length_keys_le _).trans hrows)⟩ fun _ _ => ?_
  split
  · exact bind_isOk ⟨(), ensureLimit_ok ((length_keys_le _).trans hresult)⟩ fun _ _ => ⟨_, rfl⟩
  · exact ⟨_, rfl⟩

end HydraDb
