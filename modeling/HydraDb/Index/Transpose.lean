import HydraDb.Index.KernelWalks
import Mathlib.Algebra.BigOperators.Group.Finset.Basic
import Mathlib.Data.Set.Card

/-!
# Counting and the reverse matrix

`expand_range_count` counts what `expand_range` lists. The predecessors of a vertex are read from
the transposed matrix (`transpose`), which is built from the counts of the destinations like every
compressed matrix, or by a scan of the whole matrix (`in_neighbors_without_reverse`) that calls back
before each step, so that a long scan can be interrupted. The rows of the transposed matrix are
those of `GraphBlasCsc.reversed`, and both ways give the same list
(`GraphBlasCsc.inNeighborsWithoutReverse_eq`).
-/

namespace HydraDb

open List

/-- `SparseTraversalCount`. -/
structure SparseTraversalCount where
  vertices : Nat
  edgeVisits : Nat
  backend : SparseKernelBackend
  deriving DecidableEq

namespace GraphBlasCsc

variable {σ : Type}

/-- `expand_range_bitmap`. -/
def expandRangeBitmap (csc : GraphBlasCsc) (starts : List VertexId) (minHops maxHops : UInt8) :
    Except GraphError (List Bool × Nat) :=
  if maxHops < minHops ∨ csc.vertices.isEmpty ∨ starts.isEmpty then .ok ([], 0)
  else
    let frontier := csc.startOrdinals starts
    if frontier.isEmpty then .ok ([], 0)
    else do
      let s ← Walk.rounds (csc.expandRangeHop minHops.toNat) maxHops.toNat 0
        ⟨frontier, ∅, if minHops = 0 then OrdMap.addAll ∅ frontier else ∅, 0⟩
      return ((range csc.vertices.length).map s.result.contains, s.edgeVisits)

/-- `expand_range_count`. -/
def expandRangeCount (csc : GraphBlasCsc) (starts : List VertexId) (minHops maxHops : UInt8) :
    Except GraphError SparseTraversalCount := do
  let (resultSeen, edgeVisits) ← csc.expandRangeBitmap starts minHops maxHops
  return ⟨resultSeen.countP id, edgeVisits, .compactCsc⟩

/-- `neighbors`: the vertices at the ordinals of the row. -/
def neighborVertices (csc : GraphBlasCsc) (vertex : VertexId) : List VertexId :=
  match csc.ordinal vertex with
  | none => []
  | some ordinal => (csc.neighbors ordinal).map csc.vertexAt

/-- `transpose`. -/
def transpose (csc : GraphBlasCsc) : GraphBlasCsc :=
  let dimension := csc.vertices.length
  let counts := csc.indices.foldl (fun pointers neighbor => pointers.modify (neighbor + 1) (· + 1))
    (replicate (dimension + 1) 0)
  let pointers := Csr.prefixSums counts
  let filled := (range dimension).foldl
    (fun state src => (csc.neighbors src).foldl (fun state dst => Csr.place dst state src) state)
    (replicate csc.indices.length 0, pointers.take dimension)
  ⟨csc.vertices, pointers, filled.1⟩

/-- `in_neighbors_without_reverse`. The state is that of the caller's `check`. -/
def inNeighborsWithoutReverse {σ : Type} (csc : GraphBlasCsc) (vertex : VertexId)
    (check : σ → Except GraphError σ) (state : σ) : Except GraphError (List VertexId × σ) :=
  csc.vertices.zipIdx.foldlM (fun (neighbors, state) (src, ordinal) => do
    let state ← check state
    (csc.neighbors ordinal).foldlM (fun (neighbors, state) neighbor => do
      let state ← check state
      return (if some neighbor = csc.ordinal vertex then neighbors ++ [src] else neighbors, state))
      (neighbors, state)) ([], state)

variable {csc : GraphBlasCsc}

/-! ## Counting -/

theorem expandRangeCount_eq :
    csc.expandRangeCount starts minHops maxHops =
      (csc.expandRange starts minHops maxHops).map fun r =>
        ⟨r.vertices.length, r.edgeVisits, r.backend⟩ := by
  have hcount : ∀ result : OrdMap Nat Unit,
      ((range csc.vertices.length).map result.contains).countP id =
        (csc.vertices.zipIdx.filterMap fun x =>
          if result.contains x.2 then some x.1 else none).length := by
    intro result
    rw [length_filterMap_eq_countP, countP_map, range_eq_range',
      ← zipIdx_map_snd 0 csc.vertices, countP_map]
    refine countP_congr fun x _ => ?_
    by_cases h : result.contains x.2 <;> simp
  unfold expandRangeCount expandRangeBitmap expandRange searchUnless
  simp only [decide_eq_true_eq]
  split
  · rfl
  split
  · rfl
  cases hs : Walk.rounds (csc.expandRangeHop minHops.toNat) maxHops.toNat 0
    ⟨csc.startOrdinals starts, ∅,
      if minHops = 0 then OrdMap.addAll ∅ (csc.startOrdinals starts) else ∅, 0⟩ with
  | error e => rfl
  | ok s => exact congrArg (fun n => Except.ok (⟨n, s.edgeVisits, .compactCsc⟩ :
      SparseTraversalCount)) (hcount s.result)

theorem expandRange_isOk (starts : List VertexId) (minHops maxHops : UInt8) :
    ∃ r, csc.expandRange starts minHops maxHops = .ok r := by
  refine searchUnless_isOk (bind_isOk (Walk.rounds_isOk (fun i s => ?_) _ _ _) fun s _ => ⟨_, rfl⟩)
  unfold expandRangeHop
  dsimp only
  split <;> exact ⟨_, rfl⟩

/-! ## The rows of the transposed matrix -/

/-- The edges of a matrix, each as a row of its destination, in the order of the sources. -/
def reversed (csc : GraphBlasCsc) : List (Nat × List Nat) :=
  (range csc.vertices.length).flatMap fun src =>
    (csc.neighbors src).map fun dst => (dst, [src])

/-- The sources of the edges to an ordinal. -/
def sources (csc : GraphBlasCsc) (dst : Nat) : List Nat :=
  (range csc.vertices.length).flatMap fun src =>
    replicate ((csc.neighbors src).count dst) src

theorem row_reversed : Csr.row csc.reversed dst = csc.sources dst := by
  rw [Csr.row, reversed, filter_flatMap, flatMap_assoc]
  refine flatMap_congr fun src _ => ?_
  induction csc.neighbors src with
  | nil => rfl
  | cons x xs ih =>
    rw [map_cons, filter_cons, count_cons]
    by_cases h : x = dst
    · simp [h, ih, replicate_succ]
    · simp [h, ih]

namespace Formed

variable (h : csc.Formed)

include h

theorem wellFormed : csc.WellFormed := ⟨h.sorted, h.index_lt⟩

/-- The rows one after the other are the indices. -/
theorem flatMap_neighbors : (range csc.vertices.length).flatMap csc.neighbors = csc.indices := by
  have htake : ∀ k ≤ csc.vertices.length,
      csc.indices.take (csc.pointers.getD k 0) = (range k).flatMap csc.neighbors := by
    intro k hk
    induction k with
    | zero =>
      rw [getD_eq_getElem?_getD, ← head?_eq_getElem?, h.first]
      rfl
    | succ k ih =>
      have hlt : k + 1 < csc.pointers.length := by rw [h.length_pointers]; omega
      have hmono : csc.pointers.getD k 0 ≤ csc.pointers.getD (k + 1) 0 := by
        rw [getD_eq_getElem _ _ hlt, getD_eq_getElem _ _ (Nat.lt_of_succ_lt hlt)]
        exact pairwise_iff_getElem.1 h.monotone k (k + 1) _ hlt (Nat.lt_succ_self k)
      rw [← Nat.add_sub_cancel' hmono, take_add, ih (Nat.le_of_succ_le hk), range_succ,
        flatMap_append, flatMap_singleton]
      rfl
  have hlast : csc.pointers.getD csc.vertices.length 0 = csc.indices.length := by
    rw [← h.last, getLastD_eq_getLast?, getLast?_eq_getElem?, h.length_pointers,
      getD_eq_getElem?_getD, Nat.add_sub_cancel]
  rw [← htake _ (le_refl _), hlast, take_length]

theorem lt_of_mem_reversed : ∀ r ∈ csc.reversed, r.1 < csc.vertices.length := by
  intro r hr
  obtain ⟨src, -, hr⟩ := mem_flatMap.1 hr
  obtain ⟨dst, hdst, rfl⟩ := mem_map.1 hr
  exact h.wellFormed.lt_of_ordinalEdge hdst

theorem length_reversed : (csc.reversed.flatMap Prod.snd).length = csc.indices.length := by
  have hsnd : csc.reversed.flatMap Prod.snd = (range csc.vertices.length).flatMap fun src =>
      (csc.neighbors src).map fun _ => src := by
    rw [reversed, flatMap_assoc]
    refine flatMap_congr fun src _ => ?_
    rw [flatMap_map, ← map_eq_flatMap]
  rw [hsnd, ← h.flatMap_neighbors, length_flatMap, length_flatMap]
  simp

/-- The transposed matrix is the compressed form of the reversed edges. -/
theorem transpose_eq : csc.transpose =
    ⟨csc.vertices, (range (csc.vertices.length + 1)).map (Csr.start csc.reversed),
      (range csc.vertices.length).flatMap (Csr.row csc.reversed)⟩ := by
  have hcounts : csc.indices.foldl (fun pointers neighbor => pointers.modify (neighbor + 1) (· + 1))
      (replicate (csc.vertices.length + 1) 0) =
        Csr.countRows (replicate (csc.vertices.length + 1) 0) csc.reversed := by
    rw [Csr.countRows, reversed, foldl_flatMap, ← h.flatMap_neighbors, foldl_flatMap]
    simp only [foldl_map]
    rfl
  have hfill : ∀ state, (range csc.vertices.length).foldl
      (fun state src => (csc.neighbors src).foldl (fun state dst => Csr.place dst state src) state)
      state = Csr.fill state csc.reversed := by
    intro state
    rw [Csr.fill, reversed, foldl_flatMap]
    simp only [foldl_map]
    rfl
  have hoffsets : ((range (csc.vertices.length + 1)).map
      (Csr.start csc.reversed)).take csc.vertices.length =
        (range csc.vertices.length).map (Csr.start csc.reversed) := by
    rw [range_succ, map_append, take_left' (by simp)]
  unfold transpose
  dsimp only
  rw [hcounts, Csr.prefixSums_countRows, hoffsets, hfill, ← h.length_reversed,
    Csr.fill_eq h.lt_of_mem_reversed]

/-- Transposing gives a formed matrix of the same vertices. -/
theorem transpose : csc.transpose.Formed := by
  rw [h.transpose_eq]
  refine formed_of_rows h.sorted rfl rfl fun index hindex => ?_
  obtain ⟨dst, -, hmem⟩ := mem_flatMap.1 hindex
  rw [row_reversed] at hmem
  obtain ⟨src, hsrc, hmem⟩ := mem_flatMap.1 hmem
  exact eq_of_mem_replicate hmem ▸ mem_range.1 hsrc

/-- A row of the transposed matrix. -/
theorem neighbors_transpose (hdst : dst < csc.vertices.length) :
    csc.transpose.neighbors dst = csc.sources dst := by
  have hpointer : ∀ i ≤ csc.vertices.length,
      csc.transpose.pointers.getD i 0 = Csr.start csc.reversed i := by
    intro i hi
    rw [h.transpose_eq, getD_eq_getElem _ _ (by simpa using Nat.lt_succ_of_le hi),
      getElem_map, getElem_range]
  rw [neighbors, degree, hpointer _ hdst, hpointer _ hdst.le, h.transpose_eq,
    Csr.slice_flatMap_row hdst, row_reversed]

/-- An edge of the matrix leads to a neighbour. -/
theorem mem_neighborVertices : v ∈ csc.neighborVertices u ↔ csc.Edge u v := by
  rw [neighborVertices]
  cases hu : csc.ordinal u with
  | none =>
    simp [Edge, containsEdge, hu]
  | some =>
    obtain ⟨hi, rfl⟩ := h.wellFormed.ordinal_eq_some.1 hu
    rw [h.wellFormed.edge_vertexAt hi, mem_map]
    exact exists_congr fun j => and_comm

/-- How often an edge is in the matrix, by ordinals. -/
theorem count_neighborVertices (vertex : VertexId) (hsrc : src < csc.vertices.length) :
    (csc.neighborVertices (csc.vertexAt src)).count vertex =
      (csc.neighbors src).countP fun dst => decide (some dst = csc.ordinal vertex) := by
  rw [neighborVertices, h.wellFormed.ordinal_eq_some.2 ⟨hsrc, rfl⟩]
  rw [count, countP_map]
  refine countP_congr fun dst hdst => ?_
  rw [Function.comp_apply, beq_iff_eq, decide_eq_true_eq, eq_comm (a := some dst),
    h.wellFormed.ordinal_eq_some]
  exact (and_iff_right (h.wellFormed.lt_of_ordinalEdge hdst)).symm

/-- The predecessors of a vertex, source by source: each as often as the edge is in the matrix. -/
theorem neighborVertices_transpose (vertex : VertexId) :
    csc.transpose.neighborVertices vertex = csc.vertices.flatMap fun src =>
      replicate ((csc.neighborVertices src).count vertex) src := by
  have hvertices : csc.vertices = (range csc.vertices.length).map csc.vertexAt := by
    refine ext_getElem (by simp) fun i hi _ => ?_
    rw [getElem_map, getElem_range, vertexAt, getD_eq_getElem _ _ hi]
  have hright : (csc.vertices.flatMap fun src =>
      replicate ((csc.neighborVertices src).count vertex) src) =
        (range csc.vertices.length).flatMap fun src => replicate
          ((csc.neighbors src).countP fun dst => decide (some dst = csc.ordinal vertex))
          (csc.vertexAt src) := by
    conv_lhs => rw [hvertices, flatMap_map]
    refine flatMap_congr fun src hsrc => ?_
    rw [h.count_neighborVertices vertex (mem_range.1 hsrc)]
  have hordinal : csc.transpose.ordinal vertex = csc.ordinal vertex := rfl
  have hvertexAt : csc.transpose.vertexAt = csc.vertexAt := rfl
  rw [hright, neighborVertices, hordinal]
  cases hv : csc.ordinal vertex with
  | none => simp
  | some =>
    dsimp only
    rw [h.neighbors_transpose (h.wellFormed.ordinal_eq_some.1 hv).1, sources, map_flatMap,
      hvertexAt]
    refine flatMap_congr fun src _ => ?_
    rw [map_replicate, count]
    congr 1
    exact countP_congr fun x _ => by simp

/-- Transposing turns each edge around, as often as it is in the matrix. -/
theorem count_neighborVertices_transpose (u v : VertexId) :
    (csc.transpose.neighborVertices v).count u = (csc.neighborVertices u).count v := by
  rw [h.neighborVertices_transpose, count_flatMap]
  have hcount : (count u ∘ fun src =>
      replicate ((csc.neighborVertices src).count v) src) =
        fun src => if src = u then (csc.neighborVertices u).count v else 0 := by
    funext src
    rw [Function.comp_apply, count_replicate]
    by_cases heq : src = u <;> simp [heq]
  rw [hcount, ← sum_toFinset _ h.wellFormed.nodup, Finset.sum_ite_eq' ]
  split
  · rfl
  · next habsent =>
    rw [neighborVertices, ordinal, if_neg fun hmem => habsent (mem_toFinset.2 hmem)]
    rfl

end Formed

/-! ## The scan -/

/-- The callback, `n` times. -/
def checks {σ : Type} (check : σ → Except GraphError σ) : Nat → σ → Except GraphError σ
  | 0, state => .ok state
  | n + 1, state => check state >>= checks check n

theorem checks_add (check : σ → Except GraphError σ) (m n : Nat) (state : σ) :
    checks check (m + n) state = checks check m state >>= checks check n := by
  induction m generalizing state with
  | zero => rw [Nat.zero_add]; rfl
  | succ m ih =>
    rw [Nat.add_right_comm, checks, checks]
    cases check state with
    | error => rfl
    | ok state => exact ih state

/-- A loop that calls back a number of times in each round and has nothing else that can fail. -/
theorem foldlM_checks (check : σ → Except GraphError σ) (work : α → Nat) (f : β → α → β)
    (h : ∀ acc state x, body (acc, state) x =
      (checks check (work x) state).map fun state => (f acc x, state)) (l : List α) (acc : β)
    (state : σ) :
    l.foldlM body (acc, state) =
      (checks check (l.map work).sum state).map fun state => (l.foldl f acc, state) := by
  induction l generalizing acc state with
  | nil => rfl
  | cons x l ih =>
    rw [foldlM_cons, h, map_cons, sum_cons, checks_add]
    cases checks check (work x) state with
    | error => rfl
    | ok state => exact ih (f acc x) state

/-- The scan answers what the transposed matrix holds, after one call for each vertex and each
edge. -/
theorem inNeighborsWithoutReverse_eq (h : csc.Formed) (vertex : VertexId)
    (check : σ → Except GraphError σ) (state : σ) :
    csc.inNeighborsWithoutReverse vertex check state =
      (checks check (csc.vertices.length + csc.indices.length) state).map fun state =>
        (csc.transpose.neighborVertices vertex, state) := by
  have hrow : ∀ src (row : List Nat) (neighbors : List VertexId),
      row.foldl (fun neighbors dst =>
        if some dst = csc.ordinal vertex then neighbors ++ [src] else neighbors) neighbors =
          neighbors ++ replicate
            (row.countP fun dst => decide (some dst = csc.ordinal vertex)) src := by
    intro src row
    induction row with
    | nil => simp
    | cons dst row ih =>
      intro neighbors
      by_cases hdst : some dst = csc.ordinal vertex <;> simp [hdst, ih, replicate_succ]
  have hinner : ∀ src (row : List Nat) (neighbors : List VertexId) state,
      row.foldlM (fun (neighbors, state) neighbor => do
        let state ← check state
        return (if some neighbor = csc.ordinal vertex then neighbors ++ [src] else neighbors,
          state)) (neighbors, state) =
        (checks check row.length state).map fun state => (neighbors ++ replicate
          (row.countP fun dst => decide (some dst = csc.ordinal vertex)) src, state) := by
    intro src row neighbors state
    refine (foldlM_checks check (fun _ => 1) (fun neighbors dst =>
      if some dst = csc.ordinal vertex then neighbors ++ [src] else neighbors) ?_ row neighbors
      state).trans ?_
    · intro neighbors state dst
      rw [checks]
      dsimp only
      cases check state <;> rfl
    · rw [hrow, map_const', sum_replicate_nat, Nat.mul_one]
  refine (foldlM_checks check (fun x => 1 + (csc.neighbors x.2).length)
    (fun neighbors x => neighbors ++ replicate
      ((csc.neighbors x.2).countP fun dst => decide (some dst = csc.ordinal vertex)) x.1) ?_ _ _
    _).trans ?_
  · intro neighbors state x
    rw [Nat.add_comm, checks]
    dsimp only
    cases check state with
    | error => rfl
    | ok state => exact hinner x.1 (csc.neighbors x.2) neighbors state
  have hwork : (csc.vertices.zipIdx.map fun x => 1 + (csc.neighbors x.2).length).sum =
      csc.vertices.length + csc.indices.length := by
    rw [sum_map_add, map_const', sum_replicate_nat, Nat.mul_one,
      length_zipIdx, ← h.flatMap_neighbors, length_flatMap, range_eq_range',
      ← zipIdx_map_snd 0 csc.vertices, map_map]
    rfl
  have hfound : csc.vertices.zipIdx.foldl (fun neighbors x => neighbors ++ replicate
      ((csc.neighbors x.2).countP fun dst => decide (some dst = csc.ordinal vertex)) x.1) [] =
        csc.transpose.neighborVertices vertex := by
    rw [← flatMap_eq_foldl, h.neighborVertices_transpose]
    conv_rhs => rw [← zipIdx_map_fst 0 csc.vertices, flatMap_map]
    refine flatMap_congr fun x hx => ?_
    obtain ⟨hlt, hat⟩ := mem_zipIdx' hx
    have hvertex : x.1 = csc.vertexAt x.2 := by rw [vertexAt, getD_eq_getElem _ _ hlt, hat]
    rw [← h.count_neighborVertices vertex hlt, ← hvertex]
  rw [hwork, hfound]

end GraphBlasCsc

theorem Lists.length_eq (h : Lists l s) : l.length = s.ncard := by
  have hset : s = l.toFinset := by
    ext v
    rw [coe_toFinset]
    exact (h.2 v).symm
  rw [hset, Set.ncard_coe_finset, toFinset_card_of_nodup (h.1.imp ne_of_lt)]

/-- The kernels over a formed matrix. The bounded search lists what is first reached within the
hops, without the starts. The range search lists the ends of the walks of a length in the range
from the starts that the matrix has, and counting counts them. Transposing turns every edge around,
and the scan for predecessors answers the row of the transposed matrix. -/
theorem hopKernels_exact {csc : GraphBlasCsc} (formed : csc.Formed) (starts : List VertexId) :
    (∀ u v, csc.Edge u v ↔ v ∈ csc.neighborVertices u) ∧
    (∀ hops, ∃ r, csc.expand starts hops = .ok r ∧
      Lists r.vertices (Walk.between csc.Edge (startSet starts) 1 hops.toNat \ startSet starts)) ∧
    (∀ minHops maxHops, ∃ r, csc.expandRange starts minHops maxHops = .ok r ∧
      Lists r.vertices (Walk.between csc.Edge (csc.present starts) minHops.toNat maxHops.toNat)) ∧
    (∀ minHops maxHops, ∃ c, csc.expandRangeCount starts minHops maxHops = .ok c ∧
      c.vertices = (Walk.between csc.Edge (csc.present starts) minHops.toNat maxHops.toNat).ncard) ∧
    csc.transpose.Formed ∧ csc.transpose.vertices = csc.vertices ∧
    (∀ u v, (csc.transpose.neighborVertices v).count u = (csc.neighborVertices u).count v) ∧
    ∀ (σ : Type) (vertex : VertexId) (check : σ → Except GraphError σ) (state : σ),
      csc.inNeighborsWithoutReverse vertex check state =
        (GraphBlasCsc.checks check (csc.vertices.length + csc.indices.length) state).map
          fun state => (csc.transpose.neighborVertices vertex, state) := by
  have hrange : ∀ minHops maxHops, ∃ r, csc.expandRange starts minHops maxHops = .ok r ∧
      Lists r.vertices
        (Walk.between csc.Edge (csc.present starts) minHops.toNat maxHops.toNat) := by
    intro minHops maxHops
    obtain ⟨r, hr⟩ := csc.expandRange_isOk starts minHops maxHops
    exact ⟨r, hr, GraphBlasCsc.expandRange_present formed.wellFormed hr⟩
  refine ⟨fun u v => formed.mem_neighborVertices.symm, fun hops => ?_, hrange,
    fun minHops maxHops => ?_, formed.transpose, rfl, formed.count_neighborVertices_transpose,
    fun σ => GraphBlasCsc.inNeighborsWithoutReverse_eq formed⟩
  · obtain ⟨r, hr⟩ := csc.expand_isOk starts hops
    exact ⟨r, hr, GraphBlasCsc.expand_lists formed.wellFormed hr⟩
  obtain ⟨r, hr, hlists⟩ := hrange minHops maxHops
  refine ⟨⟨r.vertices.length, r.edgeVisits, r.backend⟩, ?_, hlists.length_eq⟩
  rw [GraphBlasCsc.expandRangeCount_eq, hr]
  rfl

theorem hopKernels_exact_twoCycle : twoCycleCsc.Formed ∧
    ∃ c, twoCycleCsc.expandRangeCount [1, 1, 9] 0 3 = .ok c ∧
      c.vertices = (Walk.between twoCycleCsc.Edge (twoCycleCsc.present [1, 1, 9]) 0 3).ncard :=
  have formed : twoCycleCsc.Formed := by decide
  ⟨formed, (hopKernels_exact formed [1, 1, 9]).2.2.2.1 0 3⟩

end HydraDb
