import HydraDb.Index.Adjacency
import HydraDb.Lib.Csr

/-!
# The compressed matrix of an adjacency

A published index is an adjacency in compressed form (`GraphBlasCsc`, `sparse_kernel/mod.rs`): a
dictionary of the vertices that occur, in ascending order, a pointer for each of them, and the
ordinals of the destinations row after row. This file has the construction and the way back, and the
theorem that the way back is exact for an adjacency without empty rows
(`GraphBlasCsc.toAdjacency_eq`).
-/

namespace HydraDb

open OrdMap List Csr

/-- `GraphBlasCsc`. Pointers and ordinals are counts, so they are natural numbers here; they fit
64 bits wherever they are encoded. -/
structure GraphBlasCsc where
  vertices : List VertexId
  pointers : List Nat
  indices : List Nat
  deriving DecidableEq

/-- `GRAPHBLAS_INDEX_MAX`. -/
def graphblasIndexMax : Nat := 2 ^ 60 - 1

/-- `graphblas_vertices_from_adjacency`: the sources and the destinations. -/
def graphblasVerticesFromAdjacency (a : MatrixAdjacency) : Except GraphError (List VertexId) :=
  let vertices := a.entries.foldl
    (fun (vertices : OrdMap VertexId Unit) e => (vertices.put e.1 ()).addAll e.2.keys) ∅
  if vertices.keys.length > graphblasIndexMax then
    .error (.sparseKernel "SuiteSparseGraphBlas"
      (toString vertices.keys.length ++ " local vertices exceed GraphBLAS index limit"))
  else .ok vertices.keys

/-- `csc_vertex_ordinal`: a binary search of a list in strictly ascending order finds the only
position of the vertex. -/
def cscVertexOrdinal (vertices : List VertexId) (vertex : VertexId) (role : String) :
    Except GraphError Nat :=
  if vertex ∈ vertices then .ok (vertices.idxOf vertex)
  else .error (.sparseKernel "SuiteSparseGraphBlas"
    ("missing CSC ordinal for " ++ role ++ " vertex " ++ toString vertex))

/-- The first loop of `graphblas_csc_from_adjacency`: the length of a row. -/
def countRow (vertices : List VertexId) (pointers : List Nat)
    (row : VertexId × OrdMap VertexId Unit) : Except GraphError (List Nat) := do
  let ordinal ← cscVertexOrdinal vertices row.1 "source"
  return pointers.modify (ordinal + 1) (· + row.2.keys.length)

/-- The last loop: the destinations of a row. -/
def fillRow (vertices : List VertexId) (state : List Nat × List Nat)
    (row : VertexId × OrdMap VertexId Unit) : Except GraphError (List Nat × List Nat) := do
  let ordinal ← cscVertexOrdinal vertices row.1 "source"
  row.2.keys.foldlM (fun state dst => do
    let dstOrdinal ← cscVertexOrdinal vertices dst "destination"
    return place ordinal state dstOrdinal) state

/-- `graphblas_csc_from_adjacency`. -/
def graphblasCscFromAdjacency (a : MatrixAdjacency) : Except GraphError GraphBlasCsc := do
  let vertices ← graphblasVerticesFromAdjacency a
  let counts ← a.entries.foldlM (countRow vertices) (replicate (vertices.length + 1) 0)
  let pointers := prefixSums counts
  let (indices, _) ← a.entries.foldlM (fillRow vertices)
    (replicate (pointers.getLastD 0) 0, pointers.take vertices.length)
  return ⟨vertices, pointers, indices⟩

namespace GraphBlasCsc

/-- A destination of a row in `to_adjacency`. -/
def addNeighbor (csc : GraphBlasCsc) (neighbors : OrdMap VertexId Unit) (destination : Nat) :
    Except GraphError (OrdMap VertexId Unit) :=
  match csc.vertices[destination]? with
  | some vertex => .ok (neighbors.put vertex ())
  | none => .error (.sparseKernel "CanonicalAdjacency"
      ("destination ordinal " ++ toString destination ++ " is out of bounds"))

/-- A source in `to_adjacency`. An empty row gives no source. -/
def addRow (csc : GraphBlasCsc) (adjacency : MatrixAdjacency) (source : VertexId × Nat) :
    Except GraphError MatrixAdjacency :=
  let start := csc.pointers.getD source.2 0
  let stop := csc.pointers.getD (source.2 + 1) 0
  if start ≤ stop ∧ stop ≤ csc.indices.length then
    let row := (csc.indices.drop start).take (stop - start)
    if row.isEmpty then .ok adjacency
    else do
      let neighbors ← row.foldlM csc.addNeighbor ∅
      return adjacency.put source.1 neighbors
  else .error (.sparseKernel "CanonicalAdjacency"
    ("source row " ++ toString source.2 ++ " exceeds the index array"))

/-- `GraphBlasCsc::to_adjacency`. -/
def toAdjacency (csc : GraphBlasCsc) : Except GraphError MatrixAdjacency :=
  if csc.pointers.length ≠ csc.vertices.length + 1 then
    .error (.sparseKernel "CanonicalAdjacency" "pointer count does not match the vertex dictionary")
  else csc.vertices.zipIdx.foldlM csc.addRow ∅

/-! ## What the construction builds -/

/-- The rows of an adjacency, by ordinal. -/
def rowsOf (vertices : List VertexId) (a : MatrixAdjacency) : List (Nat × List Nat) :=
  a.entries.map fun e => (vertices.idxOf e.1, e.2.keys.map vertices.idxOf)

/-- A dictionary of an adjacency: its vertices, in ascending order. -/
structure Dictionary (vertices : List VertexId) (a : MatrixAdjacency) : Prop where
  sorted : vertices.Pairwise (· < ·)
  sources : ∀ e ∈ a.entries, e.1 ∈ vertices
  destinations : ∀ e ∈ a.entries, ∀ dst ∈ e.2.keys, dst ∈ vertices

/-- A compressed matrix of an adjacency: the dictionary, the start of each row, and the rows one
after the other. -/
structure Represents (csc : GraphBlasCsc) (a : MatrixAdjacency) : Prop where
  dictionary : Dictionary csc.vertices a
  length_le : csc.vertices.length ≤ graphblasIndexMax
  pointers : csc.pointers = (range (csc.vertices.length + 1)).map (start (rowsOf csc.vertices a))
  indices : csc.indices = (rowsOf csc.vertices a).flatMap Prod.snd

variable {vertices : List VertexId} {a : MatrixAdjacency} {csc : GraphBlasCsc}

namespace Dictionary

theorem idxOf_lt (h : Dictionary vertices a) (hv : v ∈ vertices) (hw : w ∈ vertices)
    (hlt : v < w) : vertices.idxOf v < vertices.idxOf w := by
  by_contra hle
  have hv' := idxOf_lt_length_of_mem hv
  have hw' := idxOf_lt_length_of_mem hw
  rcases (Nat.not_lt.1 hle).eq_or_lt with heq | hlt'
  · have := getElem_idxOf hv'
    have := getElem_idxOf hw'
    simp_all
  · have := pairwise_iff_getElem.1 h.sorted _ _ hw' hv' hlt'
    rw [getElem_idxOf, getElem_idxOf] at this
    exact lt_irrefl v (hlt.trans this)

theorem pairwise_rowsOf (h : Dictionary vertices a) :
    (rowsOf vertices a).Pairwise fun r r' => r.1 < r'.1 := by
  rw [rowsOf, pairwise_map]
  refine Pairwise.imp_of_mem ?_ a.sorted
  intro e e' he he' hlt
  exact h.idxOf_lt (h.sources e he) (h.sources e' he') hlt

theorem lt_of_mem_rowsOf (h : Dictionary vertices a) :
    ∀ r ∈ rowsOf vertices a, r.1 < vertices.length := by
  intro r hr
  obtain ⟨e, he, rfl⟩ := mem_map.1 hr
  exact idxOf_lt_length_of_mem (h.sources e he)

end Dictionary

theorem graphblasVerticesFromAdjacency_ok (h : graphblasVerticesFromAdjacency a = .ok vertices) :
    Dictionary vertices a ∧ vertices.length ≤ graphblasIndexMax := by
  have hmem : ∀ (es : List (VertexId × OrdMap VertexId Unit)) vs v,
      (es.foldl (fun (vertices : OrdMap VertexId Unit) e =>
        (vertices.put e.1 ()).addAll e.2.keys) vs).contains v = true ↔
      vs.contains v = true ∨ ∃ e ∈ es, v = e.1 ∨ v ∈ e.2.keys := by
    intro es
    induction es with
    | nil => simp
    | cons e es ih =>
      intro vs v
      rw [foldl_cons, ih, contains_addAll, contains_put]
      simp only [mem_cons, exists_eq_or_imp]
      grind
  have hsorted : ∀ {m : OrdMap VertexId Unit}, m.keys.Pairwise (· < ·) := fun {m} =>
    pairwise_map.2 m.sorted
  obtain ⟨hle, h⟩ := else_of_ne h nofun
  cases h
  refine ⟨⟨hsorted, fun e he => ?_, fun e he dst hdst => ?_⟩, Nat.not_lt.1 hle⟩
  · exact mem_keys_iff_contains.2 ((hmem _ _ _).2 (.inr ⟨e, he, .inl rfl⟩))
  · exact mem_keys_iff_contains.2 ((hmem _ _ _).2 (.inr ⟨e, he, .inr hdst⟩))

/-- The three loops build the compressed matrix of the adjacency. -/
theorem graphblasCscFromAdjacency_ok (h : graphblasCscFromAdjacency a = .ok csc) :
    csc.Represents a := by
  obtain ⟨vertices, hvertices, h⟩ := bind_ok h
  obtain ⟨dictionary, hle⟩ := graphblasVerticesFromAdjacency_ok hvertices
  have hordinal : ∀ v ∈ vertices, ∀ role, cscVertexOrdinal vertices v role =
      .ok (vertices.idxOf v) := fun v hv role => if_pos hv
  have hcount : a.entries.foldlM (countRow vertices) (replicate (vertices.length + 1) 0) =
      .ok (countRows (replicate (vertices.length + 1) 0) (rowsOf vertices a)) := by
    rw [countRows, rowsOf, foldl_map]
    refine foldlM_eq_ok (fun e he counts => ?_) _
    rw [countRow, hordinal _ (dictionary.sources e he)]
    simp only [length_map]
    rfl
  have hfill : ∀ state, a.entries.foldlM (fillRow vertices) state =
      .ok (fill state (rowsOf vertices a)) := by
    intro state
    rw [fill, rowsOf, foldl_map]
    refine foldlM_eq_ok (fun e he state => ?_) _
    rw [fillRow, hordinal _ (dictionary.sources e he)]
    rw [foldl_map]
    refine foldlM_eq_ok (fun dst hdst state => ?_) _
    rw [hordinal dst (dictionary.destinations e he dst hdst)]
    rfl
  have hpointers := prefixSums_countRows vertices.length (rowsOf vertices a)
  rw [hcount] at h
  obtain ⟨_, ⟨⟩, h⟩ := bind_ok h
  dsimp only at h
  rw [hpointers, hfill] at h
  cases h
  refine ⟨dictionary, hle, rfl, ?_⟩
  have hlast : ((range (vertices.length + 1)).map
      (start (rowsOf vertices a))).getLastD 0 = ((rowsOf vertices a).flatMap Prod.snd).length := by
    rw [range_succ, map_append, map_singleton, getLastD_concat,
      start_eq_length dictionary.lt_of_mem_rowsOf]
  have hoffsets : ((range (vertices.length + 1)).map
      (start (rowsOf vertices a))).take vertices.length =
        (range vertices.length).map (start (rowsOf vertices a)) := by
    rw [range_succ, map_append, take_left' (by simp)]
  rw [hlast, hoffsets]
  rw [fill_eq dictionary.lt_of_mem_rowsOf,
    flatMap_row dictionary.pairwise_rowsOf dictionary.lt_of_mem_rowsOf]

/-! ## The way back -/

namespace Represents

variable (h : csc.Represents a)

include h

theorem getD_pointers (hi : i ≤ csc.vertices.length) :
    csc.pointers.getD i 0 = start (rowsOf csc.vertices a) i := by
  rw [h.pointers, getD_eq_getElem _ _ (by simpa using Nat.lt_succ_of_le hi),
    getElem_map, getElem_range]

theorem start_le_length (hi : i ≤ csc.vertices.length) :
    start (rowsOf csc.vertices a) i ≤ csc.indices.length := by
  rw [h.indices, ← start_eq_length h.dictionary.lt_of_mem_rowsOf]
  exact start_mono hi

/-- The row of a vertex of the dictionary. -/
theorem row_eq :
    row (rowsOf csc.vertices a) (csc.vertices.idxOf v) =
      ((a.get v).map fun ds => ds.keys.map csc.vertices.idxOf).getD [] := by
  cases hget : a.get v with
  | some ds =>
    have hmem : (csc.vertices.idxOf v, ds.keys.map csc.vertices.idxOf) ∈
        rowsOf csc.vertices a := mem_map.2 ⟨(v, ds), mem_entries.2 hget, rfl⟩
    exact row_of_mem h.dictionary.pairwise_rowsOf hmem
  | none =>
    refine row_eq_nil fun r hr => ?_
    obtain ⟨e, he, rfl⟩ := mem_map.1 hr
    intro heq
    have hev : e.1 = v := idxOf_inj (h.dictionary.sources e he) |>.1 heq
    have hnone := mem_entries.1 (show (e.1, e.2) ∈ a.entries from he)
    rw [hev, hget] at hnone
    cases hnone

/-- A source of the way back is a row of the adjacency. -/
theorem addRow_eq (compact : a.Compact) (hmem : (v, i) ∈ csc.vertices.zipIdx) :
    csc.addRow acc (v, i) = .ok ((a.get v).elim acc (acc.put v)) := by
  obtain ⟨hi, hv⟩ := mem_zipIdx' hmem
  have hnodup : csc.vertices.Nodup := h.dictionary.sorted.imp fun hlt => hlt.ne
  have hidx : csc.vertices.idxOf v = i := by rw [hv]; exact hnodup.idxOf_getElem i hi
  unfold addRow
  rw [h.getD_pointers hi.le, h.getD_pointers hi, if_pos ⟨start_mono (Nat.le_succ i),
    h.start_le_length hi⟩, h.indices, slice_eq h.dictionary.pairwise_rowsOf, ← hidx,
    h.row_eq]
  cases hget : a.get v with
  | none => rfl
  | some ds =>
    obtain ⟨dst, hdst⟩ := compact v ds hget
    have hkeys : ∀ d ∈ ds.keys, d ∈ csc.vertices :=
      h.dictionary.destinations (v, ds) (mem_entries.2 hget)
    have hne : (ds.keys.map csc.vertices.idxOf).isEmpty = false := by
      rw [isEmpty_eq_false_iff_exists_mem]
      exact ⟨_, mem_map_of_mem (mem_keys_iff_contains.2 hdst)⟩
    have hrow : (ds.keys.map csc.vertices.idxOf).foldlM csc.addNeighbor ∅ =
        .ok (addAll ∅ ds.keys) := by
      rw [foldlM_map]
      refine foldlM_eq_ok (fun d hd ns => ?_) _
      have hlt := idxOf_lt_length_of_mem (hkeys d hd)
      rw [addNeighbor, getElem?_eq_getElem hlt, getElem_idxOf]
    have hsame : addAll ∅ ds.keys = ds := by
      refine ext_get fun d => ?_
      have hd : (addAll ∅ ds.keys).contains d = true ↔ ds.contains d = true := by
        rw [contains_addAll, mem_keys_iff_contains]
        simp
      rw [OrdMap.contains, OrdMap.contains] at hd
      cases h₁ : (addAll ∅ ds.keys).get d <;> cases h₂ : ds.get d <;> simp_all
    simp only [Option.map_some, Option.getD_some, hne, Bool.false_eq_true, if_false, hrow, hsame]
    rfl

end Represents

/-- The way back from the compressed matrix of an adjacency without empty rows is the adjacency. -/
theorem toAdjacency_eq (h : csc.Represents a) (compact : a.Compact) : csc.toAdjacency = .ok a := by
  have hlen : csc.pointers.length = csc.vertices.length + 1 := by
    rw [h.pointers, length_map, length_range]
  rw [toAdjacency, if_neg (not_not.2 hlen), foldlM_eq_ok fun e he acc => h.addRow_eq compact he]
  refine congrArg Except.ok (ext_get fun v => ?_)
  have hfold := foldl_induction (l := csc.vertices.zipIdx) (b := (∅ : MatrixAdjacency))
    (f := fun acc e => (a.get e.1).elim acc (acc.put e.1))
    (P := fun done acc => ∀ v, acc.get v = if v ∈ done.map Prod.fst then a.get v else none)
    (fun v => rfl) ?_ v
  · rw [hfold, zipIdx_map_fst]
    split
    · rfl
    next hnot =>
    cases hget : a.get v with
    | none => rfl
    | some => exact absurd (h.dictionary.sources _ (mem_entries.2 hget)) hnot
  intro done e rest acc _ ih v
  simp only [map_append, mem_append, map_cons, map_nil, mem_singleton]
  cases hget : a.get e.1 with
  | none =>
    rw [Option.elim_none, ih v]
    by_cases hv : v = e.1
    · rw [hv, hget, ite_self, ite_self]
    · exact if_congr (or_iff_left hv).symm rfl rfl
  | some =>
    rw [Option.elim_some, get_put, ih v]
    by_cases hv : v = e.1
    · rw [if_pos hv, if_pos (.inr hv), hv, hget]
    · rw [if_neg hv]
      exact if_congr (or_iff_left hv).symm rfl rfl

end GraphBlasCsc

end HydraDb
