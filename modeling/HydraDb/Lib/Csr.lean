import Mathlib.Algebra.BigOperators.Group.List.Basic
import Mathlib.Algebra.GroupWithZero.Nat
import Mathlib.Data.List.GetD
import Mathlib.Data.List.TakeDrop
import Mathlib.Order.Nat

/-!
# Compressed rows

A sparse matrix in compressed form is one list of all elements, row after row, and one list of
pointers, the position where each row starts. The usual construction counts the elements of each
row, adds the counts up, and then writes each element at the next free position of its row. The
file has the three loops over lists, what they compute (`Csr.prefixSums_countRows`, `Csr.fill_eq`),
and the theorems that the slice between two pointers is the row (`Csr.slice_flatMap_row`,
`Csr.slice_eq`).

The rows are given as a list of ordinals with their elements. An ordinal may occur more than once,
in any order; a row that is not in the list is empty.
-/

namespace Csr

open List

variable {α : Type*}

/-- Add the length of each row to the counter after its ordinal. -/
def countRows (counts : List Nat) (rows : List (Nat × List α)) : List Nat :=
  rows.foldl (fun counts r => counts.modify (r.1 + 1) (· + r.2.length)) counts

/-- Add to each counter, from the second on, the counter before it. -/
def prefixSums (counts : List Nat) : List Nat :=
  (range' 1 (counts.length - 1)).foldl
    (fun sums i => sums.modify i (· + sums.getD (i - 1) 0)) counts

/-- Write an element at the next free position of a row. -/
def place (row : Nat) (state : List α × List Nat) (x : α) : List α × List Nat :=
  (state.1.set (state.2.getD row 0) x, state.2.modify row (· + 1))

/-- Write the elements of all rows. -/
def fill (state : List α × List Nat) (rows : List (Nat × List α)) : List α × List Nat :=
  rows.foldl (fun state r => r.2.foldl (place r.1) state) state

/-- The number of elements in the rows before the row `i`. -/
def start (rows : List (Nat × List α)) (i : Nat) : Nat :=
  ((rows.filter fun r => r.1 < i).map fun r => r.2.length).sum

/-- The elements of the row `i`. -/
def row (rows : List (Nat × List α)) (i : Nat) : List α :=
  (rows.filter fun r => r.1 = i).flatMap Prod.snd

variable {rows : List (Nat × List α)} {i n : Nat}

/-! ## Where rows start -/

theorem start_cons : start (r :: rows) i = (if r.1 < i then r.2.length else 0) + start rows i := by
  unfold start
  by_cases h : r.1 < i <;> simp [h]

theorem row_cons (r : Nat × List α) :
    row (r :: rows) i = (if r.1 = i then r.2 else []) ++ row rows i := by
  unfold row
  by_cases h : r.1 = i <;> simp [h]

theorem start_succ : start rows (i + 1) = start rows i + (row rows i).length := by
  induction rows with
  | nil => rfl
  | cons r rows ih =>
    rw [start_cons, start_cons, row_cons, ih, length_append]
    by_cases hlt : r.1 < i
    · have hne : r.1 ≠ i := hlt.ne
      have hsucc : r.1 < i + 1 := Nat.lt_succ_of_lt hlt
      simp only [hlt, hne, hsucc, if_true, if_false, length_nil]
      omega
    · by_cases heq : r.1 = i
      · subst heq
        simp only [Nat.lt_irrefl, Nat.lt_succ_self, if_true, if_false]
        omega
      · have hsucc : ¬ r.1 < i + 1 := by omega
        simp only [hlt, heq, hsucc, if_false, length_nil]
        omega

theorem start_mono (h : i ≤ j) : start rows i ≤ start rows j := by
  induction h with
  | refl => exact le_refl _
  | step _ ih => exact ih.trans (by rw [start_succ]; omega)

theorem start_eq_zero (h : ∀ r ∈ rows, i ≤ r.1) : start rows i = 0 := by
  unfold start
  rw [filter_eq_nil_iff.2 fun r hr => by simpa using h r hr]
  rfl

theorem start_eq_length (h : ∀ r ∈ rows, r.1 < n) :
    start rows n = (rows.flatMap Prod.snd).length := by
  unfold start
  rw [filter_eq_self.2 fun r hr => by simpa using h r hr, length_flatMap]

theorem row_eq_nil (h : ∀ r ∈ rows, r.1 ≠ i) : row rows i = [] := by
  unfold row
  rw [filter_eq_nil_iff.2 fun r hr => by simpa using h r hr]
  rfl

/-- The row of an ordinal that occurs once. -/
theorem row_of_mem (h : rows.Pairwise fun a b => a.1 < b.1) (hr : r ∈ rows) :
    row rows r.1 = r.2 := by
  induction rows with
  | nil => cases hr
  | cons r' rows ih =>
    obtain ⟨hfirst, htail⟩ := pairwise_cons.1 h
    rw [row_cons]
    rcases mem_cons.1 hr with rfl | hr
    · rw [if_pos rfl, row_eq_nil fun x hx => (hfirst x hx).ne', append_nil]
    · rw [if_neg (hfirst r hr).ne, ih htail hr, nil_append]

/-- The slice between the start of a row and the start of the next is the row. -/
theorem slice_eq (h : rows.Pairwise fun a b => a.1 < b.1) (i : Nat) :
    ((rows.flatMap Prod.snd).drop (start rows i)).take (start rows (i + 1) - start rows i) =
      row rows i := by
  rw [start_succ, Nat.add_sub_cancel_left]
  induction rows with
  | nil => simp [row]
  | cons r rows ih =>
    obtain ⟨hfirst, htail⟩ := pairwise_cons.1 h
    rw [flatMap_cons, start_cons, row_cons]
    by_cases hlt : r.1 < i
    · rw [if_pos hlt, if_neg hlt.ne, nil_append, ← drop_drop, drop_left]
      exact ih htail
    -- the rows that follow are all behind the row
    rw [if_neg hlt, start_eq_zero fun x hx => (Nat.not_lt.1 hlt).trans (hfirst x hx).le,
      row_eq_nil fun x hx => (Nat.lt_of_le_of_lt (Nat.not_lt.1 hlt) (hfirst x hx)).ne']
    by_cases heq : r.1 = i <;> simp [heq]

/-! ## The pointers -/

theorem length_countRows (counts : List Nat) (rows : List (Nat × List α)) :
    (countRows counts rows).length = counts.length := by
  induction rows generalizing counts with
  | nil => rfl
  | cons r rows ih => exact (ih _).trans (length_modify _ _ _)

theorem getD_modify (l : List Nat) (f : Nat → Nat) (i j : Nat) (h : j < l.length) :
    (l.modify i f).getD j 0 = if i = j then f (l.getD j 0) else l.getD j 0 := by
  rw [getD_eq_getElem _ _ (by rwa [length_modify]), getElem_modify, getD_eq_getElem _ _ h]

theorem getD_countRows (counts : List Nat) (rows : List (Nat × List α)) (h : i + 1 < counts.length)
    : (countRows counts rows).getD (i + 1) 0 = counts.getD (i + 1) 0 + (row rows i).length := by
  induction rows generalizing counts with
  | nil => rfl
  | cons r rows ih =>
    have hlen : i + 1 < (counts.modify (r.1 + 1) (· + r.2.length)).length := by
      rwa [length_modify]
    change (countRows (counts.modify (r.1 + 1) (· + r.2.length)) rows).getD (i + 1) 0 = _
    rw [ih _ hlen, getD_modify _ _ _ _ h, row_cons, length_append]
    by_cases heq : r.1 = i
    · simp only [heq, if_true]
      omega
    · simp only [heq, Nat.add_right_cancel_iff, if_false, length_nil]
      omega

theorem getD_zero_countRows (counts : List Nat) (rows : List (Nat × List α))
    (h : 0 < counts.length) : (countRows counts rows).getD 0 0 = counts.getD 0 0 := by
  induction rows generalizing counts with
  | nil => rfl
  | cons r rows ih =>
    change (countRows (counts.modify (r.1 + 1) (· + r.2.length)) rows).getD 0 0 = _
    rw [ih _ (by rwa [length_modify]), getD_modify _ _ _ _ h, if_neg (Nat.succ_ne_zero _)]

/-- After the loop has passed a position, it holds the sum of the counters up to it. -/
theorem getD_prefixSums_loop (counts : List Nat) (m : Nat) (hm : m < counts.length) :
    ((range' 1 m).foldl (fun sums i => sums.modify i (· + sums.getD (i - 1) 0))
        counts).length = counts.length ∧
      ∀ j, j < counts.length →
        ((range' 1 m).foldl (fun sums i => sums.modify i (· + sums.getD (i - 1) 0))
          counts).getD j 0 =
            if j ≤ m then (counts.take (j + 1)).sum else counts.getD j 0 := by
  induction m with
  | zero =>
    refine ⟨rfl, fun j hj => ?_⟩
    rcases j with _ | j
    · cases counts with
      | nil => cases hj
      | cons => simp
    · simp
  | succ m ih =>
    obtain ⟨hlen, hget⟩ := ih (Nat.lt_of_succ_lt hm)
    rw [range'_concat, foldl_append]
    generalize (range' 1 m).foldl (fun sums i => sums.modify i (· + sums.getD (i - 1) 0))
      counts = sums at hlen hget
    simp only [foldl_cons, foldl_nil, one_mul, Nat.add_sub_cancel_left, length_modify]
    refine ⟨hlen, fun j hj => ?_⟩
    rw [getD_modify _ _ _ _ (hlen ▸ hj), hget j hj, hget m (Nat.lt_of_succ_lt hm)]
    by_cases heq : 1 + m = j
    · obtain rfl : m + 1 = j := by omega
      have hnot : ¬ m + 1 ≤ m := by omega
      rw [if_pos heq, if_neg hnot, if_pos (le_refl m), if_pos (le_refl _),
        sum_take_succ _ _ hj, getD_eq_getElem _ _ hj, Nat.add_comm]
    · by_cases hle : j ≤ m
      · rw [if_neg heq, if_pos hle, if_pos (hle.trans (Nat.le_succ m))]
      · rw [if_neg heq, if_neg hle, if_neg (by omega)]

/-- The counting loop and the adding loop leave the start of each row. -/
theorem prefixSums_countRows (n : Nat) (rows : List (Nat × List α)) :
    prefixSums (countRows (replicate (n + 1) 0) rows) = (range (n + 1)).map (start rows) := by
  have hlen : (countRows (replicate (n + 1) 0) rows).length = n + 1 := by
    rw [length_countRows, length_replicate]
  have hzero : (replicate (n + 1) 0).getD 0 0 = 0 := rfl
  have hsum : ∀ j, j < n + 1 →
      ((countRows (replicate (n + 1) 0) rows).take (j + 1)).sum = start rows j := by
    intro j hj
    induction j with
    | zero =>
      have hfirst := getD_zero_countRows (replicate (n + 1) 0) rows (by simp)
      cases hcounts : countRows (replicate (n + 1) 0) rows with
      | nil => rw [hcounts] at hlen; cases hlen
      | cons =>
        rw [hcounts, hzero] at hfirst
        rw [start_eq_zero fun _ _ => Nat.zero_le _]
        simpa using hfirst
    | succ j ih =>
      have hgetD := getD_countRows (replicate (n + 1) 0) rows (by simpa using hj)
      have hj' : j + 1 < (countRows (replicate (n + 1) 0) rows).length := by rwa [hlen]
      rw [getD_eq_getElem _ _ hj', getD_replicate _ hj, Nat.zero_add] at hgetD
      rw [sum_take_succ _ _ hj', ih (Nat.lt_of_succ_lt hj), hgetD, start_succ]
  obtain ⟨hlen', hget⟩ := getD_prefixSums_loop (countRows (replicate (n + 1) 0) rows) n
    (by rw [hlen]; exact Nat.lt_succ_self n)
  unfold prefixSums
  rw [hlen, Nat.add_sub_cancel]
  refine ext_getElem (by rw [hlen', hlen, length_map, length_range]) fun j hj hj' => ?_
  have hj'' : j < n + 1 := by simpa using hj'
  rw [← getD_eq_getElem _ 0 hj, hget j (by rwa [hlen]), if_pos (Nat.lt_succ_iff.1 hj''),
    hsum j hj'', getElem_map, getElem_range]

/-! ## The elements -/

/-- The elements of all rows, each with its ordinal, in the order in which they are written. -/
def cells (rows : List (Nat × List α)) : List (Nat × α) :=
  rows.flatMap fun r => r.2.map fun x => (r.1, x)

/-- The elements written to the row `i`. -/
def written (cells : List (Nat × α)) (i : Nat) : List α :=
  (cells.filter fun c => c.1 = i).map Prod.snd

theorem fill_eq_foldl :
    fill state rows = (cells rows).foldl (fun state c => place c.1 state c.2) state := by
  rw [fill, cells, foldl_flatMap]
  simp [foldl_map]

theorem written_append (done todo : List (Nat × α)) :
    written (done ++ todo) i = written done i ++ written todo i := by
  rw [written, filter_append, map_append]
  rfl

theorem written_singleton : written [c] i = if c.1 = i then [c.2] else [] := by
  by_cases h : c.1 = i <;> simp [written, h]

theorem written_cells : written (cells rows) i = row rows i := by
  induction rows with
  | nil => rfl
  | cons r rows ih =>
    have hcells : cells (r :: rows) = (r.2.map fun x => (r.1, x)) ++ cells rows := flatMap_cons
    rw [hcells, written_append, ih, row_cons, written, filter_map, map_map]
    by_cases h : r.1 = i <;> simp [h, Function.comp_def]

/-- What the filling loop has done after some of the cells: each row is written from its start on,
up to its offset. -/
structure Filled (rows : List (Nat × List α)) (n : Nat) (done : List (Nat × α))
    (state : List α × List Nat) : Prop where
  length : state.1.length = start rows n
  offset : ∀ i < n, state.2[i]? = some (start rows i + (written done i).length)
  slot : ∀ i < n, ∀ k < (written done i).length, state.1[start rows i + k]? = (written done i)[k]?

theorem Filled.place (h : Filled rows n done state) (hcells : cells rows = done ++ c :: todo)
    (hc : c.1 < n) : Filled rows n (done ++ [c]) (place c.1 state c.2) := by
  have hfits : ∀ i, (written (done ++ [c]) i).length ≤ (row rows i).length := by
    intro i
    rw [← written_cells, hcells, append_cons done c todo, written_append (done ++ [c]) todo,
      length_append]
    exact Nat.le_add_right _ _
  have hwritten : ∀ i, written (done ++ [c]) i =
      written done i ++ if c.1 = i then [c.2] else [] := fun i => by
    rw [written_append, written_singleton]
  have hposition : state.2.getD c.1 0 = start rows c.1 + (written done c.1).length := by
    rw [getD_eq_getElem?_getD, h.offset c.1 hc, Option.getD_some]
  have hroom : start rows c.1 + (written done c.1).length < start rows (c.1 + 1) := by
    have hfit := hfits c.1
    rw [hwritten, if_pos rfl, length_append, length_singleton] at hfit
    rw [start_succ]
    omega
  have hend : start rows (c.1 + 1) ≤ start rows n := start_mono hc
  unfold Csr.place
  rw [hposition]
  refine ⟨by rw [length_set, h.length], fun i hi => ?_, fun i hi k hk => ?_⟩
  · rw [getElem?_modify, h.offset i hi, hwritten]
    by_cases heq : c.1 = i <;> simp [heq, Nat.add_assoc]
  rw [getElem?_set]
  by_cases heq : c.1 = i
  · subst heq
    rw [hwritten, if_pos rfl] at hk ⊢
    rw [length_append, length_singleton] at hk
    by_cases hlast : k = (written done c.1).length
    · subst hlast
      rw [if_pos rfl, if_pos (by rw [h.length]; omega), getElem?_concat_length]
    · rw [if_neg (by omega), h.slot c.1 hi k (by omega), getElem?_append_left (by omega)]
  · -- the rows do not overlap
    have hslot : start rows i + k < start rows (i + 1) := by
      have hfit := hfits i
      rw [start_succ]
      omega
    have hne : start rows c.1 + (written done c.1).length ≠ start rows i + k := by
      rcases Nat.lt_or_gt_of_ne heq with hlt | hlt
      · have hmono : start rows (c.1 + 1) ≤ start rows i := start_mono hlt
        omega
      · have hmono : start rows (i + 1) ≤ start rows c.1 := start_mono hlt
        omega
    rw [hwritten, if_neg heq, append_nil] at hk ⊢
    rw [if_neg hne, h.slot i hi k hk]

theorem Filled.foldl (h : Filled rows n done state) (hcells : cells rows = done ++ todo)
    (hrows : ∀ r ∈ rows, r.1 < n) :
    Filled rows n (cells rows) (todo.foldl (fun state c => Csr.place c.1 state c.2) state) := by
  induction todo generalizing done state with
  | nil =>
    rw [hcells, append_nil]
    exact h
  | cons c todo ih =>
    have hmem : c ∈ cells rows := hcells ▸ mem_append_right _ mem_cons_self
    obtain ⟨r, hr, hmem⟩ := mem_flatMap.1 hmem
    obtain ⟨x, -, rfl⟩ := mem_map.1 hmem
    exact ih (h.place hcells (hrows r hr)) (by rw [hcells, append_cons])

/-- A list that has every row at its start is the rows one after the other. -/
theorem take_start (l : List α)
    (h : ∀ i < n, (l.drop (start rows i)).take (row rows i).length = row rows i) :
    l.take (start rows n) = (range n).flatMap (row rows) := by
  induction n with
  | zero =>
    rw [start_eq_zero fun _ _ => Nat.zero_le _]
    rfl
  | succ n ih =>
    rw [start_succ, take_add, ih fun i hi => h i (Nat.lt_succ_of_lt hi),
      h n (Nat.lt_succ_self n), range_succ, flatMap_append, flatMap_singleton]

theorem length_flatMap_row (rows : List (Nat × List α)) (n : Nat) :
    ((range n).flatMap (row rows)).length = start rows n := by
  induction n with
  | zero => exact (start_eq_zero fun _ _ => Nat.zero_le _).symm
  | succ n ih =>
    rw [range_succ, flatMap_append, flatMap_singleton, length_append, ih, start_succ]

/-- The slice between two pointers, of the rows one after the other. -/
theorem slice_flatMap_row (hi : i < n) :
    (((range n).flatMap (row rows)).drop (start rows i)).take
      (start rows (i + 1) - start rows i) = row rows i := by
  obtain ⟨m, rfl⟩ := Nat.exists_eq_add_of_lt hi
  have hrange : range (i + m + 1) = range i ++ i :: (range m).map (i + 1 + ·) := by
    rw [Nat.add_assoc, range_add, Nat.add_comm m 1, range_add, map_append, map_map]
    simp
  rw [hrange, flatMap_append, flatMap_cons, ← length_flatMap_row rows i,
    drop_left, length_flatMap_row, start_succ, Nat.add_sub_cancel_left, take_left]

/-- The filling loop, started at the pointers, writes the rows one after the other. -/
theorem fill_eq (hrows : ∀ r ∈ rows, r.1 < n) :
    (fill (replicate (rows.flatMap Prod.snd).length x, (range n).map (start rows))
      rows).1 = (List.range n).flatMap (row rows) := by
  have hinit : Filled rows n [] (replicate (rows.flatMap Prod.snd).length x,
      (range n).map (start rows)) := by
    refine ⟨?_, fun i hi => ?_, nofun⟩
    · rw [length_replicate, start_eq_length hrows]
    · rw [getElem?_map, getElem?_range hi]
      rfl
  have hfilled := hinit.foldl (nil_append _).symm hrows
  rw [fill_eq_foldl, ← take_start, ← hfilled.length, take_length]
  intro i hi
  refine ext_getElem? fun k => ?_
  rw [getElem?_take, getElem?_drop]
  split
  · next hk =>
    rw [← written_cells] at hk ⊢
    exact hfilled.slot i hi k hk
  · next hk => rw [getElem?_eq_none (Nat.le_of_not_lt hk)]

/-- Rows in ascending order are written in their own order. -/
theorem flatMap_row (h : rows.Pairwise fun a b => a.1 < b.1) (hrows : ∀ r ∈ rows, r.1 < n) :
    (range n).flatMap (row rows) = rows.flatMap Prod.snd := by
  rw [← take_start (rows.flatMap Prod.snd), start_eq_length hrows, take_length]
  intro i _
  have hslice := slice_eq h i
  rwa [start_succ, Nat.add_sub_cancel_left] at hslice

end Csr
