import HydraDb.Query.Finish
import HydraDb.Lib.BoundedSort

/-!
# The bounded window of `ORDER BY`

A query with `ORDER BY`, `SKIP` and `LIMIT` that reads its rows from an index keeps only the first
`skip + limit` of them while it scans (`OrderedRowWindow`, `shard/query.rs`): a max-heap of rows
with their ordinals in the stream, whose top gives way to a smaller row. The comparison of the rows
is that of their codes: `QueryValue.sortCode` writes a value as a list of keys in which the keys of
a list's elements follow each other and end with a key below all others, so that comparing codes
compares element by element (`compare_sortCode`). So the comparison is a total preorder, and the
window holds the first rows of the stable sort (`OrderedRowWindow.pushed`).
-/

namespace HydraDb

open List QueryValue

/-! ## The order of the values -/

/-- The place of a value among the values that are not lists: its rank, then its content. -/
def QueryValue.key : QueryValue → ℕ ×ₗ (ℕ ×ₗ ℤ ×ₗ ℤ ×ₗ String) ×ₗ List Nat
  | .bool value => toLex (1, toLex ((ValueMeaning.bool value).key, []))
  | .vertexId value | .count value => toLex (2, toLex ((ValueMeaning.number value.toNat).key, []))
  | .float bits => toLex (3, toLex ((ValueMeaning.nan bits).key, []))
  | .property value => toLex (4, toLex (value.meaning.key, []))
  | .list _ => toLex (8, toLex ((ValueMeaning.bool false).key, []))
  | .path value => toLex (9, toLex ((ValueMeaning.bool false).key, value.code))
  | .null => toLex (255, toLex ((ValueMeaning.bool false).key, []))

/-- The key after the last element of a list, below the keys of all values. -/
def endKey : ℕ ×ₗ (ℕ ×ₗ ℤ ×ₗ ℤ ×ₗ String) ×ₗ List Nat :=
  toLex (0, toLex ((ValueMeaning.bool false).key, []))

mutual
/-- The keys of a value: of a list, its own key and then those of its elements. -/
def QueryValue.sortCode : QueryValue → List (ℕ ×ₗ (ℕ ×ₗ ℤ ×ₗ ℤ ×ₗ String) ×ₗ List Nat)
  | .list values => (list values).key :: sortCodes values
  | value => [value.key]

def QueryValue.sortCodes : List QueryValue → List (ℕ ×ₗ (ℕ ×ₗ ℤ ×ₗ ℤ ×ₗ String) ×ₗ List Nat)
  | [] => [endKey]
  | value :: values => value.sortCode ++ sortCodes values
end

theorem compareVertexPropertyOrder_eq (left right : VertexPropertyValue) :
    compareVertexPropertyOrder left right = compareMeanings left right := by
  have hspec := numericPropertyOrder_spec left right
  unfold compareVertexPropertyOrder
  cases horder : numericPropertyOrder left right with
  | some => simpa [horder] using hspec
  | none =>
    cases left <;> cases right
    case bool.bool a b => cases a <;> cases b <;> rfl
    case string.string =>
      simp [compareMeanings, VertexPropertyValue.meaning, ValueMeaning.key, Prod.Lex.compare_def,
        compareLex, compareOn]
    all_goals first
      | (simp [numericPropertyOrder] at horder; done)
      | rfl
      | (simp only [compareMeanings, VertexPropertyValue.meaning]; split <;> rfl)

theorem compare_ranked (rank : Nat) (a b : ℕ ×ₗ ℤ ×ₗ ℤ ×ₗ String) (as bs : List Nat) :
    compare (toLex (rank, toLex (a, as))) (toLex (rank, toLex (b, bs))) =
      (compare a b).then (compare as bs) := by
  simp [Prod.Lex.compare_def, compareLex, compareOn]

/-- Values that are not both lists compare by their keys; those of two lists are the same. -/
theorem compare_key (a b : QueryValue) :
    compare a.key b.key =
      match a, b with
      | .list _, .list _ => .eq
      | a, b => compareQueryValues a b := by
  cases a <;> cases b
  case bool.bool a b => cases a <;> cases b <;> rfl
  case property.property =>
    simp [key, compareQueryValues, compare_ranked, compareVertexPropertyOrder_eq, compareMeanings]
  all_goals first
    | rfl
    | (simp [key, compareQueryValues, compare_ranked, compare_number, compare_natCast,
        compare_nan]; done)
    | (rename_i v; cases v <;> rfl)
    | (rename_i v _; cases v <;> rfl)

/-- A list ends before any other one goes on. -/
theorem compare_endKey (a : QueryValue) : compare endKey a.key = .lt := by
  cases a <;> rfl

theorem key_compare_endKey (a : QueryValue) : compare a.key endKey = .gt := by
  cases a <;> rfl

theorem compare_cons (a b : κ) [Ord κ] (r s : List κ) :
    compare (a :: r) (b :: s) = (compare a b).then (compare r s) := List.compareLex_cons_cons

theorem sortCode_eq_cons (a : QueryValue) : ∃ rest, a.sortCode = a.key :: rest := by
  cases a <;> exact ⟨_, rfl⟩

mutual
/-- Values compare as their codes do, whatever follows the codes. -/
theorem compare_sortCode : ∀ (a b : QueryValue) r s,
    compare (a.sortCode ++ r) (b.sortCode ++ s) = (compareQueryValues a b).then (compare r s)
  | a, b, r, s => by
    have hkey := compare_key a b
    cases a <;> cases b
    case list.list as bs => exact (compare_cons ..).trans (compare_sortCodes as bs r s)
    all_goals exact (compare_cons ..).trans (congrArg (Ordering.then · (compare r s)) hkey)

theorem compare_sortCodes : ∀ (as bs : List QueryValue) r s,
    compare (sortCodes as ++ r) (sortCodes bs ++ s) = (compareQueryLists as bs).then (compare r s)
  | [], [], r, s => by simp [sortCodes, compareQueryLists]
  | [], b :: bs, r, s => by
    obtain ⟨rest, hrest⟩ := sortCode_eq_cons b
    simp [sortCodes, compareQueryLists, hrest, compare_endKey]
  | a :: as, [], r, s => by
    obtain ⟨rest, hrest⟩ := sortCode_eq_cons a
    simp [sortCodes, compareQueryLists, hrest, key_compare_endKey]
  | a :: as, b :: bs, r, s => by
    simp only [sortCodes, append_assoc]
    rw [compare_sortCode, compare_sortCodes, compareQueryLists]
    cases compareQueryValues a b <;> rfl
end

theorem compareQueryValues_eq : compareQueryValues = compareOn sortCode := by
  funext a b
  simpa [compareOn] using (compare_sortCode a b [] []).symm

/-- The comparison of `ORDER BY` is a total preorder. -/
instance : Std.TransCmp compareQueryValues := compareQueryValues_eq ▸ inferInstance

/-! ## The order of the rows -/

/-- The comparison of the images is as good as the comparison itself. -/
theorem transCmp_comap (cmp : α → α → Ordering) [Std.TransCmp cmp] (f : β → α) :
    Std.TransCmp fun a b => cmp (f a) (f b) where
  eq_swap := Std.OrientedCmp.eq_swap
  isLE_trans := Std.TransCmp.isLE_trans

/-- One sort key, in its direction. -/
def compareSortKey (sort : RowSort) (left right : List QueryValue) : Ordering :=
  if sort.ascending then compareQueryValues (left.headD .null) (right.headD .null)
  else compareQueryValues (right.headD .null) (left.headD .null)

instance (sort : RowSort) : Std.TransCmp (compareSortKey sort) := by
  have hkey := transCmp_comap compareQueryValues (headD · .null)
  unfold compareSortKey
  cases sort.ascending
  · exact @Std.TransCmp.opposite _ _ hkey
  · exact hkey

theorem compareProjectedRows_cons :
    compareProjectedRows left right (sort :: sorts) =
      (compareSortKey sort left right).then (compareProjectedRows left.tail right.tail sorts) := by
  have hswap : compareQueryValues (right.headD .null) (left.headD .null) =
      (compareQueryValues (left.headD .null) (right.headD .null)).swap := Std.OrientedCmp.eq_swap
  rw [compareProjectedRows, compareSortKey, hswap]
  cases sort.ascending <;> cases compareQueryValues (left.headD .null) (right.headD .null) <;> rfl

instance compareProjectedRows_transCmp (orderBy : List RowSort) :
    Std.TransCmp fun left right => compareProjectedRows left right orderBy := by
  induction orderBy with
  | nil => exact { eq_swap := rfl, isLE_trans := fun _ _ => rfl }
  | cons sort sorts =>
    have hrest := transCmp_comap (fun left right => compareProjectedRows left right sorts) tail
    simp only [compareProjectedRows_cons]
    exact inferInstanceAs (Std.TransCmp (compareLex (compareSortKey sort) _))

/-- The comparison of `compare_projected_rows`. -/
def compareRows (orderBy : List RowSort) (left right : ProjectedQueryRow) : Ordering :=
  compareProjectedRows left.sortKeys right.sortKeys orderBy

instance (orderBy : List RowSort) : Std.TransCmp (compareRows orderBy) :=
  transCmp_comap (fun left right => compareProjectedRows left right orderBy)
    ProjectedQueryRow.sortKeys

/-- The stable sort, also when there is nothing to sort by. -/
theorem sortProjectedRows_eq :
    sortProjectedRows orderBy rows =
      rows.mergeSort fun left right => compareRows orderBy left right != .gt := by
  unfold sortProjectedRows
  split
  · next h =>
    rw [isEmpty_iff.1 h]
    exact (mergeSort_of_pairwise (pairwise_of_forall fun _ _ => rfl)).symm
  · rfl

/-! ## The window -/

/-- `OrderedWindowRow::cmp`: rows with the same sort keys keep the order of the stream. -/
def compareWindowRows (orderBy : List RowSort) : ProjectedQueryRow × Nat →
    ProjectedQueryRow × Nat → Ordering := BoundedSort.cmpOrdinal (compareRows orderBy)

/-- `OrderedRowWindow`. A row comes with its ordinal; the heap is the list of its rows in ascending
order, so that its top is the last one. -/
structure OrderedRowWindow where
  rows : List (ProjectedQueryRow × Nat)
  limit : Nat
  nextOrdinal : Nat
  orderBy : List RowSort

namespace OrderedRowWindow

/-- `OrderedRowWindow::new`. -/
def new (limit : Nat) (orderBy : List RowSort) : OrderedRowWindow := ⟨[], limit, 0, orderBy⟩

/-- `BinaryHeap::push` into the rows. -/
def insert (window : OrderedRowWindow) (entry : ProjectedQueryRow × Nat)
    (rows : List (ProjectedQueryRow × Nat)) : List (ProjectedQueryRow × Nat) :=
  rows.orderedInsert (fun a b => (compareWindowRows window.orderBy a b).isLE = true) entry

/-- `OrderedRowWindow::push`. -/
def push (window : OrderedRowWindow) (row : ProjectedQueryRow) : OrderedRowWindow :=
  let entry := (row, window.nextOrdinal)
  let window := { window with nextOrdinal := window.nextOrdinal + 1 }
  if window.rows.length < window.limit then
    { window with rows := window.insert entry window.rows }
  else
    match window.rows.getLast? with
    | some worst =>
      if compareWindowRows window.orderBy entry worst = .lt then
        { window with rows := window.insert entry window.rows.dropLast }
      else window
    | none => window

/-- `OrderedRowWindow::into_rows`. -/
def intoRows (window : OrderedRowWindow) : List ProjectedQueryRow := window.rows.map Prod.fst

variable {window : OrderedRowWindow}

open BoundedSort

/-- A push puts the row to its place and keeps the first rows. -/
theorem push_eq (row : ProjectedQueryRow)
    (hrows : window.rows.Pairwise (InOrder (compareRows window.orderBy)))
    (hlength : window.rows.length ≤ window.limit)
    (hordinals : ∀ entry ∈ window.rows, entry.2 < window.nextOrdinal) :
    window.push row = { window with
      rows := (window.rows.orderedInsert (InOrder (compareRows window.orderBy))
        (row, window.nextOrdinal)).take window.limit
      nextOrdinal := window.nextOrdinal + 1 } := by
  obtain ⟨rows, limit, nextOrdinal, orderBy⟩ := window
  dsimp only [push] at hrows hlength hordinals ⊢
  split
  · rw [take_of_length_le (by rw [orderedInsert_length]; omega)]
    rfl
  obtain rfl : limit = rows.length := by omega
  rcases eq_nil_or_concat rows with rfl | ⟨init, last, rfl⟩
  · rfl
  rw [concat_eq_append] at *
  rw [take_length_orderedInsert hrows, getLast?_concat, dropLast_concat]
  have hiff : InOrder (compareRows orderBy) (row, nextOrdinal) last ↔
      compareWindowRows orderBy (row, nextOrdinal) last = .lt :=
    inOrder_iff_lt (hordinals last (by simp))
  by_cases hlt : compareWindowRows orderBy (row, nextOrdinal) last = .lt
  · simp only [if_pos hlt, if_pos (hiff.2 hlt)]
    rfl
  · simp [if_neg hlt, if_neg (mt hiff.1 hlt)]

/-- **The window holds the first rows of the stable sort.** -/
theorem pushed (limit : Nat) (orderBy : List RowSort) (stream : List ProjectedQueryRow) :
    stream.foldl push (new limit orderBy) =
      ⟨(sorted (compareRows orderBy) stream).take limit, limit, stream.length, orderBy⟩ := by
  induction stream using reverseRecOn with
  | nil => simp [new, sorted]
  | append_singleton stream row ih =>
    rw [foldl_concat, ih, push_eq, take_orderedInsert, ← sorted_append,
      length_append, length_singleton]
    · exact pairwise_sorted.take
    · exact length_take_le ..
    · intro entry hentry
      exact (List.getElem?_eq_some_iff.1 (mem_sorted.1 (mem_of_mem_take hentry))).1

end OrderedRowWindow

/-- **The bounded window of `ORDER BY`.** The comparison of values is a total preorder; for all sort
keys, every stream of rows and every `SKIP` and `LIMIT`, the rows that the window keeps are the
first `skip + limit` of the stable sort of the stream, and the result is that of the stream. -/
theorem orderedRowWindow_exact : Std.TransCmp compareQueryValues ∧
    ∀ (orderBy : List RowSort) (stream : List ProjectedQueryRow) (skip limit : Nat),
      let kept := (stream.foldl OrderedRowWindow.push (.new (skip + limit) orderBy)).intoRows
      kept = (sortProjectedRows orderBy stream).take (skip + limit) ∧
      ∀ limits columns,
        finishProjectedRows limits columns kept orderBy false ⟨skip, some limit⟩ =
          finishProjectedRows limits columns stream orderBy false ⟨skip, some limit⟩ := by
  refine ⟨inferInstance, fun orderBy stream skip limit => ?_⟩
  have hkept : (stream.foldl OrderedRowWindow.push (.new (skip + limit) orderBy)).intoRows =
      (sortProjectedRows orderBy stream).take (skip + limit) := by
    rw [OrderedRowWindow.pushed, OrderedRowWindow.intoRows, map_take,
      BoundedSort.map_sorted, sortProjectedRows_eq]
  refine ⟨hkept, fun limits columns => ?_⟩
  rw [hkept]
  -- sorting the kept rows again leaves them in place
  have hsorted : sortProjectedRows orderBy ((sortProjectedRows orderBy stream).take
      (skip + limit)) = (sortProjectedRows orderBy stream).take (skip + limit) := by
    rw [sortProjectedRows_eq, sortProjectedRows_eq, BoundedSort.mergeSort_take]
  have hpage (rows : List ProjectedQueryRow) :
      ((rows.take (skip + limit)).drop skip).take limit = (rows.drop skip).take limit := by
    rw [drop_take, take_take, Nat.add_sub_cancel_left, Nat.min_self]
  simp only [finishProjectedRows, dedupRows, Bool.false_eq_true, if_false, Except.ok_bind, hsorted,
    ← map_take, hpage]

end HydraDb
