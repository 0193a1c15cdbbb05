import Mathlib.Data.List.Sort

/-!
# Keeping the first elements of a stable sort

The first `k` elements of a list in the order of a comparison, equal ones in the order in which they
came, can be kept while the list is read: each element gets its ordinal, which breaks the ties
(`cmpOrdinal`), goes to its place and pushes the last one out. What is kept are the first elements
of the stable sort: an element that comes last goes to its place in the sorted list
(`sorted_append`), and for the first elements after that only the first ones matter
(`List.take_orderedInsert`, `List.take_length_orderedInsert`).
-/

namespace List

variable {α : Type*} {r : α → α → Prop} [DecidableRel r]

/-- Of a list that gets an element, the first ones depend on the first ones only. -/
theorem take_orderedInsert (a : α) (l : List α) (k : Nat) :
    ((l.take k).orderedInsert r a).take k = (l.orderedInsert r a).take k := by
  induction l generalizing k with
  | nil => simp
  | cons b l ih =>
    cases k with
    | zero => simp
    | succ k =>
      rw [take_succ_cons, orderedInsert_cons, orderedInsert_cons]
      split
      · cases k <;> simp [take_take]
      · simp [ih]

/-- An element that goes into an ordered list pushes the last one out, unless it comes after it. -/
theorem take_length_orderedInsert [IsTrans α r] (h : (l ++ [b]).Pairwise r) :
    ((l ++ [b]).orderedInsert r a).take (l ++ [b]).length =
      if r a b then l.orderedInsert r a else l ++ [b] := by
  induction l with
  | nil => by_cases hab : r a b <;> simp [hab]
  | cons c l ih =>
    have ih := ih h.of_cons
    have hc : r c b := rel_of_pairwise_cons h (by simp)
    by_cases hac : r a c
    · have hab : r a b := trans_of r hac hc
      simp [hac, hab]
    · simp only [cons_append, orderedInsert_cons, if_neg hac, length_cons, take_succ_cons, ih]
      split <;> rfl

end List

namespace BoundedSort

variable {α : Type*} (cmp : α → α → Ordering)

/-- The order of elements with their ordinals. -/
def cmpOrdinal (a b : α × Nat) : Ordering := (cmp a.1 b.1).then (compare a.2 b.2)

/-- The first element comes no later than the second one. -/
def InOrder (a b : α × Nat) : Prop := (cmpOrdinal cmp a b).isLE = true

instance : DecidableRel (InOrder cmp) := fun _ _ => inferInstanceAs (Decidable (_ = true))

/-- The elements with their ordinals in the order of the stable sort. -/
def sorted (l : List α) : List (α × Nat) :=
  l.zipIdx.mergeSort fun a b => (cmpOrdinal cmp a b).isLE

variable {cmp} {l : List α}

theorem mem_sorted : (a, n) ∈ sorted cmp l ↔ l[n]? = some a :=
  List.mem_mergeSort.trans List.mk_mem_zipIdx_iff_getElem?

variable {a b : α × Nat}

/-- An element that comes later is in order before another one only if it is smaller. -/
theorem inOrder_iff_lt (h : b.2 < a.2) : InOrder cmp a b ↔ cmpOrdinal cmp a b = .lt := by
  refine Ordering.isLE_iff_eq_lt_or_eq_eq.trans (or_iff_left fun heq => ?_)
  have hgt := compare_gt_iff_gt.2 h
  rw [cmpOrdinal, Ordering.then_eq_eq, hgt] at heq
  cases heq.2

variable [Std.TransCmp cmp]

instance : Std.TransCmp (cmpOrdinal cmp) :=
  have : Std.TransCmp fun a b : α × Nat => cmp a.1 b.1 :=
    { eq_swap := Std.OrientedCmp.eq_swap, isLE_trans := Std.TransCmp.isLE_trans }
  inferInstanceAs (Std.TransCmp (compareLex _ (compareOn Prod.snd)))

instance : IsTrans _ (InOrder cmp) := ⟨fun _ _ _ => Std.TransCmp.isLE_trans⟩

instance : Std.Total (InOrder cmp) := ⟨fun a b => by
  have hswap : cmpOrdinal cmp b a = (cmpOrdinal cmp a b).swap := Std.OrientedCmp.eq_swap
  unfold InOrder
  rw [hswap]
  cases cmpOrdinal cmp a b <;> decide⟩

/-- Only elements with the same ordinal are in order both ways. -/
theorem InOrder.antisymm (h : InOrder cmp a b) (h' : InOrder cmp b a) : a.2 = b.2 := by
  have heq : cmpOrdinal cmp a b = .eq := Std.OrientedCmp.isLE_antisymm h h'
  rw [cmpOrdinal, Ordering.then_eq_eq] at heq
  exact compare_eq_iff_eq.1 heq.2

theorem pairwise_sorted : (sorted cmp l).Pairwise (InOrder cmp) := by
  apply List.pairwise_mergeSort
  · exact fun _ _ _ => Std.TransCmp.isLE_trans
  · exact fun a b => Bool.or_eq_true_iff.2 (total_of (InOrder cmp) a b)

/-- Dropping the ordinals gives the stable sort. -/
theorem map_sorted : (sorted cmp l).map Prod.fst = l.mergeSort fun a b => cmp a b != .gt := by
  have hle (a b : α × Nat) :
      (cmpOrdinal cmp a b).isLE = List.zipIdxLE (fun a b => cmp a b != .gt) a b := by
    have hswap : cmp b.1 a.1 = (cmp a.1 b.1).swap := Std.OrientedCmp.eq_swap
    rw [cmpOrdinal, List.zipIdxLE, hswap]
    cases cmp a.1 b.1
    case eq => exact Bool.eq_iff_iff.2 (Nat.isLE_compare.trans (by simp))
    all_goals rfl
  simp only [sorted, hle]
  exact List.mergeSort_zipIdx

/-- The first elements of the stable sort are sorted. -/
theorem mergeSort_take :
    ((l.mergeSort fun a b => cmp a b != .gt).take k).mergeSort (fun a b => cmp a b != .gt) =
      (l.mergeSort fun a b => cmp a b != .gt).take k := by
  refine List.mergeSort_of_pairwise (List.Pairwise.take ?_)
  rw [← map_sorted]
  refine List.pairwise_map.2 (pairwise_sorted.imp fun {a b} h => ?_)
  rw [InOrder, cmpOrdinal] at h
  cases hab : cmp a.1 b.1
  case gt => simp [hab] at h
  all_goals rfl

/-- An element that comes last goes to its place. -/
theorem sorted_append (l : List α) (a : α) :
    sorted cmp (l ++ [a]) = (sorted cmp l).orderedInsert (InOrder cmp) (a, l.length) := by
  have hperm : (sorted cmp (l ++ [a])).Perm
      ((sorted cmp l).orderedInsert (InOrder cmp) (a, l.length)) := by
    refine (List.mergeSort_perm ..).trans ?_
    rw [List.zipIdx_append, Nat.zero_add]
    refine (List.perm_append_singleton ..).trans ?_
    exact ((List.mergeSort_perm ..).symm.cons _).trans (List.perm_orderedInsert ..).symm
  refine List.Perm.eq_of_pairwise (fun x y hx hy hxy hyx => ?_) pairwise_sorted
    (pairwise_sorted.orderedInsert _ _) hperm
  -- both are in the list under one ordinal
  have hordinal := hxy.antisymm hyx
  have hx := mem_sorted.1 hx
  have hy := mem_sorted.1 (hperm.mem_iff.2 hy)
  rw [hordinal, hy] at hx
  exact Prod.ext (Option.some.inj hx).symm hordinal

end BoundedSort
