import Mathlib.Data.List.Sort
import Mathlib.Order.Defs.LinearOrder

/-!
# Sorting by a key, keeping the order of ties

A stable sort by a key is determined by the sublists it keeps: for every key, the elements of that
key come out in the order in which they went in (`filter_sortBy`), and a list in key order is known
from these sublists (`eq_of_filter_eq`). So what a stable sort of a concatenation gives does not
depend on whether the parts were sorted before (`sortBy_append_sortBy`), and the parts may be
swapped exactly when they may be swapped key by key (`sortBy_append_comm_iff`).
-/

namespace List

variable {α κ : Type*} [LinearOrder κ]

/-- The list in the order of its keys; elements of one key keep their order. -/
def sortBy (key : α → κ) (l : List α) : List α := l.insertionSort fun a b => key a ≤ key b

variable {key : α → κ} {l : List α}

/-- Sorting only moves elements. -/
theorem sortBy_perm (key : α → κ) (l : List α) : (sortBy key l).Perm l := perm_insertionSort _ l

/-- A sorted list is in the order of its keys. -/
theorem pairwise_sortBy (key : α → κ) (l : List α) :
    (sortBy key l).Pairwise fun a b => key a ≤ key b :=
  have : IsTrans α fun a b => key a ≤ key b := ⟨fun _ _ _ => le_trans⟩
  have : @Std.Total α fun a b => key a ≤ key b := ⟨fun a b => le_total (key a) (key b)⟩
  pairwise_insertionSort _ l

/-- An element goes before those of its own key, so it comes first among them. -/
theorem filter_orderedInsert :
    (l.orderedInsert (fun a b => key a ≤ key b) a).filter (fun b => key b = k) =
      if key a = k then a :: l.filter (fun b => key b = k) else l.filter (fun b => key b = k) := by
  induction l with
  | nil => by_cases h : key a = k <;> simp [h]
  | cons b l ih =>
    rw [orderedInsert_cons]
    by_cases hab : key a ≤ key b
    · rw [if_pos hab]
      by_cases h : key a = k <;> simp [h]
    rw [if_neg hab, filter_cons, ih]
    by_cases hb : key b = k
    · have ha : key a ≠ k := fun ha => hab (ha.trans hb.symm).le
      simp [hb, ha]
    · simp [hb]

/-- Sorting keeps, for each key, the elements of that key in their order. -/
theorem filter_sortBy :
    (sortBy key l).filter (fun b => key b = k) = l.filter (fun b => key b = k) := by
  induction l with
  | nil => rfl
  | cons a l ih =>
    unfold sortBy at ih ⊢
    rw [insertionSort_cons, filter_orderedInsert, ih]
    by_cases h : key a = k <;> simp [h]

/-- A list in key order is known from its elements of each key. -/
theorem eq_of_filter_eq (hl : l.Pairwise fun a b => key a ≤ key b)
    (hl' : l'.Pairwise fun a b => key a ≤ key b)
    (h : ∀ k, l.filter (fun b => key b = k) = l'.filter (fun b => key b = k)) : l = l' := by
  have mem_iff x : x ∈ l ↔ x ∈ l' := by
    have := congrArg (x ∈ ·) (h (key x))
    simpa using this
  induction l generalizing l' with
  | nil => exact (eq_nil_iff_forall_not_mem.2 fun x hx => by simpa using (mem_iff x).2 hx).symm
  | cons a l ih =>
    cases l' with
    | nil => simpa using (mem_iff a).1 mem_cons_self
    | cons b l' =>
      -- each head is in the other list, so neither key is below the other
      have hab : key a ≤ key b := by
        rcases mem_cons.1 ((mem_iff b).2 mem_cons_self) with rfl | hb
        · exact le_rfl
        · exact rel_of_pairwise_cons hl hb
      have hba : key b ≤ key a := by
        rcases mem_cons.1 ((mem_iff a).1 mem_cons_self) with rfl | ha
        · exact le_rfl
        · exact rel_of_pairwise_cons hl' ha
      have hkey : key b = key a := le_antisymm hba hab
      obtain rfl : a = b := by
        have := h (key a)
        simp only [filter_cons, hkey, decide_true, if_true] at this
        exact (cons.inj this).1
      have htail k : l.filter (fun b => key b = k) = l'.filter (fun b => key b = k) := by
        have := h k
        by_cases hk : key a = k <;> simpa [hk] using this
      rw [ih hl.of_cons hl'.of_cons htail fun x => ?_]
      have := congrArg (x ∈ ·) (htail (key x))
      simpa using this

/-- Two sorted lists are equal when the lists have the same elements of each key in the same
order. -/
theorem sortBy_eq_iff :
    sortBy key l = sortBy key l' ↔
      ∀ k, l.filter (fun b => key b = k) = l'.filter (fun b => key b = k) := by
  constructor
  · intro h k
    rw [← filter_sortBy, h, filter_sortBy]
  · intro h
    refine eq_of_filter_eq (pairwise_sortBy key l) (pairwise_sortBy key l') fun k => ?_
    rw [filter_sortBy, filter_sortBy, h k]

/-- Sorting is done once. -/
@[simp] theorem sortBy_sortBy : sortBy key (sortBy key l) = sortBy key l :=
  sortBy_eq_iff.2 fun _ => filter_sortBy

/-- The parts of a concatenation may be sorted before it. -/
theorem sortBy_append_sortBy :
    sortBy key (sortBy key l ++ sortBy key l') = sortBy key (l ++ l') := by
  refine sortBy_eq_iff.2 fun k => ?_
  rw [filter_append, filter_append, filter_sortBy, filter_sortBy]

/-- The parts may be sorted before they are put together. -/
theorem sortBy_flatMap_sortBy (key : α → κ) (parts : List β) (f : β → List α) :
    sortBy key (parts.flatMap fun p => sortBy key (f p)) = sortBy key (parts.flatMap f) := by
  induction parts with
  | nil => rfl
  | cons p parts ih =>
    rw [flatMap_cons, flatMap_cons, ← sortBy_append_sortBy, ih, sortBy_sortBy, sortBy_append_sortBy]

/-- What follows two parts does not matter for whether they may be swapped. -/
theorem sortBy_append_comm_iff :
    sortBy key (l ++ (l' ++ r)) = sortBy key (l' ++ (l ++ r)) ↔
      sortBy key (l ++ l') = sortBy key (l' ++ l) := by
  simp [sortBy_eq_iff, ← append_assoc]

/-- Sorting the concatenation of parts, of which any two may be swapped, gives the same for every
order of the parts. -/
theorem sortBy_flatMap_perm {parts : List β} (h : parts.Perm parts')
    (comm : parts.Pairwise fun p q => sortBy key (f p ++ f q) = sortBy key (f q ++ f p)) :
    sortBy key (parts.flatMap f) = sortBy key (parts'.flatMap f) := by
  induction h with
  | nil => rfl
  | cons a _ ih =>
    rw [flatMap_cons, flatMap_cons, ← sortBy_append_sortBy, ih comm.of_cons, sortBy_append_sortBy]
  | swap =>
    simp only [flatMap_cons]
    exact sortBy_append_comm_iff.2 (rel_of_pairwise_cons comm mem_cons_self)
  | trans h₁ _ ih₁ ih₂ => exact (ih₁ comm).trans (ih₂ (comm.perm h₁ fun h => h.symm))

end List
