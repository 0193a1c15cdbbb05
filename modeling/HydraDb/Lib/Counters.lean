import HydraDb.Lib.OrdMap
import Mathlib.Algebra.Order.Ring.Nat

/-!
# Tables of counters

A table of natural numbers in which an absent entry counts zero, as a program keeps degree or
reference counters: `count` reads one, `bump` adds one to an accumulator, and `addAllCounts` and
`subAllCounts` add or subtract a whole accumulator to the table it belongs to. Subtraction stops
at zero.

What such counters count is the size of one set in a family: the second part says how the sizes
change when elements join or leave one set of the family.
-/

namespace OrdMap

variable {K : Type*} [LinearOrder K]

/-- The value of a counter; an absent one is zero. -/
def count (m : OrdMap K Nat) (k : K) : Nat := (m.get k).getD 0

/-- Add one to a counter. -/
def bump (m : OrdMap K Nat) (k : K) : OrdMap K Nat := m.put k (m.count k + 1)

/-- Add every entry of `increments` to its counter. -/
def addAllCounts (m increments : OrdMap K Nat) : OrdMap K Nat :=
  increments.entries.foldl (fun m e => m.put e.1 (m.count e.1 + e.2)) m

/-- Subtract every entry of `decrements` from its counter. -/
def subAllCounts (m decrements : OrdMap K Nat) : OrdMap K Nat :=
  decrements.entries.foldl (fun m e => m.put e.1 (m.count e.1 - e.2)) m

variable {m increments : OrdMap K Nat} {k : K}

theorem count_put : (m.put k n).count k' = if k' = k then n else m.count k' := by
  rw [count, get_put]
  split <;> rfl

theorem count_del : (m.del k).count k' = if k' = k then 0 else m.count k' := by
  rw [count, get_del]
  split <;> rfl

theorem count_bump : (m.bump k).count k' = m.count k' + if k' = k then 1 else 0 := by
  rw [bump, count_put]
  split
  · next h => rw [h]
  · rfl

theorem natCast_count_bump :
    ((m.bump k).count k' : Int) = m.count k' + if k' = k then 1 else 0 := by
  rw [count_bump]
  split <;> rfl

/-- Rewriting the counters of a list of distinct keys changes each of them once. -/
theorem count_foldl_put (f : Nat → Nat → Nat) (hf : ∀ n, f n 0 = n) (es : List (K × Nat))
    (hes : es.Pairwise fun a b => a.1 < b.1) (m : OrdMap K Nat) (k : K) :
    (es.foldl (fun m e => m.put e.1 (f (m.count e.1) e.2)) m).count k =
      f (m.count k) ((lookup k es).getD 0) := by
  induction es generalizing m with
  | nil => exact (hf _).symm
  | cons e es ih =>
    obtain ⟨he, hes⟩ := List.pairwise_cons.1 hes
    rw [List.foldl_cons, ih hes, count_put]
    by_cases hk : k = e.1
    · -- the remaining keys are larger, so they do not touch `k` again
      have hnone : lookup k es = none := by
        cases hl : lookup k es with
        | none => rfl
        | some =>
          exact absurd (he _ ((lookup_eq_some_iff hes).1 hl)) (by rw [hk]; exact lt_irrefl _)
      rw [if_pos hk, hnone, Option.getD_none, hf, lookup, if_pos hk.symm, Option.getD_some, hk]
    · rw [if_neg hk, lookup, if_neg fun h => hk h.symm]

theorem count_addAllCounts : (m.addAllCounts increments).count k = m.count k + increments.count k :=
  count_foldl_put (· + ·) Nat.add_zero increments.entries increments.sorted m k

theorem count_subAllCounts : (m.subAllCounts increments).count k = m.count k - increments.count k :=
  count_foldl_put (· - ·) Nat.sub_zero increments.entries increments.sorted m k

end OrdMap

namespace Finset

variable [DecidableEq ι] [DecidableEq α] (A A' : ι → Finset α)

/-- New elements that join one set of a family make it larger by their number. -/
theorem card_family_add {xs : List α} (h : ∀ i x, x ∈ A' i ↔ i = i₀ ∧ x ∈ xs ∨ x ∈ A i)
    (hnew : ∀ x ∈ xs, x ∉ A i₀) (hxs : xs.Nodup) (i : ι) :
    ((A' i).card : Int) = (A i).card + if i = i₀ then (xs.length : Int) else 0 := by
  by_cases hi : i = i₀
  · subst hi
    have hunion : A' i = A i ∪ xs.toFinset := by
      ext x
      rw [h, mem_union, List.mem_toFinset]
      simp [or_comm]
    have hdisj : Disjoint (A i) xs.toFinset := by
      rw [disjoint_right]
      exact fun x hx => hnew x (List.mem_toFinset.1 hx)
    rw [hunion, card_union_of_disjoint hdisj, List.toFinset_card_of_nodup hxs, if_pos rfl,
      Int.natCast_add]
  · have hsame : A' i = A i := by
      ext x
      rw [h]
      simp [hi]
    rw [hsame, if_neg hi, Int.add_zero]

/-- An element that leaves one set of a family makes it smaller by one. -/
theorem card_family_remove (h : ∀ i x, x ∈ A' i ↔ ¬ (i = i₀ ∧ x = x₀) ∧ x ∈ A i) (hold : x₀ ∈ A i₀)
    (i : ι) : ((A' i).card : Int) = (A i).card + if i = i₀ then -1 else 0 := by
  by_cases hi : i = i₀
  · subst hi
    have herase : A' i = (A i).erase x₀ := by
      ext x
      rw [h, mem_erase]
      simp
    have hcard := card_erase_add_one hold
    rw [herase, if_pos rfl]
    omega
  · have hsame : A' i = A i := by
      ext x
      rw [h]
      simp [hi]
    rw [hsame, if_neg hi, Int.add_zero]

end Finset
