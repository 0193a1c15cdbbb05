import Mathlib.Data.List.Lex
import Mathlib.Data.String.Basic

/-!
# Prefix codes

A code writes a value as a list of natural numbers so that the word of one value is never a prefix
of the word of another. Words of such codes can be concatenated without separators: equal
concatenations have equal first parts and equal rests. Compared lexicographically the words order
the values as a derived order does, constructor first and then the fields from left to right, so a
code of an inductive type gives it a linear order.
-/

/-- Concatenations determine the value written first and what follows it. -/
def PrefixFree {α : Type*} (code : α → List Nat) : Prop :=
  ∀ ⦃a b : α⦄ ⦃r s : List Nat⦄, code a ++ r = code b ++ s → a = b ∧ r = s

namespace PrefixFree

variable {α β : Type*} {f : α → List Nat}

theorem injective (h : PrefixFree f) : Function.Injective f := by
  intro a b hab
  exact (h (congrArg (· ++ []) hab)).1

/-- One number is a prefix code. -/
theorem singleton (h : Function.Injective n) : PrefixFree fun a => [n a] := by
  intro a b r s hab
  obtain ⟨hn, hr⟩ := List.cons.inj hab
  exact ⟨h hn, hr⟩

/-- The fields of a record, one after the other. -/
theorem append {left : γ → α} {right : γ → β} (hf : PrefixFree f) (hg : PrefixFree g)
    (h : ∀ x y, left x = left y → right x = right y → x = y) :
    PrefixFree fun x => f (left x) ++ g (right x) := by
  intro x y r s hxy
  rw [List.append_assoc, List.append_assoc] at hxy
  obtain ⟨hleft, hrest⟩ := hf hxy
  obtain ⟨hright, hr⟩ := hg hrest
  exact ⟨h x y hleft hright, hr⟩

/-- A sequence: each element after a one, the end a zero, so that a shorter one comes first. -/
def list (f : α → List Nat) : List α → List Nat
  | [] => [0]
  | a :: as => 1 :: (f a ++ list f as)

theorem list_prefixFree (hf : PrefixFree f) : PrefixFree (list f) := by
  intro as
  induction as with
  | nil =>
    rintro (_ | ⟨b, bs⟩) r s h
    · exact ⟨rfl, (List.cons.inj h).2⟩
    · cases (List.cons.inj h).1
  | cons a as ih =>
    rintro (_ | ⟨b, bs⟩) r s h
    · cases (List.cons.inj h).1
    simp only [list, List.cons_append, List.append_assoc, List.cons.injEq, true_and] at h
    obtain ⟨rfl, hrest⟩ := hf h
    obtain ⟨rfl, hr⟩ := ih hrest
    exact ⟨rfl, hr⟩

/-- The characters of a text in order. -/
def string (s : String) : List Nat := list (fun c : Char => [c.toNat]) s.toList

theorem string_prefixFree : PrefixFree string := by
  have hchar : PrefixFree fun c : Char => [c.toNat] :=
    singleton fun c d h => Char.ext (UInt32.toNat.inj h)
  intro a b r s h
  obtain ⟨hab, hr⟩ := list_prefixFree hchar h
  exact ⟨String.toList_inj.1 hab, hr⟩

end PrefixFree
