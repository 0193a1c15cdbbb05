import Mathlib.Algebra.Group.Nat.Defs
import Mathlib.Data.Nat.Basic
import Mathlib.Data.List.Basic

/-!
# Numerals

Numbers written in a base of at most sixteen. A parser that takes the digits one after the other
reads back the number, also behind leading zeros (`Reads`). Texts of one width are in the order of
the numbers (`padded_lt`).
-/

namespace Numeral

open List

variable {b w n m : Nat} {P : Char → Prop}

/-- The numeral of `n` in base `b`, with zeros in front of it up to `w` digits. -/
def padded (b w n : Nat) : List Char :=
  replicate (w - (Nat.toDigits b n).length) '0' ++ Nat.toDigits b n

theorem length_padded (hb : 1 < b) (hw : 0 < w) (hn : n < b ^ w) : (padded b w n).length = w := by
  have hlen := (Nat.length_toDigits_le_iff hb hw).2 hn
  rw [padded, length_append, length_replicate]
  omega

theorem padded_ne_nil : padded b w n ≠ [] :=
  append_ne_nil_of_right_ne_nil _ Nat.toDigits_ne_nil

/-- What holds of every digit of the base holds of every character of a numeral. -/
theorem forall_mem_toDigits (hb : 1 < b) (h : ∀ d < b, P (Nat.digitChar d)) :
    ∀ c ∈ Nat.toDigits b n, P c := by
  induction n using Nat.strong_induction_on with
  | _ n ih =>
    rcases lt_or_ge n b with hlt | hge
    · rw [Nat.toDigits_of_lt_base hlt]
      exact forall_mem_singleton.2 (h n hlt)
    · rw [Nat.toDigits_of_base_le hb hge]
      refine forall_mem_append.2 ⟨ih _ (Nat.div_lt_self (by omega) hb), ?_⟩
      exact forall_mem_singleton.2 (h _ (Nat.mod_lt _ (by omega)))

theorem forall_mem_padded (hb : 1 < b) (h : ∀ d < b, P (Nat.digitChar d)) :
    ∀ c ∈ padded b w n, P c := by
  refine forall_mem_append.2 ⟨fun c hc => ?_, forall_mem_toDigits hb h⟩
  rw [eq_of_mem_replicate hc]
  exact h 0 (by omega)

/-! ## Reading -/

section Reading

variable {ε : Type} {bound : Nat} {step : Nat → Char → Except ε Nat}

/-- A parser's step takes each digit of the base as long as the number stays below a bound. -/
def Reads (b bound : Nat) (step : Nat → Char → Except ε Nat) : Prop :=
  ∀ acc d, d < b → b * acc + d < bound → step acc (Nat.digitChar d) = .ok (b * acc + d)

namespace Reads

theorem toDigits (h : Reads b bound step) (hb : 1 < b) (hn : n < bound) :
    (Nat.toDigits b n).foldlM step 0 = .ok n := by
  induction n using Nat.strong_induction_on with
  | _ n ih =>
    rcases lt_or_ge n b with hlt | hge
    · have hstep := h 0 n hlt (by omega)
      rw [Nat.mul_zero, Nat.zero_add] at hstep
      rw [Nat.toDigits_of_lt_base hlt, foldlM_cons, hstep]
      rfl
    · have hdiv := Nat.div_lt_self (by omega : 0 < n) hb
      have hstep := h (n / b) (n % b) (Nat.mod_lt _ (by omega)) (by rwa [Nat.div_add_mod])
      rw [Nat.div_add_mod] at hstep
      rw [Nat.toDigits_of_base_le hb hge, foldlM_append, ih _ hdiv (by omega)]
      exact (congrArg (· >>= pure) hstep).trans rfl

theorem padded (h : Reads b bound step) (hb : 1 < b) (hn : n < bound) :
    (Numeral.padded b w n).foldlM step 0 = .ok n := by
  have hzeros : ∀ k, (replicate k '0').foldlM step 0 = .ok 0 := by
    intro k
    induction k with
    | zero => rfl
    | succ k ih =>
      have hstep := h 0 0 (by omega) (by omega)
      rw [replicate_succ, foldlM_cons]
      exact (congrArg (· >>= _) hstep).trans ih
  rw [Numeral.padded, foldlM_append, hzeros]
  exact h.toDigits hb hn

end Reads

end Reading

/-! ## The order of the texts -/

theorem padded_succ (hb : 1 < b) (hw : 0 < w) :
    padded b (w + 1) n = padded b w (n / b) ++ [Nat.digitChar (n % b)] := by
  rcases lt_or_ge n b with hlt | hge
  · rw [padded, padded, Nat.div_eq_of_lt hlt, Nat.mod_eq_of_lt hlt, Nat.toDigits_of_lt_base hlt,
      Nat.toDigits_of_lt_base (by omega : 0 < b)]
    obtain ⟨k, rfl⟩ := Nat.exists_eq_add_of_lt hw
    exact congrArg (· ++ _) (replicate_succ' ..)
  · rw [padded, padded, Nat.toDigits_of_base_le hb hge, length_append, append_assoc]
    simp

theorem append_lt_append [LT α] {t : List α} (h : xs < ys)
    (hlen : xs.length = ys.length) : xs ++ s < ys ++ t := by
  induction h with
  | nil => cases hlen
  | cons _ ih => exact .cons (ih (Nat.succ.inj hlen))
  | rel h => exact .rel h

theorem digitChar_lt : ∀ m < 16, ∀ n < m, Nat.digitChar n < Nat.digitChar m := by
  decide

/-- Numerals of one width are ordered as the numbers. -/
theorem padded_lt (hb : 1 < b) (hb' : b ≤ 16) (hw : 0 < w) (h : n < m) (hm : m < b ^ w) :
    padded b w n < padded b w m := by
  induction w, hw using Nat.le_induction generalizing n m with
  | base =>
    rw [Nat.pow_one] at hm
    rw [padded, padded, Nat.toDigits_of_lt_base hm, Nat.toDigits_of_lt_base (Nat.lt_trans h hm)]
    exact .rel (digitChar_lt m (by omega) n h)
  | succ w hw ih =>
    have hdiv : m / b < b ^ w := Nat.div_lt_of_lt_mul (by rwa [Nat.mul_comm, ← Nat.pow_succ])
    have hmod : m % b < b := Nat.mod_lt m (by omega)
    rw [padded_succ hb hw, padded_succ hb hw]
    rcases Nat.lt_or_eq_of_le (Nat.div_le_div_right (Nat.le_of_lt h)) with hlt | heq
    · refine append_lt_append (ih hlt hdiv) ?_
      rw [length_padded hb hw (Nat.lt_trans hlt hdiv), length_padded hb hw hdiv]
    rw [heq]
    refine append_left_lt (.rel (digitChar_lt _ (by omega) _ ?_))
    rw [← Nat.div_add_mod n b, ← Nat.div_add_mod m b, heq] at h
    exact Nat.lt_of_add_lt_add_left h

end Numeral
