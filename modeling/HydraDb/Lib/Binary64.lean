import Mathlib.Data.Int.Basic
import Mathlib.Order.Monotone.Basic
import Mathlib.Tactic.Ring

/-!
# Binary64 numbers as bit patterns

A double-precision number is the 64-bit word that encodes it. Every finite one is an integral
multiple of `2 ^ -1074`, so its exact value is the integer `units bits` counted in that unit; the
two infinities get the counts `± 2 ^ 2098`, which lie outside the counts of the finite numbers and
order them correctly. Comparisons of numbers that are not NaN are then comparisons of integers, and
two words denote the same number exactly when they have the same count, the two zeros included.

`totalKey` gives the order `f64::total_cmp` uses, in which two words are equal only when they are
the same word; on numbers of different values it is the order of the values, and the NaNs lie
outside them. And `ofRatio` rounds a ratio of natural numbers to the nearest number, ties to even.
-/

namespace Binary64

variable {n : Nat}

/-- The fraction field, the low 52 bits. -/
def fraction (bits : UInt64) : Nat := bits.toNat % 2 ^ 52

/-- The biased exponent field, 11 bits. -/
def exponent (bits : UInt64) : Nat := bits.toNat / 2 ^ 52 % 2 ^ 11

/-- The sign bit. -/
def negative (bits : UInt64) : Bool := decide (2 ^ 63 ≤ bits.toNat)

def isNan (bits : UInt64) : Bool := exponent bits == 2047 && fraction bits != 0

/-- One, counted in units of `2 ^ -1074`. -/
def one : Int := 2 ^ 1074

theorem one_pos : 0 < one := Int.pow_pos (by decide)

/-- The absolute value in units of `2 ^ -1074`; `2 ^ 2098` for the infinities. -/
def magnitude (bits : UInt64) : Nat :=
  if exponent bits = 0 then fraction bits else (2 ^ 52 + fraction bits) * 2 ^ (exponent bits - 1)

/-- The value of a word that is not NaN, in units of `2 ^ -1074`. -/
def units (bits : UInt64) : Int :=
  if negative bits then -(magnitude bits : Int) else magnitude bits

/-! ## Orders -/

/-- The position of a word in the order of `f64::total_cmp`: a set sign bit reverses the rest. -/
def totalKey (bits : UInt64) : Nat :=
  if negative bits then 2 ^ 64 - 1 - bits.toNat else 2 ^ 63 + bits.toNat

theorem totalKey_injective : Function.Injective totalKey := by
  intro a b h
  have ha := a.toNat_lt
  have hb := b.toNat_lt
  unfold totalKey negative at h
  apply UInt64.toNat.inj
  split at h <;> split at h <;> simp only [decide_eq_true_eq] at * <;> omega

/-- `f64::total_cmp`. -/
def totalCmp (a b : UInt64) : Ordering := compare (totalKey a) (totalKey b)

/-- The magnitude as a function of the 63 bits below the sign. -/
def magnitudeOf (low : Nat) : Nat :=
  if low / 2 ^ 52 = 0 then low % 2 ^ 52 else (2 ^ 52 + low % 2 ^ 52) * 2 ^ (low / 2 ^ 52 - 1)

theorem magnitude_eq : magnitude bits = magnitudeOf (bits.toNat % 2 ^ 63) := by
  have hexponent : exponent bits = bits.toNat % 2 ^ 63 / 2 ^ 52 := by
    unfold exponent
    omega
  have hfraction : fraction bits = bits.toNat % 2 ^ 63 % 2 ^ 52 := by
    unfold fraction
    omega
  rw [magnitude, magnitudeOf, hexponent, hfraction]

/-- A larger word without its sign is a larger number. -/
theorem magnitudeOf_strictMono : StrictMono magnitudeOf := by
  refine strictMono_nat_of_lt_succ fun low => ?_
  unfold magnitudeOf
  by_cases hcarry : low % 2 ^ 52 = 2 ^ 52 - 1
  · have hexponent : (low + 1) / 2 ^ 52 = low / 2 ^ 52 + 1 := by omega
    have hfraction : (low + 1) % 2 ^ 52 = 0 := by omega
    rw [hexponent, hfraction, hcarry, if_neg (Nat.succ_ne_zero _)]
    split
    · next h =>
      rw [h]
      decide
    next h =>
    rw [Nat.add_sub_cancel, ← Nat.two_pow_pred_mul_two (Nat.pos_of_ne_zero h)]
    have := Nat.two_pow_pos (low / 2 ^ 52 - 1)
    omega
  · have hexponent : (low + 1) / 2 ^ 52 = low / 2 ^ 52 := by omega
    have hfraction : (low + 1) % 2 ^ 52 = low % 2 ^ 52 + 1 := by omega
    rw [hexponent, hfraction]
    split
    · omega
    · exact Nat.mul_lt_mul_of_pos_right (by omega) (Nat.two_pow_pos _)

/-- The total order follows the values. -/
theorem units_le_units (h : totalKey a ≤ totalKey b) : units a ≤ units b := by
  have ha := a.toNat_lt
  have hb := b.toNat_lt
  have hab := magnitudeOf_strictMono.le_iff_le (a := a.toNat % 2 ^ 63) (b := b.toNat % 2 ^ 63)
  have hba := magnitudeOf_strictMono.le_iff_le (a := b.toNat % 2 ^ 63) (b := a.toNat % 2 ^ 63)
  simp only [units, magnitude_eq, totalKey, negative, decide_eq_true_eq] at h ⊢
  split at h <;> split at h <;> simp only [*, if_true, if_false] <;> omega

theorem totalCmp_eq_compare_units (h : units a ≠ units b) :
    totalCmp a b = compare (units a) (units b) := by
  rcases lt_trichotomy (totalKey a) (totalKey b) with hlt | heq | hgt
  · have hle := units_le_units hlt.le
    rw [totalCmp, compare_lt_iff_lt.2 hlt, compare_lt_iff_lt.2 (by omega)]
  · exact absurd (congrArg units (totalKey_injective heq)) h
  · have hle := units_le_units hgt.le
    rw [totalCmp, compare_gt_iff_gt.2 hgt, compare_gt_iff_gt.2 (by omega)]

theorem isNan_iff : isNan bits = true ↔ 2047 * 2 ^ 52 < bits.toNat % 2 ^ 63 := by
  simp only [isNan, exponent, fraction, Bool.and_eq_true, beq_iff_eq, bne_iff_ne, ne_eq]
  omega

/-- The NaNs of either sign lie outside all numbers in the total order. -/
theorem totalCmp_nan (ha : isNan a = false) (hb : isNan b = true) :
    totalCmp a b = if negative b then .gt else .lt := by
  have hlow : ¬ 2047 * 2 ^ 52 < a.toNat % 2 ^ 63 := mt isNan_iff.2 (by simp [ha])
  have hhigh := isNan_iff.1 hb
  have ha := a.toNat_lt
  have hb := b.toNat_lt
  rw [totalCmp]
  split
  · next hneg =>
    rw [compare_gt_iff_gt]
    simp only [totalKey, negative, decide_eq_true_eq] at hneg ⊢
    rw [if_pos hneg]
    split <;> omega
  · next hneg =>
    rw [compare_lt_iff_lt]
    simp only [totalKey, negative, decide_eq_true_eq] at hneg ⊢
    rw [if_neg hneg]
    split <;> omega

/-! ## Rounding -/

/-- The natural number nearest to `n / d`, ties to even. -/
def roundEven (n d : Nat) : Nat :=
  if d < 2 * (n % d) ∨ (2 * (n % d) = d ∧ n / d % 2 = 1) then n / d + 1 else n / d

theorem roundEven_le (n d : Nat) : roundEven n d ≤ n / d + 1 := by
  unfold roundEven
  split <;> omega

/-- `num / den` scaled by `2 ^ (52 - e)`, as a ratio. -/
def scale (num den : Nat) (e : Int) : Nat × Nat :=
  if e ≤ 52 then (num * 2 ^ (52 - e).toNat, den) else (num, den * 2 ^ (e - 52).toNat)

/-- The binary exponent of the positive ratio `num / den`. -/
def ratioExponent (num den : Nat) : Int :=
  let guess : Int := (Nat.log2 num : Int) - Nat.log2 den
  if (scale num den guess).1 / (scale num den guess).2 < 2 ^ 52 then guess - 1 else guess

/-- The number nearest to `num / den`, ties to even, for ratios within the range of the normal
numbers. The quotient is taken with 53 significant bits; a carry out of the fraction moves on to
the exponent field by itself. -/
def ofRatio (num den : Nat) : UInt64 :=
  if num = 0 then 0
  else
    let e := ratioExponent num den
    let rounded := roundEven (scale num den e).1 (scale num den e).2
    UInt64.ofNat ((e + 1023).toNat * 2 ^ 52 + (rounded - 2 ^ 52))

/-- `u64 as f64` and `u128 as f64`. -/
def ofNat (n : Nat) : UInt64 := ofRatio n 1

/-- `i64 as f64`. -/
def ofInt (n : Int) : UInt64 :=
  if n < 0 then UInt64.ofNat ((ofNat n.natAbs).toNat + 2 ^ 63) else ofNat n.toNat

/-- Scaled by its own exponent, an integer has 53 significant bits. -/
theorem scale_log2 (h : n ≠ 0) :
    2 ^ 52 ≤ (scale n 1 (Nat.log2 n)).1 / (scale n 1 (Nat.log2 n)).2 ∧
      (scale n 1 (Nat.log2 n)).1 / (scale n 1 (Nat.log2 n)).2 < 2 ^ 53 := by
  have hlow : 2 ^ Nat.log2 n ≤ n := Nat.log2_self_le h
  have hhigh : n < 2 ^ (Nat.log2 n + 1) := Nat.lt_log2_self
  unfold scale
  split
  · next hL =>
    have hshift : ((52 : Int) - Nat.log2 n).toNat = 52 - Nat.log2 n := by omega
    have hpow : 2 ^ Nat.log2 n * 2 ^ (52 - Nat.log2 n) = 2 ^ 52 := by
      rw [← Nat.pow_add]; congr 1; omega
    have hlt := Nat.mul_lt_mul_of_pos_right hhigh (Nat.two_pow_pos (52 - Nat.log2 n))
    rw [Nat.pow_succ, Nat.mul_right_comm, hpow] at hlt
    rw [hshift, Nat.div_one]
    exact ⟨hpow ▸ Nat.mul_le_mul_right _ hlow, by omega⟩
  · next hL =>
    have hshift : ((Nat.log2 n : Int) - 52).toNat = Nat.log2 n - 52 := by omega
    have hpow : 2 ^ 52 * 2 ^ (Nat.log2 n - 52) = 2 ^ Nat.log2 n := by
      rw [← Nat.pow_add]; congr 1; omega
    rw [hshift, Nat.one_mul]
    constructor
    · exact (Nat.le_div_iff_mul_le (Nat.two_pow_pos _)).2 (hpow.symm ▸ hlow)
    · apply Nat.div_lt_of_lt_mul
      rw [Nat.mul_comm, Nat.pow_succ 2 52, Nat.mul_right_comm, hpow, ← Nat.pow_succ]
      exact hhigh

/-- The word of an integer below `2 ^ 64` has an exponent field below that of the infinities. -/
theorem toNat_ofNat_lt (h : n < 2 ^ 64) : (ofNat n).toNat < 2047 * 2 ^ 52 := by
  by_cases h0 : n = 0
  · subst h0
    simp [ofNat, ofRatio]
  obtain ⟨hge, hlt⟩ := scale_log2 h0
  have hexponent : ratioExponent n 1 = Nat.log2 n := by
    have hone : Nat.log2 1 = 0 := by decide
    unfold ratioExponent
    simp only [hone, Int.natCast_zero, Int.sub_zero]
    rw [if_neg (by omega)]
  have hlog : Nat.log2 n < 64 := (Nat.log2_lt h0).2 h
  have hround := roundEven_le (scale n 1 (Nat.log2 n)).1 (scale n 1 (Nat.log2 n)).2
  simp only [ofNat, ofRatio, if_neg h0, hexponent]
  rw [UInt64.toNat_ofNat']
  refine lt_of_le_of_lt (Nat.mod_le _ _) ?_
  have : ((Nat.log2 n : Int) + 1023).toNat = Nat.log2 n + 1023 := by omega
  rw [this]
  omega

theorem isNan_eq_false (h : bits.toNat / 2 ^ 52 % 2 ^ 11 < 2047) : isNan bits = false := by
  have : exponent bits ≠ 2047 := by unfold exponent; omega
  simp [isNan, this]

theorem isNan_ofNat (h : n < 2 ^ 64) : isNan (ofNat n) = false :=
  isNan_eq_false (by have := toNat_ofNat_lt h; omega)

theorem isNan_ofInt {n : Int} (h : n.natAbs < 2 ^ 64) : isNan (ofInt n) = false := by
  unfold ofInt
  split
  · apply isNan_eq_false
    have hlt := toNat_ofNat_lt h
    rw [UInt64.toNat_ofNat']
    omega
  · exact isNan_ofNat (by omega)

end Binary64
