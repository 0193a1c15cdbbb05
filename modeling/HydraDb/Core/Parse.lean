import HydraDb.Core.Codec
import HydraDb.Lib.Numeral

/-!
# Reading texts back

The parsers of the standard library and of `codec.rs` that manifests are read with. Each reads back
what the writers of `Core.Codec` write.
-/

namespace HydraDb

variable {n : Nat}

/-! ## Numbers -/

/-- One character of `str::parse::<u64>`. -/
def parseU64Char (acc : Nat) (c : Char) : Except String Nat :=
  if !c.isDigit then .error "invalid digit found in string"
  else if 10 * acc + (c.toNat - '0'.toNat) ≥ 2 ^ 64 then
    .error "number too large to fit in target type"
  else .ok (10 * acc + (c.toNat - '0'.toNat))

/-- `str::parse::<u64>`. -/
def parseU64Text : List Char → Except String Nat
  | [] => .error "cannot parse integer from empty string"
  | ['+'] | ['-'] => .error "invalid digit found in string"
  | '+' :: digits => digits.foldlM parseU64Char 0
  | digits => digits.foldlM parseU64Char 0

/-- `parse_u64`. -/
def parseU64 (key : String) (value : List Char) (field : String) : Except GraphError Nat :=
  match parseU64Text value with
  | .ok n => .ok n
  | .error err => .error (.corruptValue key ("invalid " ++ field ++ ": " ++ err))

theorem isDigit_digitChar : ∀ d < 10, (Nat.digitChar d).isDigit = true := by decide

theorem reads_parseU64Char : Numeral.Reads 10 (2 ^ 64) parseU64Char := by
  intro acc d hd hlt
  have hvalue : (Nat.digitChar d).toNat - '0'.toNat = d := by
    rw [Nat.toNat_digitChar_of_lt_ten hd]
    exact Nat.add_sub_cancel_left 48 d
  rw [parseU64Char, isDigit_digitChar d hd, hvalue, if_neg (by simp), if_neg (by omega)]

theorem parseU64Text_digits (nonempty : l ≠ [])
    (digits : ∀ c ∈ l, c.isDigit = true) : parseU64Text l = l.foldlM parseU64Char 0 := by
  unfold parseU64Text
  split
  · exact absurd rfl nonempty
  · exact absurd (digits '+' List.mem_cons_self) (by decide)
  · exact absurd (digits '-' List.mem_cons_self) (by decide)
  · exact absurd (digits '+' List.mem_cons_self) (by decide)
  · rfl

theorem isDigit_toDigits : ∀ c ∈ Nat.toDigits 10 n, c.isDigit = true :=
  Numeral.forall_mem_toDigits (by decide) isDigit_digitChar

theorem parseU64Text_toDigits (h : n < 2 ^ 64) : parseU64Text (Nat.toDigits 10 n) = .ok n := by
  rw [parseU64Text_digits Nat.toDigits_ne_nil isDigit_toDigits]
  exact reads_parseU64Char.toDigits (by decide) h

theorem parseU64_toDigits (h : n < 2 ^ 64) : parseU64 key (Nat.toDigits 10 n) field = .ok n := by
  rw [parseU64, parseU64Text_toDigits h]

theorem toList_padded20 : (padded20 n).toList = Numeral.padded 10 20 n :=
  String.toList_ofList

theorem isDigit_padded20 : ∀ c ∈ (padded20 n).toList, c.isDigit = true := by
  rw [toList_padded20]
  exact Numeral.forall_mem_padded (by decide) isDigit_digitChar

theorem length_padded20 (h : n < 2 ^ 64) : (padded20 n).toList.length = 20 := by
  rw [toList_padded20]
  exact Numeral.length_padded (by decide) (by decide) (h.trans (by decide))

theorem parseU64Text_padded20 (h : n < 2 ^ 64) : parseU64Text (padded20 n).toList = .ok n := by
  rw [parseU64Text_digits (toList_padded20 ▸ Numeral.padded_ne_nil) isDigit_padded20,
    toList_padded20]
  exact reads_parseU64Char.padded (by decide) h

theorem parseU64_padded20 (h : n < 2 ^ 64) (key field : String) :
    parseU64 key (padded20 n).toList field = .ok n := by
  rw [parseU64, parseU64Text_padded20 h]

theorem isComponentChar_of_validateComponent (h : validateComponent component value = .ok ()) :
    ∀ c ∈ value.toList, isComponentChar c = true := by
  rw [validateComponent] at h
  obtain ⟨hnot, h⟩ := else_of_ne h nofun
  simp only [Bool.or_eq_true, not_or, Bool.not_eq_true, Bool.not_eq_false', List.all_eq_true]
    at hnot
  exact hnot.2

end HydraDb
