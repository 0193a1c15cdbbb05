import HydraDb.Core.Model
import HydraDb.Lib.Binary64
import HydraDb.Lib.PrefixCode

/-!
# Query values

The values of result rows (`query/algebra.rs`) and the two notions of equality the row engine has
for them (`shard/query.rs`). Predicates compare property values by `compare_vertex_property_values`:
numbers by their exact value across the unsigned, signed and floating representations, everything
else structurally. `BTreeSet` and `BTreeMap` keys are compared by the derived order, in which two
values are equal only when they have the same representation; `QueryValue.code` writes that order
as a prefix code.

`vertexPropertyValuesEqual_iff` says what `=` means: two values are equal exactly when they have
the same `meaning`.
-/

namespace HydraDb

open Binary64 PrefixFree

variable {right : UInt64} {left : Int64}

/-! ## The values of a row -/

structure QueryPathNode where
  id : VertexId
  labels : List String
  properties : Properties

structure QueryPathRelationship where
  id : Option RelationshipId
  edgeType : EdgeType
  src : VertexId
  dst : VertexId
  properties : Properties

structure QueryPath where
  nodes : List QueryPathNode
  relationships : List QueryPathRelationship

/-- A value of a result row. A float is its bit pattern. -/
inductive QueryValue where
  | null
  | vertexId (value : VertexId)
  | count (value : UInt64)
  | bool (value : Bool)
  | float (bits : UInt64)
  | property (value : VertexPropertyValue)
  | list (values : List QueryValue)
  | path (value : QueryPath)

/-- `QueryRow`: the values of one row, column by column. -/
abbrev QueryRow := List QueryValue

/-! ## Comparison of property values -/

inductive RowComparisonOp where
  | eq
  | ne
  | lt
  | gt
  | lte
  | gte
  deriving DecidableEq

/-- `compare_ordering`. -/
def compareOrdering (ordering : Ordering) : RowComparisonOp → Bool
  | .eq => ordering == .eq
  | .ne => ordering != .eq
  | .lt => ordering == .lt
  | .gt => ordering == .gt
  | .lte => ordering != .gt
  | .gte => ordering != .lt

/-- `compare_i64_u64`. -/
def compareI64U64 (left : Int64) (right : UInt64) : Ordering :=
  if 0 ≤ left.toInt then compare left.toInt.toNat right.toNat else .lt

/-- An integer against a float between the bounds of the integer type: the floor decides, and on
equality the part after the point. -/
def compareWithFloor (left : Int) (right : UInt64) : Ordering :=
  match compare left (units right / one) with
  | .eq =>
    if units right / one * one = units right then .eq else .lt
  | ordering => ordering

/-- `compare_i64_f64`. -/
def compareI64F64 (left : Int64) (right : UInt64) : Ordering :=
  if isNan right then totalCmp (ofInt left.toInt) right
  else if units right < -2 ^ 63 * one then .gt
  else if 2 ^ 63 * one ≤ units right then .lt
  else compareWithFloor left.toInt right

/-- `compare_u64_f64`. -/
def compareU64F64 (left : UInt64) (right : UInt64) : Ordering :=
  if isNan right then totalCmp (ofNat left.toNat) right
  else if units right < 0 then .gt
  else if 2 ^ 64 * one ≤ units right then .lt
  else compareWithFloor left.toNat right

/-- `left == right` on floats: NaN equals nothing. -/
def floatEq (left right : UInt64) : Bool :=
  !isNan left && !isNan right && units left == units right

/-- `compare_f64_numeric`. -/
def compareF64Numeric (left right : UInt64) : Ordering :=
  if floatEq left right then .eq else totalCmp left right

/-- `numeric_property_order`. -/
def numericPropertyOrder : VertexPropertyValue → VertexPropertyValue → Option Ordering
  | .integer left, .integer right => some (compare left.toNat right.toNat)
  | .signedInteger left, .signedInteger right => some (compare left.toInt right.toInt)
  | .signedInteger left, .integer right => some (compareI64U64 left right)
  | .integer left, .signedInteger right => some (compareI64U64 right left).swap
  | .float left, .float right => some (compareF64Numeric left right)
  | .integer left, .float right => some (compareU64F64 left right)
  | .float left, .integer right => some (compareU64F64 right left).swap
  | .signedInteger left, .float right => some (compareI64F64 left right)
  | .float left, .signedInteger right => some (compareI64F64 right left).swap
  | _, _ => none

/-- The order of two values of one ordered kind: numbers, or two strings. -/
def orderedPropertyComparison (left right : VertexPropertyValue) : Option Ordering :=
  match numericPropertyOrder left right with
  | some ordering => some ordering
  | none =>
    match left, right with
    | .string left, .string right => some (compare left right)
    | _, _ => none

/-- `compare_vertex_property_values`. -/
def compareVertexPropertyValues (left : VertexPropertyValue) (op : RowComparisonOp)
    (right : VertexPropertyValue) : Except GraphError Bool :=
  match op with
  | .eq => .ok (((numericPropertyOrder left right).map (compareOrdering · op)).getD (left = right))
  | .ne => .ok (((numericPropertyOrder left right).map (compareOrdering · op)).getD (left ≠ right))
  | op =>
    match orderedPropertyComparison left right with
    | some ordering => .ok (compareOrdering ordering op)
    | none => .error (.unsupportedQuery "OpenCypher"
        "ordered comparisons require numeric or matching string values" .evaluation)

/-- `vertex_property_values_equal`. -/
def vertexPropertyValuesEqual (left right : VertexPropertyValue) : Bool :=
  match compareVertexPropertyValues left .eq right with
  | .ok equal => equal
  | .error _ => false

/-! ## What `=` means -/

/-- What a property value stands for: a number by its exact value in units of `2 ^ -1074`, a NaN by
its bit pattern, a truth value and a text by their content. -/
inductive ValueMeaning where
  | number (units : Int)
  | nan (bits : UInt64)
  | bool (value : Bool)
  | string (value : String)
  deriving DecidableEq

def VertexPropertyValue.meaning : VertexPropertyValue → ValueMeaning
  | .integer value => .number (value.toNat * one)
  | .signedInteger value => .number (value.toInt * one)
  | .bool value => .bool value
  | .float bits => if isNan bits then .nan bits else .number (units bits)
  | .string value => .string value

theorem meaning_float_of_nan (h : isNan bits = true) :
    (VertexPropertyValue.float bits).meaning = .nan bits := if_pos h

theorem meaning_float (h : isNan bits = false) :
    (VertexPropertyValue.float bits).meaning = .number (units bits) := by
  simp [VertexPropertyValue.meaning, h]

/-- The place of a value in the sort order: truth values before numbers before texts; a NaN lies
outside the numbers, on the side of its sign. -/
def ValueMeaning.key : ValueMeaning → ℕ ×ₗ ℤ ×ₗ ℤ ×ₗ String
  | .bool value => toLex (0, toLex (0, toLex (value.toInt, "")))
  | .number units => toLex (1, toLex (0, toLex (units, "")))
  | .nan bits =>
    toLex (1, toLex (if negative bits then -1 else 1, toLex ((totalKey bits : ℤ), "")))
  | .string value => toLex (2, toLex (0, toLex (0, value)))

theorem ValueMeaning.key_injective : Function.Injective key := by
  intro a b h
  cases a <;> cases b <;> simp only [key, toLex_inj, Prod.mk.injEq] at h
  case number.number => simpa using h
  case nan.nan => exact congrArg _ (totalKey_injective (by simpa using h.2.2.1))
  case bool.bool a b => cases a <;> cases b <;> simp_all
  case string.string => simpa using h
  case number.nan => exact absurd h.2.1 (by split <;> decide)
  case nan.number => exact absurd h.2.1 (by split <;> decide)
  all_goals exact absurd h.1 (by decide)

/-- A strictly increasing function keeps comparisons. -/
theorem compare_strictMono [LinearOrder α] [LinearOrder β] {f : α → β}
    (hf : StrictMono f) (a b : α) : compare (f a) (f b) = compare a b :=
  (compare_iff _ _).2 (hf.compares.2 ((compare_iff a b).1 rfl))

theorem compare_natCast (a b : Nat) : compare (a : Int) b = compare a b :=
  compare_strictMono Nat.strictMono_cast a b

/-- The order of two values by what they stand for. -/
def compareMeanings (left right : VertexPropertyValue) : Ordering :=
  compare left.meaning.key right.meaning.key

theorem compareMeanings_swap (left right : VertexPropertyValue) :
    (compareMeanings left right).swap = compareMeanings right left :=
  Std.OrientedOrd.eq_swap.symm

theorem compareMeanings_eq_iff {left right : VertexPropertyValue} :
    compareMeanings left right = .eq ↔ left.meaning = right.meaning :=
  compare_eq_iff_eq.trans ValueMeaning.key_injective.eq_iff

/-- Two numbers compare by their values. -/
theorem compare_number (a b : ℤ) :
    compare (ValueMeaning.number a).key (ValueMeaning.number b).key = compare a b := by
  simp [ValueMeaning.key, Prod.Lex.compare_def, compareLex, compareOn]

theorem compare_number_nan :
    compare (ValueMeaning.number a).key (ValueMeaning.nan bits).key =
      if negative bits then .gt else .lt := by
  cases h : negative bits <;>
    simp only [ValueMeaning.key, Prod.Lex.compare_def, compareLex, compareOn, h] <;> rfl

theorem compare_nan (a b : UInt64) :
    compare (ValueMeaning.nan a).key (ValueMeaning.nan b).key = totalCmp a b := by
  have ha := a.toNat_lt
  have hb := b.toNat_lt
  simp only [ValueMeaning.key, Prod.Lex.compare_def, compareLex, compareOn, ofLex_toLex,
    compare_natCast, totalCmp]
  cases hna : negative a <;> cases hnb : negative b <;>
    simp only [totalKey, negative, decide_eq_false_iff_not, decide_eq_true_eq] at hna hnb ⊢
  · simp
  · exact (compare_gt_iff_gt.2 (by simp only [hna, hnb, if_true, if_false]; omega)).symm
  · exact (compare_lt_iff_lt.2 (by simp only [hna, hnb, if_true, if_false]; omega)).symm
  · simp

theorem compare_scaled (a b : Int) :
    compare (ValueMeaning.number (a * one)).key (ValueMeaning.number (b * one)).key = compare a b :=
  (compare_number _ _).trans (compare_strictMono
    (fun _ _ h => Int.mul_lt_mul_of_pos_right h Binary64.one_pos) a b)

/-- The floor and the part after the point give the order of an integer and a float. -/
theorem compareWithFloor_eq (left : Int) (right : UInt64) :
    compareWithFloor left right = compare (left * one) (units right) := by
  have hone := one_pos
  have hfloor := Int.ediv_mul_le (units right) hone.ne'
  have hceil := Int.lt_ediv_add_one_mul_self (units right) hone
  unfold compareWithFloor
  rcases lt_trichotomy left (units right / one) with hlt | rfl | hgt
  · rw [compare_lt_iff_lt.2 hlt]
    exact (compare_lt_iff_lt.2 ((Int.mul_lt_mul_of_pos_right hlt hone).trans_le hfloor)).symm
  · rw [compare_eq_iff_eq.2 rfl]
    dsimp only
    split
    · next heq => exact (compare_eq_iff_eq.2 heq).symm
    · next hne => exact (compare_lt_iff_lt.2 (lt_of_le_of_ne hfloor hne)).symm
  · rw [compare_gt_iff_gt.2 hgt]
    exact (compare_gt_iff_gt.2 (hceil.trans_le (Int.mul_le_mul_of_nonneg_right hgt hone.le))).symm

/-- An integer between two bounds against a float. -/
theorem compare_bounded (right : UInt64) (hlow : low ≤ n) (hhigh : n < high) :
    (if units right < low * one then .gt
      else if high * one ≤ units right then .lt
      else compareWithFloor n right) = compare (n * one) (units right) := by
  have hlow' := Int.mul_le_mul_of_nonneg_right hlow Binary64.one_pos.le
  have hhigh' := Int.mul_lt_mul_of_pos_right hhigh Binary64.one_pos
  split
  · exact (compare_gt_iff_gt.2 (by omega)).symm
  split
  · exact (compare_lt_iff_lt.2 (by omega)).symm
  · exact compareWithFloor_eq n right

theorem compareU64F64_eq (left right : UInt64) :
    compareU64F64 left right = compareMeanings (.integer left) (.float right) := by
  have hlt := left.toNat_lt
  unfold compareU64F64 compareMeanings
  split
  · next h =>
    rw [totalCmp_nan (isNan_ofNat hlt) h, meaning_float_of_nan h]
    exact compare_number_nan.symm
  next h =>
  rw [meaning_float (by simpa using h)]
  have hlow : (0 : Int) ≤ left.toNat := by omega
  have hhigh : (left.toNat : Int) < 2 ^ 64 := by omega
  have hcompare := compare_bounded right hlow hhigh
  rw [Int.zero_mul] at hcompare
  exact hcompare.trans (compare_number _ _).symm

theorem compareI64F64_eq :
    compareI64F64 left right = compareMeanings (.signedInteger left) (.float right) := by
  have hlow := left.le_toInt
  have hhigh := left.toInt_lt
  unfold compareI64F64 compareMeanings
  split
  · next h =>
    rw [totalCmp_nan (isNan_ofInt (by omega)) h, meaning_float_of_nan h]
    exact compare_number_nan.symm
  · next h =>
    rw [meaning_float (by simpa using h)]
    exact (compare_bounded right hlow hhigh).trans (compare_number _ _).symm

theorem compareF64Numeric_eq (left right : UInt64) :
    compareF64Numeric left right = compareMeanings (.float left) (.float right) := by
  unfold compareF64Numeric floatEq compareMeanings
  cases hl : isNan left <;> cases hr : isNan right
  · rw [meaning_float hl, meaning_float hr, compare_number]
    by_cases hunits : units left = units right
    · simp [hunits]
    · simpa [hunits] using totalCmp_eq_compare_units hunits
  · rw [meaning_float hl, meaning_float_of_nan hr, compare_number_nan]
    simpa using totalCmp_nan hl hr
  · rw [meaning_float_of_nan hl, meaning_float hr]
    rw [Std.OrientedOrd.eq_swap, compare_number_nan, ← totalCmp_nan hr hl]
    simp only [Bool.not_true, Bool.false_and, Bool.false_eq_true, if_false]
    exact Std.OrientedOrd.eq_swap
  · rw [meaning_float_of_nan hl, meaning_float_of_nan hr, compare_nan]
    simp

theorem compareI64U64_eq :
    compareI64U64 left right = compareMeanings (.signedInteger left) (.integer right) := by
  refine Eq.trans ?_ (compare_scaled _ _).symm
  unfold compareI64U64
  split
  · next h => rw [← compare_natCast, Int.toNat_of_nonneg h]
  · exact (compare_lt_iff_lt.2 (by omega)).symm

/-- On two numbers the numeric order is that of the values; on anything else it is silent. -/
theorem numericPropertyOrder_spec (left right : VertexPropertyValue) :
    match numericPropertyOrder left right with
    | some ordering => ordering = compareMeanings left right
    | none => left = right ↔ left.meaning = right.meaning := by
  cases left <;> cases right <;> simp only [numericPropertyOrder]
  case integer.integer => exact (compare_natCast _ _).symm.trans (compare_scaled _ _).symm
  case integer.signedInteger => rw [compareI64U64_eq, compareMeanings_swap]
  case integer.float => exact compareU64F64_eq _ _
  case signedInteger.integer => exact compareI64U64_eq
  case signedInteger.signedInteger => exact (compare_scaled _ _).symm
  case signedInteger.float => exact compareI64F64_eq
  case float.integer => rw [compareU64F64_eq, compareMeanings_swap]
  case float.signedInteger => rw [compareI64F64_eq, compareMeanings_swap]
  case float.float => exact compareF64Numeric_eq _ _
  all_goals first
    | (simp [VertexPropertyValue.meaning]; done)
    | (simp only [VertexPropertyValue.meaning]; split <;> simp)

/-- **`=` on property values compares what they stand for.** -/
theorem vertexPropertyValuesEqual_iff {left right : VertexPropertyValue} :
    vertexPropertyValuesEqual left right = true ↔ left.meaning = right.meaning := by
  have hspec := numericPropertyOrder_spec left right
  unfold vertexPropertyValuesEqual compareVertexPropertyValues
  cases horder : numericPropertyOrder left right with
  | none => simpa [horder] using hspec
  | some ordering =>
    obtain rfl : ordering = compareMeanings left right := by simpa [horder] using hspec
    simpa [compareOrdering] using compareMeanings_eq_iff

/-! ## The derived order -/

/-- A property value in the derived order of `VertexPropertyValue`. -/
def VertexPropertyValue.code : VertexPropertyValue → List Nat
  | .integer value => [0, value.toNat]
  | .signedInteger value => [1, (value.toInt + 2 ^ 63).toNat]
  | .bool value => [2, value.toNat]
  | .float bits => [3, totalKey bits]
  | .string value => 4 :: PrefixFree.string value

theorem VertexPropertyValue.code_prefixFree : PrefixFree code := by
  intro a b r s h
  cases a <;> cases b <;>
    simp only [code, List.cons_append, List.nil_append, List.cons.injEq, true_and] at h
  case integer.integer => exact ⟨congrArg _ (UInt64.toNat.inj h.1), h.2⟩
  case signedInteger.signedInteger a b =>
    have ha := a.le_toInt
    have hb := b.le_toInt
    exact ⟨congrArg _ (Int64.toInt.inj (by omega)), h.2⟩
  case bool.bool a b => exact ⟨congrArg _ (by cases a <;> cases b <;> simp_all), h.2⟩
  case float.float => exact ⟨congrArg _ (totalKey_injective h.1), h.2⟩
  case string.string =>
    obtain ⟨rfl, hr⟩ := string_prefixFree h
    exact ⟨rfl, hr⟩
  all_goals exact absurd h.1 (by decide)

/-- The entries of a property map in key order. -/
def Properties.code (properties : Properties) : List Nat :=
  list (fun entry => string entry.1 ++ entry.2.code) properties.entries

theorem Properties.code_prefixFree : PrefixFree code := by
  have hentry : PrefixFree fun entry : String × VertexPropertyValue =>
      string entry.1 ++ entry.2.code :=
    string_prefixFree.append VertexPropertyValue.code_prefixFree fun _ _ => Prod.ext
  intro a b r s h
  obtain ⟨hentries, hr⟩ := list_prefixFree hentry h
  exact ⟨OrdMap.ext_get fun k => by rw [OrdMap.get, OrdMap.get, hentries], hr⟩

theorem PrefixFree.uint64 : PrefixFree fun value : UInt64 => [value.toNat] :=
  singleton fun _ _ => UInt64.toNat.inj

/-- The derived order of `QueryPathNode`. -/
def QueryPathNode.code (node : QueryPathNode) : List Nat :=
  [node.id.toNat] ++ (list string node.labels ++ node.properties.code)

theorem QueryPathNode.code_prefixFree : PrefixFree code := by
  rintro ⟨id, labels, properties⟩ ⟨id', labels', properties'⟩ r s h
  simp only [code, List.append_assoc] at h
  obtain ⟨rfl, h₁⟩ := PrefixFree.uint64 h
  obtain ⟨rfl, h₂⟩ := list_prefixFree string_prefixFree h₁
  obtain ⟨rfl, h₃⟩ := Properties.code_prefixFree h₂
  exact ⟨rfl, h₃⟩

/-- The derived order of `QueryPathRelationship`; an absent id comes first. -/
def QueryPathRelationship.code (relationship : QueryPathRelationship) : List Nat :=
  list (fun id : RelationshipId => [id.toNat]) relationship.id.toList ++
    (string relationship.edgeType ++ ([relationship.src.toNat] ++
      ([relationship.dst.toNat] ++ relationship.properties.code)))

theorem QueryPathRelationship.code_prefixFree : PrefixFree code := by
  rintro ⟨id, edgeType, src, dst, properties⟩ ⟨id', edgeType', src', dst', properties'⟩ r s h
  simp only [code, List.append_assoc] at h
  obtain ⟨hid, h₁⟩ := PrefixFree.list_prefixFree PrefixFree.uint64 h
  obtain ⟨rfl, h₂⟩ := string_prefixFree h₁
  obtain ⟨rfl, h₃⟩ := PrefixFree.uint64 h₂
  obtain ⟨rfl, h₄⟩ := PrefixFree.uint64 h₃
  obtain ⟨rfl, h₅⟩ := Properties.code_prefixFree h₄
  obtain rfl : id = id' := by
    cases id <;> cases id' <;> simp_all
  exact ⟨rfl, h₅⟩

/-- The derived order of `QueryPath`. -/
def QueryPath.code (path : QueryPath) : List Nat :=
  list QueryPathNode.code path.nodes ++ list QueryPathRelationship.code path.relationships

theorem QueryPath.code_prefixFree : PrefixFree code := by
  rintro ⟨nodes, relationships⟩ ⟨nodes', relationships'⟩ r s h
  simp only [code, List.append_assoc] at h
  obtain ⟨rfl, h₁⟩ := list_prefixFree QueryPathNode.code_prefixFree h
  obtain ⟨rfl, h₂⟩ := list_prefixFree QueryPathRelationship.code_prefixFree h₁
  exact ⟨rfl, h₂⟩

mutual
/-- A value in the derived order of `QueryValue`. -/
def QueryValue.code : QueryValue → List Nat
  | .null => [0]
  | .vertexId value => [1, value.toNat]
  | .count value => [2, value.toNat]
  | .bool value => [3, value.toNat]
  | .float bits => [4, totalKey bits]
  | .property value => 5 :: value.code
  | .list values => 6 :: QueryValue.codes values
  | .path value => 7 :: value.code

/-- The values of a list in the derived order. -/
def QueryValue.codes : List QueryValue → List Nat
  | [] => [0]
  | value :: values => 1 :: (value.code ++ QueryValue.codes values)
end

mutual
theorem QueryValue.code_prefixFree : ∀ (a b : QueryValue) (r s : List Nat),
    a.code ++ r = b.code ++ s → a = b ∧ r = s := by
  intro a b r s h
  cases a <;> cases b <;>
    simp only [code, List.cons_append, List.nil_append, List.cons.injEq, true_and] at h
  case null.null => exact ⟨rfl, h⟩
  case vertexId.vertexId => exact ⟨congrArg _ (UInt64.toNat.inj h.1), h.2⟩
  case count.count => exact ⟨congrArg _ (UInt64.toNat.inj h.1), h.2⟩
  case bool.bool a b => exact ⟨congrArg _ (by cases a <;> cases b <;> simp_all), h.2⟩
  case float.float => exact ⟨congrArg _ (totalKey_injective h.1), h.2⟩
  case property.property =>
    obtain ⟨rfl, hr⟩ := VertexPropertyValue.code_prefixFree h
    exact ⟨rfl, hr⟩
  case list.list a b =>
    obtain ⟨rfl, hr⟩ := codes_prefixFree a b r s h
    exact ⟨rfl, hr⟩
  case path.path =>
    obtain ⟨rfl, hr⟩ := QueryPath.code_prefixFree h
    exact ⟨rfl, hr⟩
  all_goals exact absurd h.1 (by decide)

theorem QueryValue.codes_prefixFree : ∀ (as bs : List QueryValue) (r s : List Nat),
    codes as ++ r = codes bs ++ s → as = bs ∧ r = s
  | [], [], r, s, h => by simpa using h
  | [], _ :: _, r, s, h => by simp [codes] at h
  | _ :: _, [], r, s, h => by simp [codes] at h
  | a :: as, b :: bs, r, s, h => by
    simp only [codes, List.cons_append, List.append_assoc, List.cons.injEq, true_and] at h
    obtain ⟨rfl, h₁⟩ := code_prefixFree a b _ _ h
    obtain ⟨rfl, h₂⟩ := codes_prefixFree as bs r s h₁
    exact ⟨rfl, h₂⟩
end

/-- `BTreeSet<QueryValue>` and `BTreeMap<QueryValue, _>` order their keys by the derived order. -/
instance : LinearOrder QueryValue :=
  LinearOrder.lift' QueryValue.code fun a b h =>
    (QueryValue.code_prefixFree a b [] [] (congrArg (· ++ []) h)).1

instance : DecidableEq QueryPath := fun a b =>
  decidable_of_iff (a.code = b.code) QueryPath.code_prefixFree.injective.eq_iff

/-! ## `=` on the values of a row -/

/-- The property value a scalar of a row is compared as: ids and counts are unsigned integers, as
in `eval_row_expression`. -/
def QueryValue.scalar : QueryValue → Option VertexPropertyValue
  | .vertexId value => some (.integer value)
  | .count value => some (.integer value)
  | .bool value => some (.bool value)
  | .float bits => some (.float bits)
  | .property value => some value
  | .null | .list _ | .path _ => none

mutual
/-- `=` on row values: scalars as predicates compare them, lists element by element, and a null
with a null, which is how grouping treats it. -/
def QueryValue.equal : QueryValue → QueryValue → Bool
  | .null, .null => true
  | .list left, .list right => QueryValue.equalAll left right
  | .path left, .path right => decide (left = right)
  | left, right =>
    match left.scalar, right.scalar with
    | some left, some right => vertexPropertyValuesEqual left right
    | _, _ => false

/-- Rows that are equal under `=` column by column. -/
def QueryValue.equalAll : List QueryValue → List QueryValue → Bool
  | [], [] => true
  | left :: lefts, right :: rights => left.equal right && QueryValue.equalAll lefts rights
  | _, _ => false
end

/-- What a row value stands for. -/
inductive QueryMeaning where
  | null
  | scalar (meaning : ValueMeaning)
  | list (values : List QueryMeaning)
  | path (value : QueryPath)

mutual
def QueryValue.meaning : QueryValue → QueryMeaning
  | .null => .null
  | .vertexId value => .scalar (VertexPropertyValue.integer value).meaning
  | .count value => .scalar (VertexPropertyValue.integer value).meaning
  | .bool value => .scalar (VertexPropertyValue.bool value).meaning
  | .float bits => .scalar (VertexPropertyValue.float bits).meaning
  | .property value => .scalar value.meaning
  | .list values => .list (QueryValue.meanings values)
  | .path value => .path value

def QueryValue.meanings : List QueryValue → List QueryMeaning
  | [] => []
  | value :: values => value.meaning :: QueryValue.meanings values
end

mutual
/-- `=` on row values compares what they stand for. -/
theorem QueryValue.equal_iff (left right : QueryValue) :
    left.equal right = true ↔ left.meaning = right.meaning := by
  cases left <;> cases right
  case list.list left right =>
    simpa [equal, meaning] using equalAll_iff left right
  all_goals simp [equal, meaning, scalar, vertexPropertyValuesEqual_iff]

theorem QueryValue.equalAll_iff : ∀ (lefts rights : List QueryValue),
    equalAll lefts rights = true ↔ meanings lefts = meanings rights
  | [], [] => by simp [equalAll]
  | [], _ :: _ => by simp [equalAll, meanings]
  | _ :: _, [] => by simp [equalAll, meanings]
  | left :: lefts, right :: rights => by
    have hhead := equal_iff left right
    have htail := equalAll_iff lefts rights
    simp [equalAll, meanings, hhead, htail]
end

/-- `=` on rows is an equivalence that extends equality. -/
theorem QueryValue.equalAll_equivalence :
    Equivalence fun lefts rights => equalAll lefts rights = true where
  refl row := (equalAll_iff row row).2 rfl
  symm h := (equalAll_iff _ _).2 ((equalAll_iff _ _).1 h).symm
  trans h h' := (equalAll_iff _ _).2 (((equalAll_iff _ _).1 h).trans ((equalAll_iff _ _).1 h'))

end HydraDb
