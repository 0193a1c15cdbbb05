import HydraDb.Core.Model
import HydraDb.Lib.Loop
import Mathlib.Data.Nat.Digits.Defs

/-!
# The frame of a client message

Before a message of a client is decoded, its bytes are checked to be the declared number of
PackStream values (`validate_packstream_values`, `client/bolt/wire.rs`). The check keeps a stack
with the number of values that are missing in each container that is open. `Values` is the grammar,
and `validatePackstreamValues_correct` says that the check accepts what the grammar generates, and
that its stack stays within the limit whatever the bytes are.

The bytes of the markers are constants of another crate, so they are a parameter (`Markers`).
-/

namespace HydraDb.Bolt

/-! ## The code -/

/-- `BoltError`, as far as the check raises it. -/
inductive BoltError where
  | protocol (message : String)

/-- `BOLT_MAX_PACKSTREAM_DEPTH`. -/
def boltMaxPackstreamDepth : Nat := 32

/-- A number in network byte order. -/
def bigEndian (bytes : List UInt8) : Nat := .ofDigits 256 (bytes.reverse.map UInt8.toNat)

/-- `read_packstream_length`. -/
def readPackstreamLength (input : List UInt8) (width : Nat) :
    Except BoltError (Nat × List UInt8) :=
  if input.length < width then .error (.protocol "PackStream length ended unexpectedly")
  else .ok (bigEndian (input.take width), input.drop width)

/-- `skip_packstream_bytes`. -/
def skipPackstreamBytes (input : List UInt8) (len : Nat) : Except BoltError (List UInt8) :=
  if input.length < len then .error (.protocol "PackStream payload ended unexpectedly")
  else .ok (input.drop len)

/-- `checked_dict_values`, with 64-bit sizes. -/
def checkedDictValues (entries : Nat) : Except BoltError Nat :=
  if entries * 2 < u64Bound then .ok (entries * 2)
  else .error (.protocol "PackStream dictionary is too large")

/-- `push_packstream_container`. The innermost container comes first. -/
def pushPackstreamContainer (containers : List Nat) (values : Nat) :
    Except BoltError (List Nat) :=
  if boltMaxPackstreamDepth ≤ containers.length then
    .error (.protocol s!"PackStream nesting exceeds depth limit {boltMaxPackstreamDepth}")
  else .ok (values :: containers)

/-- The arms of the match on the marker, with the number of bytes to skip, the width of the length
to read, or the low bits of the marker. -/
inductive Arm where
  | bare
  | fixed (len : Nat)
  | sized (width : Fin 5)
  | list (width : Fin 5)
  | dict (width : Fin 5)
  | tinyList (low : Fin 16)
  | tinyDict (low : Fin 16)
  | tinyStruct (low : Fin 16)
  deriving DecidableEq

/-- The body of an arm: the number of values in the container that it opens, if it does, and the
rest. -/
def Arm.read (input : List UInt8) : Arm → Except BoltError (Option Nat × List UInt8)
  | .bare => return (none, input)
  | .fixed len => return (none, ← skipPackstreamBytes input len)
  | .sized width => do
    let (len, input) ← readPackstreamLength input width
    return (none, ← skipPackstreamBytes input len)
  | .list width => do
    let (len, input) ← readPackstreamLength input width
    return (some len, input)
  | .dict width => do
    let (len, input) ← readPackstreamLength input width
    return (some (← checkedDictValues len), input)
  | .tinyList low => return (some low, input)
  | .tinyDict low => return (some (← checkedDictValues low), input)
  | .tinyStruct low => return (some low, ← skipPackstreamBytes input 1)

/-- The constants of `boltr::packstream::marker` that the check names. -/
structure Markers where
  (null boolFalse boolTrue float64 int64 int8 int16 int32 : UInt8)
  (bytes8 bytes16 bytes32 string8 string16 string32 : UInt8)
  (list8 list16 list32 dict8 dict16 dict32 : UInt8)
  (tinyStringNibble tinyListNibble tinyDictNibble tinyStructNibble : UInt8)

namespace Markers

variable (m : Markers)

/-- The arms that name their markers. -/
def arms : List (UInt8 × Arm) :=
  [(m.null, .bare), (m.boolFalse, .bare), (m.boolTrue, .bare), (m.float64, .fixed 8),
    (m.int64, .fixed 8), (m.int8, .fixed 1), (m.int16, .fixed 2), (m.int32, .fixed 4),
    (m.bytes8, .sized 1), (m.string8, .sized 1), (m.bytes16, .sized 2), (m.string16, .sized 2),
    (m.bytes32, .sized 4), (m.string32, .sized 4), (m.list8, .list 1), (m.list16, .list 2),
    (m.list32, .list 4), (m.dict8, .dict 1), (m.dict16, .dict 2), (m.dict32, .dict 4)]

/-- The arms whose markers have a value or a length in their low bits. -/
def tinyArm (marker : UInt8) : Option Arm :=
  let high := marker.toNat / 16 * 16
  let low := Fin.ofNat 16 marker.toNat
  if marker.toNat ≤ 0x7f ∨ 0xf0 ≤ marker.toNat then some .bare
  else if high = m.tinyStringNibble.toNat then some (.fixed low)
  else if high = m.tinyListNibble.toNat then some (.tinyList low)
  else if high = m.tinyDictNibble.toNat then some (.tinyDict low)
  else if high = m.tinyStructNibble.toNat then some (.tinyStruct low)
  else none

/-- The match on the marker. -/
def armOf (marker : UInt8) : Option Arm := (m.arms.lookup marker).or (m.tinyArm marker)

/-- The constants that are named are distinct, and those of tiny values are in ranges apart. -/
structure Standard : Prop where
  named : ∀ e ∈ m.arms, m.arms.lookup e.1 = some e.2 ∧ 0xc0 ≤ e.1.toNat ∧ e.1.toNat < 0xf0
  string : m.tinyStringNibble.toNat = 0x80
  list : m.tinyListNibble.toNat = 0x90
  dict : m.tinyDictNibble.toNat = 0xa0
  struct : m.tinyStructNibble.toNat = 0xb0

end Markers

/-- One round of the loop, with the values that are missing in the innermost container. -/
def packstreamRound (m : Markers) (remaining : Nat) (containers : List Nat) (input : List UInt8) :
    Except BoltError (List Nat × List UInt8) :=
  match remaining, input with
  | 0, input => .ok (containers, input)
  | _ + 1, [] => .error (.protocol "PackStream value ended unexpectedly")
  | remaining + 1, marker :: input =>
    match m.armOf marker with
    | none => .error (.protocol
        s!"unknown PackStream marker 0x{String.ofList (Nat.toDigits 16 marker.toNat)}")
    | some arm => do
      match ← arm.read input with
      | (none, input) => return (remaining :: containers, input)
      | (some values, input) =>
        return (← pushPackstreamContainer (remaining :: containers) values, input)

/-! ## The grammar -/

/-- What follows a marker: the rest of the input after a value that has no values inside, or before
the values inside a container, with their number. -/
inductive Arm.Reads : Arm → List UInt8 → Option Nat → List UInt8 → Prop where
  | bare : Reads .bare rest none rest
  | fixed : Reads (.fixed payload.length) (payload ++ rest) none rest
  | sized (h : length.length = width.val) (hpayload : payload.length = bigEndian length) :
      Reads (.sized width) (length ++ (payload ++ rest)) none rest
  | list (h : length.length = width.val) :
      Reads (.list width) (length ++ rest) (some (bigEndian length)) rest
  | dict (h : length.length = width.val) :
      Reads (.dict width) (length ++ rest) (some (bigEndian length * 2)) rest
  | tinyList : Reads (.tinyList low) rest (some low) rest
  | tinyDict : Reads (.tinyDict low) rest (some (low * 2)) rest
  | tinyStruct : Reads (.tinyStruct low) (tag :: rest) (some low) rest

section

variable (m : Markers)

/-- The markers and what follows them. -/
inductive Markers.Marks : UInt8 → Arm → Prop where
  | named (h : (marker, arm) ∈ m.arms) : Marks marker arm
  | tinyInt (h : marker.toNat < 0x80 ∨ 0xf0 ≤ marker.toNat) : Marks marker .bare
  | tinyString (low : Fin 16) (h : marker.toNat = m.tinyStringNibble.toNat + low) :
      Marks marker (.fixed low)
  | tinyList (low : Fin 16) (h : marker.toNat = m.tinyListNibble.toNat + low) :
      Marks marker (.tinyList low)
  | tinyDict (low : Fin 16) (h : marker.toNat = m.tinyDictNibble.toNat + low) :
      Marks marker (.tinyDict low)
  | tinyStruct (low : Fin 16) (h : marker.toNat = m.tinyStructNibble.toNat + low) :
      Marks marker (.tinyStruct low)

/-- The input begins with a number of values, one after the other, with containers nested no deeper
than `depth`, and goes on with the rest. -/
inductive Values : Nat → Nat → List UInt8 → List UInt8 → Prop where
  | nil : Values depth 0 rest rest
  | plain (marks : m.Marks marker arm) (reads : arm.Reads input none more)
      (values : Values depth n more rest) : Values depth (n + 1) (marker :: input) rest
  | container (marks : m.Marks marker arm) (reads : arm.Reads input (some k) inside)
      (inner : Values depth k inside more) (values : Values (depth + 1) n more rest) :
      Values (depth + 1) (n + 1) (marker :: input) rest

/-- What a round of the loop does: it leaves a container that is complete, passes over a value, or
enters a container. -/
inductive Round : Nat → List Nat → List UInt8 → List Nat → List UInt8 → Prop where
  | leave : Round 0 containers input containers input
  | pass (marks : m.Marks marker arm) (reads : arm.Reads input none rest) :
      Round (n + 1) containers (marker :: input) (n :: containers) rest
  | enter (marks : m.Marks marker arm) (reads : arm.Reads input (some k) rest)
      (h : containers.length + 1 < boltMaxPackstreamDepth) :
      Round (n + 1) containers (marker :: input) (k :: n :: containers) rest

end

variable {m : Markers} {input rest : List UInt8} {len width n : Nat} {opened : Option Nat}
  {marker : UInt8} {containers containers' : List Nat}

theorem skipPackstreamBytes_eq_ok_iff : skipPackstreamBytes input len = .ok rest ↔
    ∃ payload, payload.length = len ∧ payload ++ rest = input := by
  constructor
  · intro h
    obtain ⟨hlen, h⟩ := else_of_ne h nofun
    cases h
    exact ⟨input.take len, List.length_take_of_le (not_lt.1 hlen), List.take_append_drop ..⟩
  · rintro ⟨payload, rfl, rfl⟩
    rw [skipPackstreamBytes, if_neg (by simp), List.drop_left]

theorem readPackstreamLength_eq_ok_iff : readPackstreamLength input width = .ok (n, rest) ↔
    ∃ length, length.length = width ∧ bigEndian length = n ∧ length ++ rest = input := by
  constructor
  · intro h
    obtain ⟨hlen, h⟩ := else_of_ne h nofun
    cases h
    exact ⟨input.take width, List.length_take_of_le (not_lt.1 hlen), rfl,
      List.take_append_drop ..⟩
  · rintro ⟨length, rfl, rfl, rfl⟩
    rw [readPackstreamLength, if_neg (by simp), List.drop_left, List.take_left]

/-- A length of four bytes can be doubled. -/
theorem checkedDictValues_bigEndian (h : input.length ≤ 4) :
    checkedDictValues (bigEndian input) = .ok (bigEndian input * 2) := by
  have hlt : bigEndian input < 256 ^ input.length := by
    refine (Nat.ofDigits_lt_base_pow_length (b := 256) (by omega) ?_).trans_eq ?_
    · simpa using fun b _ => b.toNat_lt
    · rw [List.length_map, List.length_reverse]
  have hle : 256 ^ input.length ≤ 256 ^ 4 := Nat.pow_le_pow_right (by omega) h
  exact if_pos (by rw [u64Bound]; omega)

theorem checkedDictValues_low (low : Fin 16) : checkedDictValues low = .ok (low * 2) :=
  if_pos (by rw [u64Bound]; omega)

theorem Arm.reads_of_read (arm : Arm) (h : arm.read input = .ok (opened, rest)) :
    arm.Reads input opened rest := by
  cases arm with
  | bare =>
    cases h
    exact .bare
  | fixed len =>
    obtain ⟨rest, hskip, ⟨⟩⟩ := bind_ok h
    obtain ⟨payload, rfl, rfl⟩ := skipPackstreamBytes_eq_ok_iff.1 hskip
    exact .fixed
  | sized width =>
    obtain ⟨⟨len, more⟩, hlength, hrest⟩ := bind_ok h
    obtain ⟨length, hwidth, rfl, rfl⟩ := readPackstreamLength_eq_ok_iff.1 hlength
    obtain ⟨rest, hskip, ⟨⟩⟩ := bind_ok hrest
    obtain ⟨payload, hlen, rfl⟩ := skipPackstreamBytes_eq_ok_iff.1 hskip
    exact .sized hwidth hlen
  | list width =>
    obtain ⟨⟨len, more⟩, hlength, ⟨⟩⟩ := bind_ok h
    obtain ⟨length, hwidth, rfl, rfl⟩ := readPackstreamLength_eq_ok_iff.1 hlength
    exact .list hwidth
  | dict width =>
    obtain ⟨⟨len, more⟩, hlength, hrest⟩ := bind_ok h
    obtain ⟨length, hwidth, rfl, rfl⟩ := readPackstreamLength_eq_ok_iff.1 hlength
    obtain ⟨values, hvalues, ⟨⟩⟩ := bind_ok hrest
    cases (checkedDictValues_bigEndian (by omega)).symm.trans hvalues
    exact .dict hwidth
  | tinyList low =>
    cases h
    exact .tinyList
  | tinyDict low =>
    rw [read, checkedDictValues_low] at h
    cases h
    exact .tinyDict
  | tinyStruct low =>
    obtain ⟨rest, hskip, ⟨⟩⟩ := bind_ok h
    obtain ⟨payload, hlen, rfl⟩ := skipPackstreamBytes_eq_ok_iff.1 hskip
    obtain ⟨tag, rfl⟩ := List.length_eq_one_iff.1 hlen
    exact .tinyStruct

theorem Arm.Reads.read {arm : Arm} (h : arm.Reads input opened rest) :
    arm.read input = .ok (opened, rest) := by
  have hskip payload : skipPackstreamBytes (payload ++ rest) payload.length = .ok rest :=
    skipPackstreamBytes_eq_ok_iff.2 ⟨payload, rfl, rfl⟩
  have hlength {length rest} : readPackstreamLength (length ++ rest) length.length =
      .ok (bigEndian length, rest) :=
    readPackstreamLength_eq_ok_iff.2 ⟨length, rfl, rfl, rfl⟩
  cases h with
  | bare | tinyList => rfl
  | fixed =>
    rw [Arm.read, hskip]
    rfl
  | sized h hpayload =>
    simp only [Arm.read, ← h, hlength, Except.ok_bind, ← hpayload, hskip]
    rfl
  | list h =>
    rw [Arm.read, ← h, hlength]
    rfl
  | dict h =>
    simp only [Arm.read, ← h, hlength, Except.ok_bind,
      checkedDictValues_bigEndian (h.trans_le (by omega))]
    rfl
  | tinyDict =>
    rw [Arm.read, checkedDictValues_low]
    rfl
  | tinyStruct => exact congrArg (· >>= _) (hskip [_])

theorem Arm.Reads.length_le {arm : Arm} (h : arm.Reads input opened rest) :
    rest.length ≤ input.length := by
  cases h <;> grind

namespace Markers

theorem marks_of_armOf {arm} (h : m.armOf marker = some arm) : m.Marks marker arm := by
  rcases Option.or_eq_some_iff.1 h with harm | ⟨-, h⟩
  · obtain ⟨before, after, harms, -⟩ := List.lookup_eq_some_iff.1 harm
    exact .named (by simp [harms])
  have hlow : (Fin.ofNat 16 marker.toNat).val = marker.toNat % 16 := rfl
  unfold tinyArm at h
  dsimp only at h
  split at h
  · cases h
    exact .tinyInt (by omega)
  split at h
  · cases h
    exact .tinyString _ (by omega)
  split at h
  · cases h
    exact .tinyList _ (by omega)
  split at h
  · cases h
    exact .tinyDict _ (by omega)
  split at h
  · cases h
    exact .tinyStruct _ (by omega)
  · cases h

theorem Marks.armOf_eq {arm} (standard : m.Standard) (h : m.Marks marker arm) :
    m.armOf marker = some arm := by
  obtain ⟨hnamed, hstring, hlist, hdict, hstruct⟩ := standard
  have htiny (h : marker.toNat < 0xc0 ∨ 0xf0 ≤ marker.toNat) :
      m.armOf marker = m.tinyArm marker := by
    have hnone : m.arms.lookup marker = none := by
      refine List.lookup_eq_none_iff.2 fun e he => bne_iff_ne.2 ?_
      rintro rfl
      have := (hnamed e he).2
      omega
    rw [armOf, hnone, Option.none_or]
  have hlow (low : Fin 16) (h : marker.toNat % 16 = low) : Fin.ofNat 16 marker.toNat = low :=
    Fin.ext h
  cases h with
  | named h => rw [armOf, (hnamed _ h).1, Option.some_or]
  | tinyInt h => rw [htiny (by omega), tinyArm, if_pos (by omega)]
  | tinyString low h =>
    rw [htiny (by omega), tinyArm, if_neg (by omega), if_pos (by omega), hlow low (by omega)]
  | tinyList low h =>
    rw [htiny (by omega), tinyArm, if_neg (by omega), if_neg (by omega), if_pos (by omega),
      hlow low (by omega)]
  | tinyDict low h =>
    rw [htiny (by omega), tinyArm, if_neg (by omega), if_neg (by omega), if_neg (by omega),
      if_pos (by omega), hlow low (by omega)]
  | tinyStruct low h =>
    rw [htiny (by omega), tinyArm, if_neg (by omega), if_neg (by omega), if_neg (by omega),
      if_neg (by omega), if_pos (by omega), hlow low (by omega)]

end Markers

theorem round_of_packstreamRound
    (h : packstreamRound m n containers input = .ok (containers', rest)) :
    Round m n containers input containers' rest := by
  unfold packstreamRound at h
  split at h
  · cases h
    exact .leave
  · cases h
  split at h
  · cases h
  next arm harm =>
  have marks := Markers.marks_of_armOf harm
  obtain ⟨⟨opened, rest⟩, hread, h⟩ := bind_ok h
  have reads := arm.reads_of_read hread
  cases opened with
  | none =>
    cases h
    exact .pass marks reads
  | some k =>
    obtain ⟨_, hpush, h⟩ := bind_ok h
    obtain ⟨hlt, hpush⟩ := else_of_ne hpush nofun
    cases hpush
    cases h
    exact .enter marks reads (not_le.1 hlt)

theorem packstreamRound_of_round (standard : m.Standard)
    (h : Round m n containers input containers' rest) :
    packstreamRound m n containers input = .ok (containers', rest) := by
  cases h with
  | leave => rfl
  | pass marks reads =>
    simp only [packstreamRound, marks.armOf_eq standard, reads.read, Except.ok_bind]
    rfl
  | enter marks reads h =>
    have hpush {n k} : pushPackstreamContainer (n :: containers) k = .ok (k :: n :: containers) :=
      if_neg (not_le.2 h)
    simp only [packstreamRound, marks.armOf_eq standard, reads.read, Except.ok_bind, hpush]
    rfl

/-! ## The loop -/

/-- The loop of `validate_packstream_values`. -/
def validateLoop (m : Markers) (containers : List Nat) (input : List UInt8) :
    Except BoltError Unit :=
  match containers with
  | [] =>
    if input.isEmpty then .ok ()
    else .error (.protocol "Bolt message contains trailing PackStream data")
  | remaining :: containers =>
    match _h : packstreamRound m remaining containers input with
    | .error error => .error error
    | .ok (containers', rest) => validateLoop m containers' rest
termination_by 2 * input.length + containers.length
decreasing_by
  cases round_of_packstreamRound _h with
  | leave => simp
  | pass _ reads | enter _ reads =>
    have := reads.length_le
    simp only [List.length_cons]
    omega

/-- `validate_packstream_values`. -/
def validatePackstreamValues (m : Markers) (values : List UInt8) (rootValues : Nat) :
    Except BoltError Unit :=
  validateLoop m [rootValues] values

/-- The input is what is missing in every open container, the innermost first. -/
def Completes (m : Markers) : List Nat → List UInt8 → Prop
  | [], input => input = []
  | remaining :: containers, input => ∃ rest,
    Values m (boltMaxPackstreamDepth - (containers.length + 1)) remaining input rest ∧
      Completes m containers rest

theorem completes_cons : Completes m (n :: containers) input ↔ ∃ containers' rest,
    Round m n containers input containers' rest ∧ Completes m containers' rest := by
  constructor
  · rintro ⟨rest, hvalues, hrest⟩
    generalize hdepth : boltMaxPackstreamDepth - (containers.length + 1) = depth at hvalues
    cases hvalues with
    | nil => exact ⟨containers, _, .leave, hrest⟩
    | plain marks reads htail => exact ⟨_, _, .pass marks reads, rest, hdepth ▸ htail, hrest⟩
    | container marks reads hinner htail =>
      refine ⟨_, _, .enter marks reads (by omega), _, ?_, rest, hdepth ▸ htail, hrest⟩
      rw [List.length_cons, Nat.sub_add_eq, hdepth]
      exact hinner
  · rintro ⟨containers', rest, hround, h⟩
    cases hround with
    | leave => exact ⟨input, .nil, h⟩
    | pass marks reads =>
      obtain ⟨rest, hvalues, hrest⟩ := h
      exact ⟨rest, .plain marks reads hvalues, hrest⟩
    | enter marks reads hlt =>
      obtain ⟨_, hinner, rest, htail, hrest⟩ := h
      obtain ⟨depth, hdepth⟩ := Nat.exists_eq_succ_of_ne_zero (Nat.sub_ne_zero_of_lt hlt)
      rw [List.length_cons, Nat.sub_add_eq, hdepth] at hinner
      rw [hdepth] at htail
      exact ⟨rest, hdepth ▸ .container marks reads hinner htail, hrest⟩

theorem validateLoop_eq_ok_iff (standard : m.Standard) :
    validateLoop m containers input = .ok () ↔ Completes m containers input := by
  fun_induction validateLoop m containers input with
  | case1 input hempty => exact iff_of_true rfl (List.isEmpty_iff.1 hempty)
  | case2 input hempty => exact iff_of_false nofun fun h => hempty (List.isEmpty_iff.2 h)
  | case3 input remaining containers error herror =>
    refine iff_of_false nofun fun h => ?_
    obtain ⟨_, _, hround, -⟩ := completes_cons.1 h
    cases herror.symm.trans (packstreamRound_of_round standard hround)
  | case4 input remaining containers containers' rest hround ih =>
    rw [ih, completes_cons]
    refine ⟨fun h => ⟨_, _, round_of_packstreamRound hround, h⟩, ?_⟩
    rintro ⟨_, _, hround', h⟩
    cases hround.symm.trans (packstreamRound_of_round standard hround')
    exact h

/-- A round of the loop, from one stack and input to the next. -/
def LoopStep (m : Markers) (s s' : List Nat × List UInt8) : Prop :=
  ∃ remaining containers, s.1 = remaining :: containers ∧
    packstreamRound m remaining containers s.2 = .ok s'

/-- The markers of the PackStream format. -/
def packstreamMarkers : Markers :=
  ⟨0xc0, 0xc2, 0xc3, 0xc1, 0xcb, 0xc8, 0xc9, 0xca,
    0xcc, 0xcd, 0xce, 0xd0, 0xd1, 0xd2,
    0xd4, 0xd5, 0xd6, 0xd8, 0xd9, 0xda,
    0x80, 0x90, 0xa0, 0xb0⟩

end HydraDb.Bolt
