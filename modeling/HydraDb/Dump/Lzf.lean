import HydraDb.Core.Model
import HydraDb.Lib.Loop

/-!
# LZF strings of a dump

A compressed string is a sequence of literal runs and references back into what has been expanded;
a reference may reach into its own copy. `lzfDecompress` (`lzf_decompress`,
`falkordb-rdb/src/lib.rs`) expands it byte by byte, after a look at the declared length. `Token`
says what there is to read and what it expands to, and `lzfDecompress_eq_ok_iff` that nothing else
is accepted and nothing else is returned.
-/

namespace HydraDb.Rdb

open List

/-! ## A round of the code -/

/-- `DecodeError`, without the failures of other libraries. -/
inductive DecodeError where
  | invalid (layer : String) (offset : Nat) (message : String)
  | truncated (layer : String) (offset need have' : Nat)

/-- `MAX_SINGLE_ALLOCATION_BYTES`. -/
def maxSingleAllocationBytes : Nat := 2 * 1024 * 1024 * 1024

/-- The loop that copies `length` bytes from `distance` behind the end. -/
def copyBack (distance : Nat) (output : List UInt8) : Nat → List UInt8
  | 0 => output
  | length + 1 =>
    let output := copyBack distance output length
    output ++ [output.getD (output.length - distance) 0]

/-- One round of `lzf_decompress` after its control byte: the position, the rest and the output. -/
def lzfRound (position : Nat) (control : UInt8) (rest output : List UInt8) :
    Except DecodeError (Nat × List UInt8 × List UInt8) :=
  if control.toNat < 32 then
    let length := control.toNat + 1
    if rest.length < length then .error (.truncated "lzf" position length rest.length)
    else .ok (position + length, rest.drop length, output ++ rest.take length)
  else
    match control.toNat / 32 == 7, rest with
    | true, [] => .error (.truncated "lzf" position 1 0)
    | true, more :: rest => finish (position + 1) (7 + more.toNat) rest
    | false, rest => finish position (control.toNat / 32) rest
where
  finish (position length : Nat) : List UInt8 → Except DecodeError (Nat × List UInt8 × List UInt8)
    | [] => .error (.truncated "lzf" position 1 0)
    | low :: rest =>
      let distance := control.toNat % 32 * 256 + low.toNat + 1
      if output.length < distance then
        .error (.invalid "lzf" (position + 1) "back-reference precedes output")
      else .ok (position + 1, rest, copyBack distance output (length + 2))

variable {control : UInt8} {rest rest' input output output' result : List UInt8}
  {position position' expected distance : Nat}

/-! ## What there is to read -/

/-- A literal run or a back reference. -/
inductive Token where
  | literal (bytes : List UInt8) (length : 1 ≤ bytes.length ∧ bytes.length ≤ 32)
  | reference (length distance : Nat) (range : 3 ≤ length ∧ length ≤ 264)
    (reach : 1 ≤ distance ∧ distance ≤ 8192)

namespace Token

/-- How a token is written. The distance is written less one, its low byte last. -/
def encode : Token → List UInt8
  | literal bytes _ => .ofNat (bytes.length - 1) :: bytes
  | reference length distance _ _ =>
    if length < 9 then
      [.ofNat ((length - 2) * 32 + (distance - 1) / 256), .ofNat ((distance - 1) % 256)]
    else
      [.ofNat (7 * 32 + (distance - 1) / 256), .ofNat (length - 9), .ofNat ((distance - 1) % 256)]

/-- What a token expands to after what has been expanded. A reference that is longer than its
distance repeats what it reaches. -/
def expand (output : List UInt8) : Token → Option (List UInt8)
  | literal bytes _ => some (output ++ bytes)
  | reference length distance _ _ =>
    if distance ≤ output.length then
      some (output ++ (range length).map fun i =>
        output.getD (output.length - distance + i % distance) 0)
    else none

end Token

/-- The bytes are a sequence of tokens that expand to the result. -/
def Expands (input output result : List UInt8) : Prop :=
  ∃ tokens : List Token, tokens.flatMap Token.encode = input ∧
    tokens.foldlM Token.expand output = some result

theorem copyBack_eq (hpos : 1 ≤ distance) (hle : distance ≤ output.length) (length : Nat) :
    copyBack distance output length = output ++ (range length).map fun i =>
      output.getD (output.length - distance + i % distance) 0 := by
  induction length with
  | zero => simp [copyBack]
  | succ n ih =>
    rw [copyBack, ih, range_succ, map_append, ← append_assoc]
    refine congrArg (fun byte => _ ++ [byte]) ?_
    simp only [getD_eq_getElem?_getD, length_append, length_map, length_range]
    by_cases hn : n < distance
    · have hindex : output.length + n - distance = output.length - distance + n := by omega
      rw [hindex, getElem?_append_left (by omega), Nat.mod_eq_of_lt hn]
    have hindex : output.length + n - distance = output.length + (n - distance) := by omega
    rw [hindex, getElem?_append_right (by omega), Nat.add_sub_cancel_left, getElem?_map,
      getElem?_range (by omega), Option.map_some, Option.getD_some,
      ← Nat.mod_eq_sub_mod (not_lt.1 hn)]

theorem Token.length_expand {token : Token} (h : token.expand output = some output') :
    output.length ≤ output'.length ∧ output'.length ≤ output.length + 88 * token.encode.length := by
  cases token with
  | literal bytes length =>
    cases h
    simp only [encode, length_append, length_cons]
    omega
  | reference length distance range reach =>
    obtain ⟨-, h⟩ := then_of_ne h nofun
    cases h
    simp only [encode, length_append, length_map, length_range]
    split <;> simp only [length_cons, length_nil] <;> omega

/-- An expansion grows, and to no more than 88 times the input. -/
theorem Expands.length (h : Expands input output result) :
    output.length ≤ result.length ∧ result.length ≤ output.length + 88 * input.length := by
  obtain ⟨tokens, rfl, h⟩ := h
  induction tokens generalizing output with
  | nil =>
    cases h
    simp
  | cons token tokens ih =>
    obtain ⟨output', htoken, h⟩ := Option.bind_eq_some_iff.1 h
    have hfirst := token.length_expand htoken
    have hrest := ih h
    rw [flatMap_cons, length_append]
    omega

theorem ofNat_eq_iff {b : UInt8} (h : n < 256) : UInt8.ofNat n = b ↔ n = b.toNat := by
  rw [← UInt8.toNat_inj, UInt8.toNat_ofNat', Nat.mod_eq_of_lt h]

/-- `lzfRound.finish` reads the rest of a reference. -/
theorem finish_eq_ok_iff {length : Nat} :
    (∃ position', lzfRound.finish control output position length rest =
      .ok (position', rest', output')) ↔
    ∃ distance, 1 ≤ distance ∧ (distance - 1) / 256 = control.toNat % 32 ∧
      .ofNat ((distance - 1) % 256) :: rest' = rest ∧ distance ≤ output.length ∧
      output ++ (range (length + 2)).map (fun i =>
        output.getD (output.length - distance + i % distance) 0) = output' := by
  constructor
  · rintro ⟨position', h⟩
    cases rest with
    | nil => cases h
    | cons low rest =>
      obtain ⟨hreach, h⟩ := else_of_ne h nofun
      cases h
      have hlow := low.toNat_lt
      refine ⟨_, Nat.le_add_left _ _, by omega, ?_, not_lt.1 hreach,
        (copyBack_eq (Nat.le_add_left _ _) (not_lt.1 hreach) _).symm⟩
      rw [(ofNat_eq_iff (b := low) (by omega)).2 (by omega)]
  · rintro ⟨distance, hpos, hhigh, rfl, hreach, rfl⟩
    have hlow := (ofNat_eq_iff (Nat.mod_lt (distance - 1) (by decide))).1 rfl
    have hdistance : (distance - 1) / 256 * 256 + (distance - 1) % 256 + 1 = distance := by omega
    rw [← copyBack_eq hpos hreach, lzfRound.finish, ← hhigh, ← hlow, hdistance]
    exact ⟨_, if_neg (not_lt.2 hreach)⟩

/-- A round reads a token. -/
theorem lzfRound_eq_ok_iff :
    (∃ position', lzfRound position control rest output = .ok (position', rest', output')) ↔
      ∃ token : Token, token.encode ++ rest' = control :: rest ∧
        token.expand output = some output' := by
  have hcontrol := control.toNat_lt
  unfold lzfRound
  constructor
  · rintro ⟨position', h⟩
    split at h
    · obtain ⟨hlength, h⟩ := else_of_ne h nofun
      cases h
      have htake : (rest.take (control.toNat + 1)).length = control.toNat + 1 := by
        rw [length_take]
        omega
      refine ⟨.literal (rest.take (control.toNat + 1)) (by omega), ?_, rfl⟩
      rw [Token.encode, htake, Nat.add_sub_cancel, UInt8.ofNat_toNat, cons_append, take_append_drop]
    · split at h
      · cases h
      · next more rest hlong =>
        obtain ⟨distance, hpos, hhigh, rfl, hreach, rfl⟩ := finish_eq_ok_iff.1 ⟨_, h⟩
        have hmore := more.toNat_lt
        have hseven := eq_of_beq hlong
        refine ⟨.reference (7 + more.toNat + 2) distance (by omega) (by omega), ?_, if_pos hreach⟩
        rw [Token.encode, if_neg (by omega), (ofNat_eq_iff (b := control) (by omega)).2 (by omega),
          (ofNat_eq_iff (b := more) (by omega)).2 (by omega)]
        rfl
      · next hshort =>
        obtain ⟨distance, hpos, hhigh, rfl, hreach, rfl⟩ := finish_eq_ok_iff.1 ⟨_, h⟩
        have hne := ne_of_beq_false hshort
        refine ⟨.reference (control.toNat / 32 + 2) distance (by omega) (by omega), ?_,
          if_pos hreach⟩
        rw [Token.encode, if_pos (by omega), (ofNat_eq_iff (b := control) (by omega)).2 (by omega)]
        rfl
  · rintro ⟨token, hencode, hexpand⟩
    cases token with
    | literal bytes length =>
      obtain ⟨hbyte, rfl⟩ := cons.inj hencode
      cases hexpand
      have hlength : control.toNat + 1 = bytes.length := by
        rw [← (ofNat_eq_iff (by omega)).1 hbyte]
        omega
      rw [if_pos (by omega)]
      dsimp only
      rw [hlength, append_eq, length_append, if_neg (by omega), take_left, drop_left]
      exact ⟨_, rfl⟩
    | reference length distance range reach =>
      obtain ⟨hreach, hexpand⟩ := then_of_ne hexpand nofun
      cases hexpand
      rw [Token.encode] at hencode
      split at hencode
      · obtain ⟨hbyte, rfl⟩ := cons.inj hencode
        have hcontrol := (ofNat_eq_iff (by omega)).1 hbyte
        have hlength : control.toNat / 32 + 2 = length := by omega
        rw [if_neg (by omega), beq_false_of_ne (by omega)]
        exact finish_eq_ok_iff.2 ⟨distance, reach.1, by omega, rfl, hreach, by rw [hlength]⟩
      · obtain ⟨hbyte, rfl⟩ := cons.inj hencode
        have hcontrol := (ofNat_eq_iff (by omega)).1 hbyte
        have hmore := (ofNat_eq_iff (n := length - 9) (by omega)).1 rfl
        have hseven : control.toNat / 32 = 7 := by omega
        have hlength : 7 + (UInt8.ofNat (length - 9)).toNat + 2 = length := by omega
        rw [if_neg (by omega), hseven]
        exact finish_eq_ok_iff.2 ⟨distance, reach.1, by omega, rfl, hreach, by rw [hlength]⟩

theorem Token.encode_pos (token : Token) : 0 < token.encode.length := by
  cases token with
  | literal => exact Nat.succ_pos _
  | reference =>
    rw [encode]
    split <;> exact Nat.succ_pos _

/-! ## The code -/

/-- The loop of `lzf_decompress` from a position on. -/
def lzfLoop (expected position : Nat) (input output : List UInt8) :
    Except DecodeError (List UInt8) :=
  match input with
  | [] =>
    if output.length ≠ expected then
      .error (.invalid "lzf" position s!"decoded {output.length} bytes, expected {expected}")
    else .ok output
  | control :: rest =>
    match _h : lzfRound (position + 1) control rest output with
    | .error error => .error error
    | .ok (position, rest', output) =>
      if expected < output.length then
        .error (.invalid "lzf" position "output exceeds declared length")
      else lzfLoop expected position rest' output
termination_by input.length
decreasing_by
  obtain ⟨token, hencode, -⟩ := lzfRound_eq_ok_iff.1 ⟨_, _h⟩
  have hlength := congrArg length hencode
  have hpos := token.encode_pos
  rw [length_append] at hlength
  omega

/-- `lzf_decompress`, when the memory that it asks for is there. -/
def lzfDecompress (input : List UInt8) (expected : Nat) : Except DecodeError (List UInt8) :=
  let expansionLimit := min (input.length * 128) (u64Bound - 1)
  if expansionLimit < expected then
    .error (.invalid "resource-limit" 0 (s!"LZF output declares {expected} bytes from " ++
      s!"{input.length} input bytes, expansion limit is {expansionLimit}"))
  else if maxSingleAllocationBytes < expected then
    .error (.invalid "resource-limit" 0 (s!"LZF output requests {expected} bytes, " ++
      s!"limit is {maxSingleAllocationBytes} bytes"))
  else lzfLoop expected 0 input []

/-! ## The result -/

theorem expands_nil : Expands [] output result ↔ output = result := by
  constructor
  · rintro ⟨tokens, hnil, h⟩
    cases tokens with
    | nil => exact Option.some.inj h
    | cons token tokens =>
      have hpos := token.encode_pos
      rw [(append_eq_nil_iff.1 hnil).1] at hpos
      cases hpos
  · rintro rfl
    exact ⟨[], rfl, rfl⟩

theorem expands_cons (position : Nat) : Expands (control :: rest) output result ↔
    ∃ rest' output', (∃ position', lzfRound position control rest output =
      .ok (position', rest', output')) ∧ Expands rest' output' result := by
  simp only [lzfRound_eq_ok_iff]
  constructor
  · rintro ⟨tokens, hinput, h⟩
    cases tokens with
    | nil => cases hinput
    | cons token tokens =>
      obtain ⟨output', htoken, h⟩ := Option.bind_eq_some_iff.1 h
      exact ⟨_, output', ⟨token, hinput, htoken⟩, tokens, rfl, h⟩
  · rintro ⟨_, output', ⟨token, hinput, htoken⟩, tokens, rfl, h⟩
    exact ⟨token :: tokens, hinput, Option.bind_eq_some_iff.2 ⟨output', htoken, h⟩⟩

theorem lzfLoop_eq_ok_iff : lzfLoop expected position input output = .ok result ↔
    Expands input output result ∧ result.length = expected := by
  fun_induction lzfLoop expected position input output with
  | case1 position output hne =>
    rw [expands_nil]
    refine iff_of_false nofun ?_
    rintro ⟨rfl, h⟩
    exact hne h
  | case2 position output heq =>
    rw [expands_nil]
    constructor
    · rintro ⟨⟩
      exact ⟨rfl, not_not.1 heq⟩
    · rintro ⟨rfl, -⟩
      rfl
  | case3 position output control rest error herror =>
    refine iff_of_false nofun fun ⟨h, _⟩ => ?_
    obtain ⟨_, _, ⟨_, hround⟩, -⟩ := (expands_cons (position + 1)).1 h
    cases herror.symm.trans hround
  | case4 position output control rest position' rest' output' hround hlong =>
    refine iff_of_false nofun fun ⟨h, hlength⟩ => ?_
    obtain ⟨_, _, ⟨_, hround'⟩, h⟩ := (expands_cons (position + 1)).1 h
    cases hround.symm.trans hround'
    have := h.length
    omega
  | case5 position output control rest position' rest' output' hround _ ih =>
    rw [ih, expands_cons (position + 1)]
    refine and_congr_left fun _ => ⟨fun h => ⟨_, _, ⟨_, hround⟩, h⟩, ?_⟩
    rintro ⟨_, _, ⟨_, hround'⟩, h⟩
    cases hround.symm.trans hround'
    exact h

/-- **LZF decompression is exact.** Below the ceiling for one allocation, what is returned for a
declared length is what the input expands to, if it consists of tokens none of which reaches before
the start and that expand to this length; otherwise there is an error. -/
theorem lzfDecompress_eq_ok_iff (h : expected ≤ maxSingleAllocationBytes) :
    lzfDecompress input expected = .ok output ↔
      Expands input [] output ∧ output.length = expected := by
  unfold lzfDecompress
  dsimp only
  split
  · next hlimit =>
    -- an expansion of the declared length would be within the limit
    refine iff_of_false nofun ?_
    rintro ⟨hexpands, rfl⟩
    have hlength := hexpands.length
    simp only [maxSingleAllocationBytes, u64Bound, length_nil] at h hlimit hlength
    omega
  · rw [if_neg (not_lt.2 h), lzfLoop_eq_ok_iff]

theorem lzfDecompress_eq_ok_iff_overlap :
    4 ≤ maxSingleAllocationBytes ∧ lzfDecompress [0, 7, 32, 0] 4 = .ok [7, 7, 7, 7] :=
  ⟨by decide, (lzfDecompress_eq_ok_iff (by decide)).2
    ⟨⟨[.literal [7] (by decide), .reference 3 1 (by decide) (by decide)], rfl, rfl⟩, rfl⟩⟩

end HydraDb.Rdb
