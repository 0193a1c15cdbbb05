import HydraDb.Index.Csc
import Mathlib.Data.Nat.Digits.Defs

/-!
# The payload of an index generation

A generation is published as the bytes of its compressed matrix behind a magic text, the sequence it
was built at, the WAL position and a checksum (`encode_graph_index_csc`, `engine/index_store.rs`).
Reading it back checks all of these and the form of the matrix. Decoding accepts exactly the
payloads of formed matrices (`decodeGraphIndexCsc_eq_ok_iff`): what is accepted is re-encoded to the
same bytes, and every other byte string is reported as corrupt.
-/

namespace HydraDb

open List

/-! ## Words -/

/-- `u64::to_le_bytes`. -/
def leBytes (value : UInt64) : List UInt8 :=
  [value, value >>> 8, value >>> 16, value >>> 24, value >>> 32, value >>> 40, value >>> 48,
    value >>> 56].map UInt64.toUInt8

/-- `u64::from_le_bytes`. -/
def fromLeBytes (bytes : List UInt8) : UInt64 :=
  bytes.foldr (fun byte value => value * 256 + byte.toUInt64) 0

@[simp] theorem length_leBytes (value : UInt64) : (leBytes value).length = 8 := rfl

/-- A word is its lowest byte and the rest. -/
theorem shiftRight_mul_add_toUInt8 (value high low : UInt64)
    (h : high.toNat % 64 = low.toNat % 64 + 8) :
    (value >>> high) * 256 + (value >>> low).toUInt8.toUInt64 = value >>> low := by
  apply UInt64.toNat_inj.1
  have hlt := (value >>> low).toNat_lt
  have hhigh : (value >>> high).toNat = (value >>> low).toNat / 256 := by
    rw [UInt64.toNat_shiftRight, UInt64.toNat_shiftRight, h, Nat.shiftRight_add,
      Nat.shiftRight_eq_div_pow _ 8]
  rw [UInt64.toNat_add, UInt64.toNat_mul, UInt8.toNat_toUInt64, UInt64.toNat_toUInt8, hhigh]
  change (_ / 256 * 256 % 2 ^ 64 + _) % 2 ^ 64 = _
  omega

theorem fromLeBytes_leBytes (value : UInt64) : fromLeBytes (leBytes value) = value := by
  have hlast : (0 : UInt64) * (256 : UInt64) + (value >>> 56).toUInt8.toUInt64 = value >>> 56 := by
    apply UInt64.toNat_inj.1
    have hbyte : (value >>> 56).toNat < 256 := by
      rw [UInt64.toNat_shiftRight, Nat.shiftRight_eq_div_pow]
      exact Nat.div_lt_of_lt_mul value.toNat_lt
    rw [UInt64.zero_mul, UInt64.zero_add, UInt8.toNat_toUInt64, UInt64.toNat_toUInt8,
      Nat.mod_eq_of_lt hbyte]
  have hfirst : (value >>> 8) * 256 + value.toUInt8.toUInt64 = value := by
    simpa using shiftRight_mul_add_toUInt8 value 8 0 rfl
  simp only [leBytes, fromLeBytes, map_cons, map_nil, foldr_cons, foldr_nil]
  rw [hlast, shiftRight_mul_add_toUInt8 _ 56 48 rfl, shiftRight_mul_add_toUInt8 _ 48 40 rfl,
    shiftRight_mul_add_toUInt8 _ 40 32 rfl, shiftRight_mul_add_toUInt8 _ 32 24 rfl,
    shiftRight_mul_add_toUInt8 _ 24 16 rfl, shiftRight_mul_add_toUInt8 _ 16 8 rfl, hfirst]

/-- `encode_index_u64s`. -/
def encodeIndexU64s (values : List UInt64) : List UInt8 :=
  leBytes (.ofNat values.length) ++ values.flatMap leBytes

/-- `decode_index_u64`: the word at the cursor, and the cursor after it. -/
def decodeIndexU64 (key : String) (value : List UInt8) (cursor : Nat) (field : String) :
    Except GraphError (UInt64 × Nat) :=
  if cursor + 8 ≤ value.length then
    .ok (fromLeBytes ((value.drop cursor).take 8), cursor + 8)
  else .error (.corruptValue key ("truncated " ++ field))

/-- `decode_index_u64s`. -/
def decodeIndexU64s (key : String) (value : List UInt8) (cursor : Nat) (field : String) :
    Except GraphError (List UInt64 × Nat) := do
  let (len, cursor) ← decodeIndexU64 key value cursor field
  if len.toNat * 8 ≥ u64Bound then
    .error (.corruptValue key (field ++ " byte length overflow"))
  else if cursor + len.toNat * 8 ≥ u64Bound then
    .error (.corruptValue key (field ++ " cursor overflow"))
  else if cursor + len.toNat * 8 ≤ value.length then
    .ok ((range len.toNat).map fun i =>
      fromLeBytes ((value.drop (cursor + i * 8)).take 8), cursor + len.toNat * 8)
  else .error (.corruptValue key ("truncated " ++ field))

/-! ## Words of a payload -/

theorem toNat_fromLeBytes (h : bytes.length ≤ 8) :
    (fromLeBytes bytes).toNat = Nat.ofDigits 256 (bytes.map UInt8.toNat) := by
  induction bytes with
  | nil => rfl
  | cons b bytes ih =>
    have hlen : bytes.length ≤ 7 := Nat.le_of_succ_le_succ h
    have hrest := ih (hlen.trans (by omega))
    have hlt : Nat.ofDigits 256 (bytes.map UInt8.toNat) < 256 ^ 7 := by
      refine (Nat.ofDigits_lt_base_pow_length (by omega) ?_).trans_le
        (Nat.pow_le_pow_right (by omega) ((length_map _).le.trans hlen))
      simpa using fun b _ => b.toNat_lt
    have hb := b.toNat_lt
    rw [fromLeBytes, foldr_cons, ← fromLeBytes, UInt64.toNat_add, UInt64.toNat_mul, hrest,
      UInt8.toNat_toUInt64, map_cons, Nat.ofDigits_cons]
    change (_ * 256 % 2 ^ 64 + _) % 2 ^ 64 = _
    omega

theorem leBytes_fromLeBytes (h : bytes.length = 8) : leBytes (fromLeBytes bytes) = bytes := by
  have hdigits := congrArg UInt64.toNat (fromLeBytes_leBytes (fromLeBytes bytes))
  rw [toNat_fromLeBytes (by simp), toNat_fromLeBytes h.le] at hdigits
  refine map_injective_iff.2 (fun a b => UInt8.toNat_inj.1)
    (Nat.ofDigits_inj_of_len_eq (by omega) (by simp [h]) ?_ ?_ hdigits)
  all_goals simpa using fun b _ => b.toNat_lt

theorem length_flatMap_leBytes (words : List UInt64) :
    (words.flatMap leBytes).length = words.length * 8 := by
  simp

/-- Eight bytes at a time are the words whose bytes they are. -/
theorem map_fromLeBytes_eq_iff (bytes : List UInt8) (words : List UInt64)
    (h : words.length * 8 ≤ bytes.length) :
    ((range words.length).map fun i => fromLeBytes ((bytes.drop (i * 8)).take 8)) = words ↔
      bytes.take (words.length * 8) = words.flatMap leBytes := by
  induction words generalizing bytes with
  | nil => simp
  | cons w words ih =>
    rw [length_cons, Nat.add_mul, one_mul] at h ⊢
    have hlen : (bytes.take 8).length = 8 := by
      rw [length_take]
      omega
    have hsplit : bytes.take (words.length * 8 + 8) =
        bytes.take 8 ++ (bytes.drop 8).take (words.length * 8) := by
      rw [Nat.add_comm, take_add]
    have hfirst : fromLeBytes (bytes.take 8) = w ↔ bytes.take 8 = leBytes w :=
      ⟨fun hw => by rw [← hw, leBytes_fromLeBytes hlen], fun hw => by rw [hw, fromLeBytes_leBytes]⟩
    have happend : ∀ l l',
        bytes.take 8 ++ l = leBytes w ++ l' ↔ bytes.take 8 = leBytes w ∧ l = l' :=
      fun l l' => ⟨fun h => append_inj h (by rw [hlen, length_leBytes]),
        fun ⟨h, h'⟩ => by rw [h, h']⟩
    rw [range_succ_eq_map, map_cons, map_map, cons.injEq, hsplit,
      flatMap_cons, happend, ← hfirst, ← ih _ (by rw [length_drop]; omega)]
    simp [Function.comp_def, Nat.succ_mul, Nat.add_comm]

section

variable {key field : String} {value : List UInt8} {cursor cursor' : Nat}

theorem decodeIndexU64_ok (h : decodeIndexU64 key value cursor field = .ok (word, cursor')) :
    value.drop cursor = leBytes word ++ value.drop cursor' := by
  unfold decodeIndexU64 at h
  split at h
  · cases h
    rw [leBytes_fromLeBytes (by rw [length_take, length_drop]; omega),
      ← drop_drop, take_append_drop]
  · cases h

/-- A word is read where its bytes stand. -/
theorem decodeIndexU64_of_drop (key field : String) (h : value.drop cursor = leBytes word ++ rest) :
    decodeIndexU64 key value cursor field = .ok (word, cursor + 8) ∧
      value.drop (cursor + 8) = rest := by
  have hlen := congrArg length h
  rw [length_append, length_drop, length_leBytes] at hlen
  have htake : (value.drop cursor).take 8 = leBytes word := by
    rw [h, ← length_leBytes word, take_left]
  rw [decodeIndexU64, if_pos (by omega), htake, fromLeBytes_leBytes, ← drop_drop, h,
    ← length_leBytes word, drop_left]
  exact ⟨rfl, rfl⟩

theorem decodeIndexU64s_ok (h : decodeIndexU64s key value cursor field = .ok (words, cursor')) :
    value.drop cursor = encodeIndexU64s words ++ value.drop cursor' ∧
      cursor' = cursor + 8 + words.length * 8 ∧ cursor' ≤ value.length := by
  obtain ⟨⟨len, c⟩, hword, h⟩ := bind_ok h
  obtain rfl : c = cursor + 8 := by
    unfold decodeIndexU64 at hword
    split at hword <;> cases hword
    rfl
  dsimp only at h
  split at h
  · cases h
  split at h
  · cases h
  obtain ⟨hle, h⟩ := then_of_ne h nofun
  obtain ⟨hwords, rfl⟩ := Prod.mk.inj (Except.ok.inj h)
  have hlen : words.length = len.toNat := by rw [← hwords, length_map, length_range]
  have hbytes : ((range words.length).map fun i =>
      fromLeBytes (((value.drop (cursor + 8)).drop (i * 8)).take 8)) = words := by
    simpa only [drop_drop, hlen] using hwords
  have htake := (map_fromLeBytes_eq_iff _ _ (by rw [length_drop]; omega)).1 hbytes
  refine ⟨?_, by rw [hlen], hle⟩
  rw [decodeIndexU64_ok hword, encodeIndexU64s, hlen, UInt64.ofNat_toNat, append_assoc,
    ← htake, hlen, ← drop_drop (i := len.toNat * 8), take_append_drop]

/-- A list of words is read where its encoding stands. -/
theorem decodeIndexU64s_of_drop (key field : String)
    (fits : value.length < u64Bound) (h : value.drop cursor = encodeIndexU64s words ++ rest) :
    decodeIndexU64s key value cursor field = .ok (words, cursor + 8 + words.length * 8) ∧
      value.drop (cursor + 8 + words.length * 8) = rest := by
  have hlen := congrArg length h
  simp only [encodeIndexU64s, length_append, length_drop, length_leBytes,
    length_flatMap_leBytes] at hlen
  have hcount : (UInt64.ofNat words.length).toNat = words.length :=
    UInt64.toNat_ofNat_of_lt' (by change _ < u64Bound; omega)
  rw [encodeIndexU64s, append_assoc] at h
  obtain ⟨hword, hdrop⟩ := decodeIndexU64_of_drop key field h
  have hwords := (map_fromLeBytes_eq_iff (value.drop (cursor + 8)) words
    (by rw [length_drop]; omega)).2 (by rw [hdrop, ← length_flatMap_leBytes, take_left])
  rw [decodeIndexU64s, hword, Except.ok_bind]
  dsimp only
  rw [hcount, if_neg (by omega), if_neg (by omega), if_pos (by omega), ← drop_drop, hdrop,
    ← length_flatMap_leBytes, drop_left]
  refine ⟨?_, rfl⟩
  simpa only [drop_drop, length_flatMap_leBytes] using congrArg (fun ws => Except.ok (ws, _)) hwords

end

/-! ## Matrices -/

/-- `INDEX_CSC_MAGIC`. -/
def indexCscMagic : List UInt8 := utf8Bytes "turbolay-index-csc-v1" ++ [0]

/-- `graphblas_csc_checksum`. -/
def graphblasCscChecksum (csc : GraphBlasCsc) : UInt64 :=
  fnv1a (leBytes 0x01 ++ csc.vertices.flatMap leBytes ++
    leBytes 0x02 ++ (csc.pointers.map UInt64.ofNat).flatMap leBytes ++
    leBytes 0x03 ++ (csc.indices.map UInt64.ofNat).flatMap leBytes)

/-- `encode_graph_index_csc`. -/
def encodeGraphIndexCsc (baseSequence : StorageSequence) (lastWalId checksum : UInt64)
    (csc : GraphBlasCsc) : List UInt8 :=
  indexCscMagic ++ leBytes (.ofNat baseSequence) ++ leBytes lastWalId ++ leBytes checksum ++
    encodeIndexU64s csc.vertices ++ encodeIndexU64s (csc.pointers.map .ofNat) ++
    encodeIndexU64s (csc.indices.map .ofNat)

/-- `validate_graphblas_csc_artifact`. -/
def validateGraphblasCscArtifact (key : String) (csc : GraphBlasCsc) : Except GraphError Unit :=
  if csc.pointers.length ≠ csc.vertices.length + 1 then
    .error (.corruptValue key "CSC pointer count does not match vertex count")
  else if csc.pointers.head? ≠ some 0 then
    .error (.corruptValue key "CSC first pointer must be zero")
  else if (csc.pointers.zip csc.pointers.tail).any fun w => w.1 > w.2 then
    .error (.corruptValue key "CSC pointers must be monotonic")
  else if csc.pointers.getLastD 0 ≠ csc.indices.length then
    .error (.corruptValue key "CSC edge count does not match index count")
  else
    match csc.indices.find? fun index => index ≥ csc.vertices.length with
    | some index =>
      .error (.corruptValue key ("CSC index " ++ toString index ++ " exceeds vertex count"))
    | none =>
      if (csc.vertices.zip csc.vertices.tail).any fun w => w.1 ≥ w.2 then
        .error (.corruptValue key "CSC vertices must be sorted and unique")
      else .ok ()

/-- `decode_graph_index_csc`. -/
def decodeGraphIndexCsc (key : String) (value : List UInt8) (expectedSequence : StorageSequence)
    (expectedWalId expectedChecksum : UInt64) : Except GraphError GraphBlasCsc :=
  if ¬ indexCscMagic <+: value then
    .error (.corruptValue key "expected hydradb index CSC v1 payload")
  else do
    let (baseSequence, cursor) ← decodeIndexU64 key value indexCscMagic.length "base_sequence"
    let (lastWalId, cursor) ← decodeIndexU64 key value cursor "last_wal_id"
    let (checksum, cursor) ← decodeIndexU64 key value cursor "checksum"
    if (baseSequence.toNat, lastWalId, checksum) ≠
        (expectedSequence, expectedWalId, expectedChecksum) then
      .error (.corruptValue key "index CSC identity does not match manifest")
    else do
      let (vertices, cursor) ← decodeIndexU64s key value cursor "vertices"
      let (pointers, cursor) ← decodeIndexU64s key value cursor "pointers"
      let (indices, cursor) ← decodeIndexU64s key value cursor "indices"
      let csc : GraphBlasCsc := ⟨vertices, pointers.map UInt64.toNat, indices.map UInt64.toNat⟩
      if cursor ≠ value.length then
        .error (.corruptValue key "trailing bytes in index CSC payload")
      else do
        validateGraphblasCscArtifact key csc
        if graphblasCscChecksum csc ≠ checksum then
          .error (.corruptValue key "index CSC checksum mismatch")
        else .ok csc

/-! ## What decoding accepts -/

theorem isChain_iff_zip_tail {l : List α} :
    l.IsChain R ↔ ∀ p ∈ l.zip l.tail, R p.1 p.2 := by
  induction l with
  | nil => simp
  | cons a l ih =>
    cases l with
    | nil => simp
    | cons => simpa using fun _ => ih

/-- What the checks of a payload ask of a matrix. The order within a column is not checked. -/
structure GraphBlasCsc.Formed (csc : GraphBlasCsc) : Prop where
  length_pointers : csc.pointers.length = csc.vertices.length + 1
  first : csc.pointers.head? = some 0
  monotone : csc.pointers.Pairwise (· ≤ ·)
  last : csc.pointers.getLastD 0 = csc.indices.length
  index_lt : ∀ index ∈ csc.indices, index < csc.vertices.length
  sorted : csc.vertices.Pairwise (· < ·)

section

variable {csc : GraphBlasCsc} {key : String} {sequence : StorageSequence}

theorem validateGraphblasCscArtifact_eq_ok_iff :
    validateGraphblasCscArtifact key csc = .ok u ↔ csc.Formed := by
  have hmonotone : (csc.pointers.zip csc.pointers.tail).any (fun w => w.1 > w.2) = true ↔
      ¬ csc.pointers.Pairwise (· ≤ ·) := by
    rw [← isChain_iff_pairwise, isChain_iff_zip_tail]
    simp
  have hsorted : (csc.vertices.zip csc.vertices.tail).any (fun w => w.1 ≥ w.2) = true ↔
      ¬ csc.vertices.Pairwise (· < ·) := by
    rw [← isChain_iff_pairwise, isChain_iff_zip_tail]
    simp
  have hindex : csc.indices.find? (fun index => index ≥ csc.vertices.length) = none ↔
      ∀ index ∈ csc.indices, index < csc.vertices.length := by
    simp
  rw [validateGraphblasCscArtifact]
  constructor
  · intro h
    split at h
    · cases h
    split at h
    · cases h
    split at h
    · cases h
    split at h
    · cases h
    split at h
    · cases h
    split at h
    · cases h
    · exact ⟨not_not.1 ‹_›, not_not.1 ‹_›, not_not.1 (hmonotone.not.1 ‹_›), not_not.1 ‹_›,
        hindex.1 ‹_›, not_not.1 (hsorted.not.1 ‹_›)⟩
  · intro h
    rw [if_neg (not_not.2 h.length_pointers), if_neg (not_not.2 h.first),
      if_neg (hmonotone.not.2 (not_not.2 h.monotone)), if_neg (not_not.2 h.last),
      hindex.2 h.index_lt]
    exact if_neg (hsorted.not.2 (not_not.2 h.sorted))

theorem GraphBlasCsc.Formed.pointer_le (h : csc.Formed) :
    ∀ pointer ∈ csc.pointers, pointer ≤ csc.indices.length := by
  intro pointer hpointer
  obtain ⟨l, last, hl⟩ := eq_nil_or_concat csc.pointers |>.resolve_left (ne_nil_of_mem hpointer)
  have hlast := h.last
  rw [hl, concat_eq_append, getLastD_concat] at hlast
  have hmonotone := h.monotone
  rw [hl, concat_eq_append] at hpointer hmonotone
  rcases mem_append.1 hpointer with hmem | hmem
  · exact hlast ▸ (pairwise_append.1 hmonotone).2.2 _ hmem _ mem_cons_self
  · exact (mem_singleton.1 hmem).le.trans hlast.le

/-- The compressed form of rows passes the checks. -/
theorem GraphBlasCsc.formed_of_rows (sorted : csc.vertices.Pairwise (· < ·))
    (pointers : csc.pointers = (range (csc.vertices.length + 1)).map (Csr.start rows))
    (indices : csc.indices = (range csc.vertices.length).flatMap (Csr.row rows))
    (index_lt : ∀ index ∈ csc.indices, index < csc.vertices.length) : csc.Formed where
  length_pointers := by rw [pointers, length_map, length_range]
  first := by
    rw [pointers, range_succ_eq_map, map_cons, head?_cons,
      Csr.start_eq_zero fun _ _ => Nat.zero_le _]
  monotone := by
    rw [pointers, pairwise_map]
    exact pairwise_lt_range.imp fun hlt => Csr.start_mono hlt.le
  last := by
    rw [pointers, range_succ, map_append, map_singleton, getLastD_concat,
      indices, Csr.length_flatMap_row]
  index_lt := index_lt
  sorted := sorted

/-- A matrix built from an adjacency passes the checks. -/
theorem GraphBlasCsc.Represents.formed (h : csc.Represents a) : csc.Formed := by
  have hindices := h.indices
  rw [← Csr.flatMap_row h.dictionary.pairwise_rowsOf h.dictionary.lt_of_mem_rowsOf] at hindices
  refine formed_of_rows h.dictionary.sorted h.pointers hindices fun index hindex => ?_
  rw [h.indices] at hindex
  obtain ⟨r, hr, hindex⟩ := mem_flatMap.1 hindex
  obtain ⟨e, he, rfl⟩ := mem_map.1 hr
  obtain ⟨dst, hdst, rfl⟩ := mem_map.1 hindex
  exact idxOf_lt_length_of_mem (h.dictionary.destinations e he dst hdst)

theorem map_toNat_map_ofNat {l : List Nat} (h : ∀ n ∈ l, n < u64Bound) :
    (l.map UInt64.ofNat).map UInt64.toNat = l := by
  rw [map_map]
  refine (map_congr_left fun n hn => ?_).trans (map_id l)
  exact UInt64.toNat_ofNat_of_lt' (h n hn)

theorem map_ofNat_map_toNat (l : List UInt64) : (l.map UInt64.toNat).map UInt64.ofNat = l := by
  rw [map_map]
  exact (map_congr_left fun n _ => UInt64.ofNat_toNat).trans (map_id l)

/-- The entries of a matrix are words when its payload fits. -/
theorem GraphBlasCsc.Formed.words (h : csc.Formed)
    (fits : (encodeGraphIndexCsc sequence walId checksum csc).length < u64Bound) :
    (csc.pointers.map UInt64.ofNat).map UInt64.toNat = csc.pointers ∧
      (csc.indices.map UInt64.ofNat).map UInt64.toNat = csc.indices := by
  simp only [encodeGraphIndexCsc, encodeIndexU64s, length_append, length_leBytes,
    length_flatMap_leBytes, length_map] at fits
  refine ⟨map_toNat_map_ofNat fun n hn => ?_, map_toNat_map_ofNat fun n hn => ?_⟩
  · have := h.pointer_le n hn
    omega
  · have := h.index_lt n hn
    omega

/-- The words before the matrix say which generation a payload is of. -/
theorem encodeGraphIndexCsc_header (hs : sequence < u64Bound) (hs' : sequence' < u64Bound)
    (h : encodeGraphIndexCsc sequence walId checksum csc =
      encodeGraphIndexCsc sequence' walId' checksum' csc') :
    sequence = sequence' ∧ walId = walId' ∧ checksum = checksum' := by
  have hword : ∀ {w w' : UInt64}, leBytes w = leBytes w' → w = w' := fun {w w'} h => by
    rw [← fromLeBytes_leBytes w, h, fromLeBytes_leBytes]
  simp only [encodeGraphIndexCsc, append_assoc] at h
  obtain ⟨h₁, h⟩ := append_inj (append_cancel_left h) rfl
  obtain ⟨h₂, h⟩ := append_inj h rfl
  refine ⟨?_, hword h₂, hword (append_inj h rfl).1⟩
  have hsequence := congrArg UInt64.toNat (hword h₁)
  rwa [UInt64.toNat_ofNat_of_lt' hs, UInt64.toNat_ofNat_of_lt' hs'] at hsequence

/-- Decoding accepts the payloads of formed matrices, and answers the matrix. -/
theorem decodeGraphIndexCsc_eq_ok_iff (fits : value.length < u64Bound) :
    decodeGraphIndexCsc key value sequence walId checksum = .ok csc ↔
      sequence < u64Bound ∧ csc.Formed ∧ graphblasCscChecksum csc = checksum ∧
        value = encodeGraphIndexCsc sequence walId checksum csc := by
  unfold decodeGraphIndexCsc
  constructor
  · intro h
    split at h
    · cases h
    next hmagic =>
    obtain ⟨rest, hvalue⟩ := not_not.1 hmagic
    have hdrop : value.drop indexCscMagic.length = rest := by rw [← hvalue, drop_left]
    obtain ⟨⟨word₁, c₁⟩, h₁, h⟩ := bind_ok h
    obtain ⟨⟨word₂, c₂⟩, h₂, h⟩ := bind_ok h
    obtain ⟨⟨word₃, c₃⟩, h₃, h⟩ := bind_ok h
    dsimp only at h h₁ h₂ h₃
    split at h
    · cases h
    next hidentity =>
    obtain ⟨⟨vertices, c₄⟩, h₄, h⟩ := bind_ok h
    obtain ⟨⟨pointers, c₅⟩, h₅, h⟩ := bind_ok h
    obtain ⟨⟨indices, c₆⟩, h₆, h⟩ := bind_ok h
    split at h
    · cases h
    next hend =>
    obtain ⟨_, hformed, h⟩ := bind_ok h
    split at h
    · cases h
    next hsum =>
    obtain rfl := Except.ok.inj h
    simp only [ne_eq, not_not, Prod.mk.injEq] at hidentity hend hsum
    obtain ⟨rfl, rfl, rfl⟩ := hidentity
    refine ⟨word₁.toNat_lt, validateGraphblasCscArtifact_eq_ok_iff.1 hformed, hsum, ?_⟩
    rw [← hvalue, ← hdrop, decodeIndexU64_ok h₁, decodeIndexU64_ok h₂, decodeIndexU64_ok h₃,
      (decodeIndexU64s_ok h₄).1, (decodeIndexU64s_ok h₅).1, (decodeIndexU64s_ok h₆).1, hend,
      drop_length, encodeGraphIndexCsc, UInt64.ofNat_toNat, map_ofNat_map_toNat,
      map_ofNat_map_toNat]
    simp
  · rintro ⟨hsequence, hformed, rfl, rfl⟩
    obtain ⟨hpointers, hindices⟩ := hformed.words fits
    have hword : (UInt64.ofNat sequence).toNat = sequence := UInt64.toNat_ofNat_of_lt' hsequence
    have hvalid : validateGraphblasCscArtifact key csc = .ok () :=
      validateGraphblasCscArtifact_eq_ok_iff.2 hformed
    have hmagic : indexCscMagic <+:
        encodeGraphIndexCsc sequence walId (graphblasCscChecksum csc) csc := by
      simp [encodeGraphIndexCsc]
    generalize hvalue : encodeGraphIndexCsc sequence walId (graphblasCscChecksum csc) csc = value
      at fits hmagic ⊢
    have hdrop : value.drop indexCscMagic.length = leBytes (.ofNat sequence) ++ (leBytes walId ++
        (leBytes (graphblasCscChecksum csc) ++ (encodeIndexU64s csc.vertices ++
          (encodeIndexU64s (csc.pointers.map .ofNat) ++
            (encodeIndexU64s (csc.indices.map .ofNat) ++ []))))) := by
      rw [← hvalue, encodeGraphIndexCsc]
      simp
    obtain ⟨h₁, d₁⟩ := decodeIndexU64_of_drop key "base_sequence" hdrop
    obtain ⟨h₂, d₂⟩ := decodeIndexU64_of_drop key "last_wal_id" d₁
    obtain ⟨h₃, d₃⟩ := decodeIndexU64_of_drop key "checksum" d₂
    obtain ⟨h₄, d₄⟩ := decodeIndexU64s_of_drop key "vertices" fits d₃
    obtain ⟨h₅, d₅⟩ := decodeIndexU64s_of_drop key "pointers" fits d₄
    obtain ⟨h₆, d₆⟩ := decodeIndexU64s_of_drop key "indices" fits d₅
    have hend := (decodeIndexU64s_ok h₆).2.2
    simp only [hmagic, h₁, h₂, h₃, h₄, h₅, h₆, Except.ok_bind, hword, hpointers, hindices, hvalid,
      hend.antisymm (drop_eq_nil_iff.1 d₆), ne_eq, not_true_eq_false, if_false]

end

/-! ## Hostile bytes -/

/-- The computation fails with no other error than that the value of the key is corrupt. -/
def OnlyCorrupt {α : Type} (key : String) (x : Except GraphError α) : Prop :=
  ∀ e, x = .error e → ∃ reason, e = .corruptValue key reason

namespace OnlyCorrupt

variable {α β : Type} {key : String}

theorem ok (a : α) : OnlyCorrupt key (.ok a) := nofun

theorem error (reason : String) :
    OnlyCorrupt key (.error (.corruptValue key reason) : Except GraphError α) :=
  fun _ h => ⟨reason, (Except.error.inj h).symm⟩

theorem bind (h : OnlyCorrupt key x)
    (hf : ∀ a, OnlyCorrupt key (f a)) : OnlyCorrupt key (x >>= f) := by
  cases x with
  | error => exact fun e' he => h e' (congrArg Except.error (Except.error.inj he))
  | ok a => exact hf a

theorem ite [Decidable p] (hx : OnlyCorrupt key x)
    (hy : OnlyCorrupt key y) : OnlyCorrupt key (if p then x else y) := by
  split
  · exact hx
  · exact hy

theorem decodeIndexU64 : OnlyCorrupt key (decodeIndexU64 key value cursor field) :=
  ite (ok _) (error _)

theorem decodeIndexU64s : OnlyCorrupt key (decodeIndexU64s key value cursor field) :=
  bind decodeIndexU64 fun _ => ite (error _) (ite (error _) (ite (ok _) (error _)))

theorem validateGraphblasCscArtifact (csc : GraphBlasCsc) :
    OnlyCorrupt key (validateGraphblasCscArtifact key csc) := by
  refine ite (error _) (ite (error _) (ite (error _) (ite (error _) ?_)))
  split
  · exact error _
  · exact ite (error _) (ok _)

theorem decodeGraphIndexCsc (value : List UInt8) (sequence : StorageSequence)
    (walId checksum : UInt64) :
    OnlyCorrupt key (decodeGraphIndexCsc key value sequence walId checksum) :=
  ite (error _) <| bind decodeIndexU64 fun _ => bind decodeIndexU64 fun _ =>
    bind decodeIndexU64 fun _ => ite (error _) <| bind decodeIndexU64s fun _ =>
    bind decodeIndexU64s fun _ => bind decodeIndexU64s fun _ => ite (error _) <|
    bind (validateGraphblasCscArtifact _) fun _ => ite (error _) (ok _)

end OnlyCorrupt

instance (csc : GraphBlasCsc) : Decidable csc.Formed :=
  decidable_of_iff
    (validateGraphblasCscArtifact "" csc = .ok ()) validateGraphblasCscArtifact_eq_ok_iff

/-- The matrix of the edges 1 → 2 and 2 → 1. -/
def twoCycleCsc : GraphBlasCsc := ⟨[1, 2], [0, 1, 2], [1, 0]⟩

/-- The row ordinals of every column ascend. -/
def GraphBlasCsc.ColumnsSorted (csc : GraphBlasCsc) : Prop :=
  ∀ i < csc.vertices.length, ((csc.indices.take (csc.pointers.getD (i + 1) 0)).drop
    (csc.pointers.getD i 0)).Pairwise (· < ·)

/-- The edges 1 → 2 and 1 → 1, listed in this order. -/
def unsortedColumnCsc : GraphBlasCsc := ⟨[1, 2], [0, 2, 2], [1, 0]⟩

end HydraDb
