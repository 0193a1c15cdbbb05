import HydraDb.Core.Parse
import HydraDb.Index.Build
import Mathlib.Data.List.DropRight

/-!
# The objects of the index

The index of an edge type is a set of payload objects, named by the sequence and the digest of the
generation, and one manifest that says which of them is current. The manifest is a line of text.
This file has the text forms and their parsers (`engine/index_store.rs`): the manifest of a
generation reads back as the generation (`decodeGraphIndexManifest_encode`), and the name of a
payload gives back its sequence (`graphIndexSequenceFromPath_path`).
-/

namespace HydraDb

open List

/-! ## Manifests -/

/-- `INDEX_MANIFEST_MAGIC`. -/
def indexManifestMagic : String := "turbolay-index-current-v1"

/-- The fields of a manifest. -/
def manifestFields (manifest : GraphIndexGeneration) : List (List Char) :=
  [indexManifestMagic.toList, manifest.cellId.toList, manifest.edgeType.toList,
    Nat.toDigits 10 manifest.baseSequence, Nat.toDigits 10 manifest.lastWalId.toNat,
    Nat.toDigits 10 manifest.edgeCount, Nat.toDigits 10 manifest.checksum.toNat,
    manifest.generation.toList]

/-- `encode_graph_index_manifest`. -/
def encodeGraphIndexManifest (manifest : GraphIndexGeneration) : List Char :=
  ['\t'].intercalate (manifestFields manifest) ++ ['\n']

/-- `u8::is_ascii_hexdigit`. -/
def isHexDigit (c : Char) : Bool :=
  c.isDigit || ('a' ≤ c && c ≤ 'f') || ('A' ≤ c && c ≤ 'F')

theorem isComponentChar_of_isHexDigit (h : isHexDigit c = true) : isComponentChar c = true := by
  have hupper : 'F' ≤ 'Z' := by decide
  have hlower : 'f' ≤ 'z' := by decide
  simp only [isHexDigit, Bool.or_eq_true, Bool.and_eq_true, decide_eq_true_eq] at h
  simp only [isComponentChar, Bool.or_eq_true]
  refine .inl (.inl (.inl (Bool.or_eq_true_iff.2 ?_)))
  rcases h with (h | h) | h
  · exact .inr h
  · refine .inl (Bool.or_eq_true_iff.2 (.inr (Bool.and_eq_true_iff.2 ?_)))
    exact ⟨decide_eq_true h.1, decide_eq_true (h.2.trans hlower)⟩
  · refine .inl (Bool.or_eq_true_iff.2 (.inl ?_))
    exact decide_eq_true ⟨h.1, h.2.trans hupper⟩

/-- `decode_graph_index_manifest`. -/
def decodeGraphIndexManifest (key : String) (text : List Char) :
    Except GraphError GraphIndexGeneration :=
  match (text.rdropWhile (· == '\n')).splitOn '\t' with
  | [magic, cellId, edgeType, baseSequence, lastWalId, edgeCount, checksum, generation] => do
    if magic ≠ indexManifestMagic.toList then
      .error (.corruptValue key "expected hydradb index current v1 manifest")
    validateComponent "cell_id" (String.ofList cellId)
    validateComponent "edge_type" (String.ofList edgeType)
    if generation.length ≠ 64 ∨ generation.all isHexDigit = false then
      .error (.corruptValue key "index generation must be a SHA-256 digest")
    let baseSequence ← parseU64 key baseSequence "base_sequence"
    let lastWalId ← parseU64 key lastWalId "last_wal_id"
    let edgeCount ← parseU64 key edgeCount "edge_count"
    let checksum ← parseU64 key checksum "checksum"
    return ⟨String.ofList cellId, String.ofList edgeType, baseSequence, UInt64.ofNat lastWalId,
      edgeCount, UInt64.ofNat checksum, String.ofList generation⟩
  | _ => .error (.corruptValue key "expected hydradb index current v1 manifest")

/-- An element of an interspersed list is the separator or an element of the list. -/
theorem eq_or_mem_of_mem_intersperse :
    ∀ {l : List α}, a ∈ l.intersperse sep → a = sep ∨ a ∈ l
  | [], h => nomatch h
  | [_], h => .inr h
  | b :: c :: l, h => by
    rw [intersperse_cons_cons, mem_cons, mem_cons] at h
    rcases h with rfl | rfl | h
    · exact .inr mem_cons_self
    · exact .inl rfl
    · exact (eq_or_mem_of_mem_intersperse h).imp_right (mem_cons_of_mem _)

/-- What a build proposes: valid names, numbers of 64 bits and a digest. -/
structure GraphIndexGeneration.Valid (g : GraphIndexGeneration) : Prop where
  cellId : validateComponent "cell_id" g.cellId = .ok ()
  edgeType : validateComponent "edge_type" g.edgeType = .ok ()
  baseSequence : g.baseSequence < 2 ^ 64
  edgeCount : g.edgeCount < 2 ^ 64
  generation : g.generation.toList.length = 64 ∧ g.generation.toList.all isHexDigit = true

section

variable {g : GraphIndexGeneration}

/-- No field of a manifest holds a separator. -/
theorem GraphIndexGeneration.Valid.mem_manifestFields (h : g.Valid) :
    ∀ l ∈ manifestFields g, ∀ c ∈ l, isComponentChar c = true := by
  have hdigits : ∀ n, ∀ c ∈ Nat.toDigits 10 n, isComponentChar c = true := fun n =>
    Numeral.forall_mem_toDigits (by decide) (by decide)
  have hhex : ∀ c ∈ g.generation.toList, isComponentChar c = true := fun c hc =>
    isComponentChar_of_isHexDigit (all_eq_true.1 h.generation.2 c hc)
  intro l hl
  simp only [manifestFields, mem_cons, not_mem_nil, or_false] at hl
  rcases hl with rfl | rfl | rfl | rfl | rfl | rfl | rfl | rfl
  · exact all_eq_true.1 (by decide +kernel)
  · exact isComponentChar_of_validateComponent h.cellId
  · exact isComponentChar_of_validateComponent h.edgeType
  · exact hdigits _
  · exact hdigits _
  · exact hdigits _
  · exact hdigits _
  · exact hhex

/-- A manifest reads back as the generation it is of. -/
theorem decodeGraphIndexManifest_encode (h : g.Valid) (key : String) :
    decodeGraphIndexManifest key (encodeGraphIndexManifest g) = .ok g := by
  have hchars := h.mem_manifestFields
  have hdrop : (encodeGraphIndexManifest g).rdropWhile (· == '\n') =
      ['\t'].intercalate (manifestFields g) := by
    rw [encodeGraphIndexManifest, rdropWhile_concat_pos _ _ _ (by decide), rdropWhile_eq_self_iff]
    intro hne hlast
    have hmem := getLast_mem hne
    rw [eq_of_beq hlast, List.intercalate, mem_flatten] at hmem
    obtain ⟨l, hl, hnewline⟩ := hmem
    rcases eq_or_mem_of_mem_intersperse hl with rfl | hl
    · exact absurd hnewline (by decide)
    · exact absurd (hchars l hl _ hnewline) (by decide)
  have hsplit : (['\t'].intercalate (manifestFields g)).splitOn '\t' = manifestFields g := by
    refine splitOn_intercalate '\t' (fun l hl htab => ?_) (by simp [manifestFields])
    exact absurd (hchars l hl _ htab) (by decide)
  rw [decodeGraphIndexManifest, hdrop, hsplit, manifestFields]
  simp only [String.ofList_toList, h.cellId, h.edgeType, parseU64_toDigits h.baseSequence,
    parseU64_toDigits h.edgeCount, parseU64_toDigits g.lastWalId.toNat_lt,
    parseU64_toDigits g.checksum.toNat_lt]
  have hdigest : ¬ (g.generation.toList.length ≠ 64 ∨
      g.generation.toList.all isHexDigit = false) := by
    rw [h.generation.1, h.generation.2]
    decide
  rw [if_neg (not_not.2 rfl)]
  refine (if_neg hdigest).trans ?_
  change Except.ok ⟨g.cellId, g.edgeType, g.baseSequence, UInt64.ofNat g.lastWalId.toNat,
    g.edgeCount, UInt64.ofNat g.checksum.toNat, g.generation⟩ = .ok g
  rw [UInt64.ofNat_toNat, UInt64.ofNat_toNat]

end

/-- A build proposes a valid generation, if its digest is a SHA-256 digest. -/
theorem GraphIndexGeneration.valid_of_encodeGeneration
    {cellId : CellId} {edgeType : EdgeType}
    {baseSequence : StorageSequence} {lastWalId : UInt64}
    (digest : ∀ bytes, (sha256Hex bytes).toList.length = 64 ∧
      (sha256Hex bytes).toList.all isHexDigit = true)
    (hcell : validateComponent "cell_id" cellId = .ok ())
    (htype : validateComponent "edge_type" edgeType = .ok ())
    (hbase : baseSequence < 2 ^ 64) (hlimit : limits.maxArtifactBuildEdges < 2 ^ 64)
    (h : encodeGeneration sha256Hex limits cellId edgeType baseSequence lastWalId a =
      .ok (manifest, payload)) :
    manifest.Valid ∧ manifest.cellId = cellId ∧ manifest.edgeType = edgeType := by
  obtain ⟨csc, -, h⟩ := bind_ok h
  obtain ⟨_, hedges, h⟩ := bind_ok h
  cases h
  refine ⟨⟨hcell, htype, hbase, ?_, digest _⟩, rfl, rfl⟩
  rw [ensureLimit] at hedges
  split at hedges
  · cases hedges
  · next hle => exact (Nat.not_lt.1 hle).trans_lt hlimit

/-! ## Names of payloads -/

/-- `graph_index_sequence_from_path`. -/
def graphIndexSequenceFromPath (key : String) : Except GraphError StorageSequence :=
  let fileName := key.toList.rtakeWhile (· != '/')
  if '-' ∉ fileName then
    .error (.corruptValue key "index generation key is missing its sequence prefix")
  else
    let sequence := fileName.takeWhile (· != '-')
    if sequence.length ≠ 20 ∨ sequence.all Char.isDigit = false then
      .error (.corruptValue key "index generation sequence must be a 20-digit decimal prefix")
    else parseU64 key sequence "base_sequence"

/-- The path of a generation's payload. -/
def GraphIndexGeneration.path (storePath : String) (g : GraphIndexGeneration) : String :=
  graphIndexGenerationPath storePath g.cellId g.edgeType g.baseSequence g.generation

theorem rtakeWhile_append_cons (l l' : List α)
    (hx : p x = false) (hl' : ∀ a ∈ l', p a = true) : (l ++ x :: l').rtakeWhile p = l' := by
  rw [List.rtakeWhile, reverse_append, reverse_cons, append_assoc,
    takeWhile_append_of_pos (fun a ha => hl' a (mem_reverse.1 ha)), singleton_append,
    takeWhile_cons_of_neg (by simp [hx]), append_nil, reverse_reverse]

/-- The name of a payload gives back the sequence of its generation. -/
theorem graphIndexSequenceFromPath_path {g : GraphIndexGeneration} (h : g.Valid) :
    graphIndexSequenceFromPath (g.path storePath) = .ok g.baseSequence := by
  have hdigits : ∀ c ∈ (padded20 g.baseSequence).toList, (c != '-') = true ∧ (c != '/') = true := by
    intro c hc
    have hdigit := isDigit_padded20 c hc
    constructor <;> (rw [bne_iff_ne]; rintro rfl; exact absurd hdigit (by decide))
  have hname : (g.path storePath).toList.rtakeWhile (· != '/') =
      (padded20 g.baseSequence).toList ++ '-' :: (g.generation.toList ++ ".csc".toList) := by
    have hpath : (g.path storePath).toList =
        (storePath ++ "/_graph_index/" ++ g.cellId ++ "/" ++ g.edgeType ++ "/generations").toList ++
          '/' :: ((padded20 g.baseSequence).toList ++
            '-' :: (g.generation.toList ++ ".csc".toList)) := by
      simp [GraphIndexGeneration.path, graphIndexGenerationPath]
    rw [hpath, rtakeWhile_append_cons _ _ (by decide)]
    intro c hc
    rcases mem_append.1 hc with hc | hc
    · exact (hdigits c hc).2
    rcases mem_cons.1 hc with rfl | hc
    · decide
    rcases mem_append.1 hc with hc | hc
    · have hcomp := isComponentChar_of_isHexDigit (all_eq_true.1 h.generation.2 c hc)
      rw [bne_iff_ne]
      rintro rfl
      exact absurd hcomp (by decide)
    · exact all_eq_true.1 (by decide +kernel : ".csc".toList.all (· != '/') = true) c hc
  have hseq : ((padded20 g.baseSequence).toList ++
      '-' :: (g.generation.toList ++ ".csc".toList)).takeWhile (· != '-') =
        (padded20 g.baseSequence).toList := by
    rw [takeWhile_append_of_pos fun c hc => (hdigits c hc).1,
      takeWhile_cons_of_neg (by decide), append_nil]
  have hvalid : ¬ ((padded20 g.baseSequence).toList.length ≠ 20 ∨
      (padded20 g.baseSequence).toList.all Char.isDigit = false) := by
    rw [length_padded20 h.baseSequence, all_eq_true.2 isDigit_padded20]
    decide
  rw [graphIndexSequenceFromPath, hname]
  rw [if_neg (not_not.2 (mem_append_right _ mem_cons_self)), hseq, if_neg hvalid,
    parseU64_padded20 h.baseSequence]

end HydraDb
