import HydraDb.Index.Reachability
import HydraDb.System.Changelog

/-!
# Incremental builds across runs

An incremental build trusts the changelog for what happened since the previous generation. Along a
run whose passes of garbage collection do not stop at their cap, either the entries since an earlier
state are all there, or the low-water mark has passed that state and the delta is refused. So when
the delta is complete, the patched adjacency is the canonical adjacency, and the two builds encode
the same bytes.
-/

namespace HydraDb

variable {g : Regime} {reverseIndex : Bool} {base later : Sys} {cellId : CellId}
  {edgeType : EdgeType}

/-- Along a run whose passes do not stop at their cap, the newest entries after a state say what is
visible, or the low-water mark has passed the state. -/
theorem Sys.Ok.tracks_or_passed (ok : base.Ok g) (trusted : g.trusted = true)
    (huncapped : g.uncapped = true) (hrun : Machine.Run Sys.exec g.Allows base later) :
    later.Ok g ∧ base.db.sequence ≤ later.db.sequence ∧
      (Tracks edgeType base.db.sequence (base.db.cells cellId) later.db.sequence
          (later.db.cells cellId) ∨
        ∃ low, (later.db.cells cellId).changelog.lowWater.get edgeType = some low ∧
          base.db.sequence + 1 < low) := by
  refine hrun.invariant (I := fun later => later.Ok g ∧ base.db.sequence ≤ later.db.sequence ∧
    (Tracks edgeType base.db.sequence (base.db.cells cellId) later.db.sequence
        (later.db.cells cellId) ∨
      ∃ low, (later.db.cells cellId).changelog.lowWater.get edgeType = some low ∧
        base.db.sequence + 1 < low))
    ⟨ok, le_refl _, .inl (.refl (ok.cells cellId))⟩ ?_
  rintro s e allowed ⟨ok, hle, htracks⟩
  have hle' : base.db.sequence ≤ s.db.sequence + 1 := hle.trans (Nat.le_succ _)
  refine ⟨ok.exec allowed, ?_⟩
  rcases (ok.effect allowed).cell cellId with ⟨hcell, hseq | hseq⟩ | ⟨hseq, hchange⟩
  · rw [hseq, ← hcell]; exact ⟨hle, htracks⟩
  · rw [hseq, ← hcell]; exact ⟨hle', htracks.imp_left Tracks.mono⟩
  rw [hseq]
  refine ⟨hle', ?_⟩
  cases hchange with
  | transaction h =>
    refine htracks.imp (fun ht => ht.commit trusted (ok.cells cellId) h) ?_
    rintro ⟨low, hlow, hlt⟩
    refine ⟨low, ?_, hlt⟩
    rcases ((ok.cells cellId).logged h).floor edgeType with hf | ⟨hf, -⟩
    · exact hf.trans hlow
    · exact absurd (hlow.symm.trans hf) (Option.some_ne_none _)
  | collection cap deleted ty gcThrough repairEpoch l collected published uncapped written =>
    rw [written]
    obtain ⟨hentries, hfloor⟩ := Changelog.gcTopologyChangelogTo_uncapped collected
      (uncapped (allowed.uncapped huncapped)) ((Nat.succ_le_succ published).trans_lt ok.bound)
    rcases htracks with ht | ⟨low, hlow, hlt⟩
    · by_cases retained : ∀ x, x.edgeType = edgeType → base.db.sequence < x.sequence →
          (s.db.cells cellId).changelog.entries.contains x = true → l.entries.contains x = true
      · exact .inl (ht.collect collected retained)
      -- an entry of the range is deleted, so the mark is past it
      push Not at retained
      obtain ⟨x, hty, hx, hold, hgone⟩ := retained
      obtain ⟨low, hlow, hlt⟩ := (hentries x hold).resolve_left hgone
      exact .inr ⟨low, hty ▸ hlow, (Nat.succ_le_of_lt hx).trans_lt hlt⟩
    · obtain ⟨low', hlow', hle⟩ := hfloor _ _ hlow
      exact .inr ⟨low', hlow', hlt.trans_le hle⟩

/-- The delta since an earlier state, when it is complete, says which of its edges are visible. -/
theorem Sys.Ok.visible_of_delta (ok : base.Ok g) (trusted : g.trusted = true)
    (huncapped : g.uncapped = true) (hrun : Machine.Run Sys.exec g.Allows base later)
    (hdelta : (later.db.cells cellId).changelog.xlogDeltaSince base.db.sequence
      later.db.sequence edgeType = .complete overlay) (src dst : VertexId) :
    (later.db.cells cellId).topology.Visible ⟨edgeType, src, dst⟩ ↔
      (overlay.state src dst).elim
        ((base.db.cells cellId).topology.Visible ⟨edgeType, src, dst⟩) (· = true) := by
  obtain ⟨ok', hle, htracks⟩ := ok.tracks_or_passed trusted huncapped hrun
  have hbound := ok'.bound
  have hstart : saturatingSucc base.db.sequence = base.db.sequence + 1 :=
    saturatingSucc_of_lt ((Nat.succ_le_succ hle).trans_lt hbound)
  unfold Changelog.xlogDeltaSince at hdelta
  rw [hstart, saturatingSucc_of_lt hbound] at hdelta
  split at hdelta
  · cases hdelta
  next low hlow =>
  obtain ⟨hcovered, hdelta⟩ := else_of_ne hdelta nofun
  cases hdelta
  -- the delta was not refused, so the entries of the range are all there
  have tracks := htracks.resolve_right (by
    rintro ⟨low', hlow', hlt'⟩
    rw [hlow] at hlow'
    cases hlow'
    exact hcovered hlt')
  exact tracks.visible_iff rfl

/-- In every run whose imports without existence checks are given absent edges and whose passes do
not stop at their cap: an incremental build from a generation of an earlier state, when the delta is
complete, produces the manifest and the payload that a full build produces. At the base of the
generation itself it answers with that generation. -/
theorem buildGraphIndexIncremental_eq (h : base.Reachable ⟨reverseIndex, true, false, true⟩)
    (hrun : Machine.Run Sys.exec (Regime.Allows ⟨reverseIndex, true, false, true⟩) base later)
    {sha256Hex : List UInt8 → String} {scanLimits previousLimits limits : GraphLimits}
    {a : MatrixAdjacency} {previousWalId lastWalId : UInt64}
    {previous manifest : GraphIndexGeneration} {previousPayload payload : List UInt8}
    {overlay : GraphTopologyOverlay} (storePath : String)
    (hbase : canonicalAdjacencyAt scanLimits (base.db.cells cellId).topology edgeType
      base.db.sequence = .ok a)
    (hprevious : encodeGeneration sha256Hex previousLimits cellId edgeType base.db.sequence
      previousWalId a = .ok (previous, previousPayload))
    (fits : previousPayload.length < u64Bound)
    (hdelta : (later.db.cells cellId).changelog.xlogDeltaSince base.db.sequence
      later.db.sequence edgeType = .complete overlay)
    (hfull : buildGraphIndex sha256Hex limits cellId edgeType later.db.sequence lastWalId
      (later.db.cells cellId).topology = .ok (manifest, payload)) :
    buildGraphIndexIncremental sha256Hex limits cellId edgeType later.db.sequence lastWalId
        storePath (later.db.cells cellId).changelog (some previous) (some previousPayload) =
      if later.db.sequence = base.db.sequence then .ok (.current previous)
      else .ok (.built manifest payload overlay.entries.length) := by
  obtain ⟨hcell, htype, a', ha', hencode⟩ := buildGraphIndex_ok hfull
  obtain ⟨ok', hle, -⟩ :=
    @Sys.Ok.tracks_or_passed _ _ _ cellId edgeType h.ok rfl rfl hrun
  have hsequence : previous.baseSequence = base.db.sequence := by
    obtain ⟨csc, -, -, rfl⟩ := encodeGeneration_ok hprevious
    rfl
  rcases hle.eq_or_lt with heq | hlt
  · rw [if_pos heq.symm]
    exact buildGraphIndexIncremental_current hcell htype (hsequence ▸ heq.ge)
  rw [if_neg hlt.ne']
  obtain ⟨hcompact, hedges⟩ :=
    canonicalAdjacencyAt_ok (h.ok.cells cellId).adjacency.bounded hbase
  obtain ⟨hcompact', hedges'⟩ :=
    canonicalAdjacencyAt_ok (ok'.cells cellId).adjacency.bounded ha'
  have hpatch : a.patch overlay = a' := by
    refine MatrixAdjacency.ext_hasEdge (MatrixAdjacency.compact_patch hcompact) hcompact' ?_
    intro src dst
    rw [MatrixAdjacency.hasEdge_patch, hedges', hedges, h.ok.visible_of_delta rfl rfl hrun hdelta]
  obtain ⟨csc, represents, hcsc⟩ := graphIndexCsc_encodeGeneration
    (Nat.lt_of_succ_lt h.ok.bound) fits hprevious
  rw [buildGraphIndexIncremental_complete hcell htype (hsequence ▸ hlt) (hsequence ▸ hdelta) hcsc,
    buildFromPrevious, GraphBlasCsc.toAdjacency_eq represents hcompact]
  dsimp only [bind, Except.bind]
  rw [hpatch, hencode]
  rfl

/-- The generation that a build of the edge type `T` of the cell `c` publishes for a matrix. -/
def sampleGeneration (baseSequence : StorageSequence) (csc : GraphBlasCsc) : GraphIndexGeneration :=
  ⟨"c", "T", baseSequence, 0, csc.indices.length, graphblasCscChecksum csc, "g"⟩

/-- Its payload. -/
def samplePayload (baseSequence : StorageSequence) (csc : GraphBlasCsc) : List UInt8 :=
  encodeGraphIndexCsc baseSequence 0 (graphblasCscChecksum csc) csc

theorem buildGraphIndexIncremental_eq_segmentRun :
    buildGraphIndexIncremental (fun _ => "g") .default "c" "T"
        (segmentRun.foldl Sys.exec .initial).db.sequence 0 "store"
        ((segmentRun.foldl Sys.exec .initial).db.cells "c").changelog
        (some (sampleGeneration 2 ⟨[1, 2, 3, 4], [0, 3, 3, 3, 3], [1, 2, 3]⟩))
        (some (samplePayload 2 ⟨[1, 2, 3, 4], [0, 3, 3, 3, 3], [1, 2, 3]⟩)) =
      .ok (.built (sampleGeneration 3 ⟨[1, 3, 4], [0, 2, 2, 2], [1, 2]⟩)
        (samplePayload 3 ⟨[1, 3, 4], [0, 2, 2, 2], [1, 2]⟩) 1) := by
  have allowed : Regime.Allows ⟨false, true, false, true⟩ segmentBase
      (.mutate (smallEnv false) (.deleteEdge ⟨"c", "T", 1, 2, "k3"⟩)) := Event.Plain.allows rfl
  have hlow : ((segmentRun.foldl Sys.exec .initial).db.cells "c").changelog.lowWater.get "T" =
    some 1 := by decide +kernel
  have hdelta : ((segmentRun.foldl Sys.exec .initial).db.cells "c").changelog.xlogDeltaSince
      segmentBase.db.sequence (segmentRun.foldl Sys.exec .initial).db.sequence "T" =
        .complete (Changelog.resolve (((segmentRun.foldl Sys.exec .initial).db.cells
          "c").changelog.changesIn "T" 3 4)) := by
    rw [Changelog.xlogDeltaSince, hlow]
    rfl
  have hbase : canonicalAdjacencyAt .default (segmentBase.db.cells "c").topology "T"
      segmentBase.db.sequence = .ok ((∅ : MatrixAdjacency).put 1 (OrdMap.addAll ∅ [2, 3, 4])) := by
    decide +kernel
  have hprevious : encodeGeneration (fun _ => "g") .default "c" "T" segmentBase.db.sequence 0
      ((∅ : MatrixAdjacency).put 1 (OrdMap.addAll ∅ [2, 3, 4])) =
        .ok (sampleGeneration 2 ⟨[1, 2, 3, 4], [0, 3, 3, 3, 3], [1, 2, 3]⟩,
          samplePayload 2 ⟨[1, 2, 3, 4], [0, 3, 3, 3, 3], [1, 2, 3]⟩) := by decide +kernel
  have hfull : buildGraphIndex (fun _ => "g") .default "c" "T"
      (segmentRun.foldl Sys.exec .initial).db.sequence 0
      ((segmentRun.foldl Sys.exec .initial).db.cells "c").topology =
        .ok (sampleGeneration 3 ⟨[1, 3, 4], [0, 2, 2, 2], [1, 2]⟩,
          samplePayload 3 ⟨[1, 3, 4], [0, 2, 2, 2], [1, 2]⟩) := by decide +kernel
  refine (buildGraphIndexIncremental_eq (reachable_segmentBase rfl) (.tail .refl allowed) "store"
    hbase hprevious (by decide +kernel) hdelta hfull).trans ?_
  decide +kernel

/-- Without the contract of an import that makes no existence check, the two builds differ: the
changelog says that an edge is gone which a segment still shows. -/
theorem incremental_ne_full_of_trusted_import :
    trustedImportBase.Reachable ⟨false, false, false, true⟩ ∧
      Regime.Allows ⟨false, false, false, true⟩ trustedImportBase deleteTrustedEdge ∧
      encodeGeneration (fun _ => "g") .default "c" "T" 2 0
        ((∅ : MatrixAdjacency).put 1 (OrdMap.addAll ∅ [2])) =
          .ok (sampleGeneration 2 ⟨[1, 2], [0, 1, 1], [1]⟩,
            samplePayload 2 ⟨[1, 2], [0, 1, 1], [1]⟩) ∧
      canonicalAdjacencyAt .default (trustedImportBase.db.cells "c").topology "T" 2 =
        .ok ((∅ : MatrixAdjacency).put 1 (OrdMap.addAll ∅ [2])) ∧
      buildGraphIndex (fun _ => "g") .default "c" "T"
          (trustedImportBase.exec deleteTrustedEdge).db.sequence 0
          ((trustedImportBase.exec deleteTrustedEdge).db.cells "c").topology =
        .ok (sampleGeneration 3 ⟨[1, 2], [0, 1, 1], [1]⟩,
          samplePayload 3 ⟨[1, 2], [0, 1, 1], [1]⟩) ∧
      buildGraphIndexIncremental (fun _ => "g") .default "c" "T"
          (trustedImportBase.exec deleteTrustedEdge).db.sequence 0 "store"
          ((trustedImportBase.exec deleteTrustedEdge).db.cells "c").changelog
          (some (sampleGeneration 2 ⟨[1, 2], [0, 1, 1], [1]⟩))
          (some (samplePayload 2 ⟨[1, 2], [0, 1, 1], [1]⟩)) =
        .ok (.built (sampleGeneration 3 ⟨[], [0], []⟩) (samplePayload 3 ⟨[], [0], []⟩) 1) ∧
      samplePayload 3 ⟨[], [0], []⟩ ≠ samplePayload 3 ⟨[1, 2], [0, 1, 1], [1]⟩ := by
  have reached : trustedImportBase.Reachable ⟨false, false, false, true⟩ :=
    .of_admits ⟨Event.Plain.allows rfl, ⟨rfl, trivial, nofun, fun _ => trivial, fun _ => trivial⟩,
      trivial⟩
  refine ⟨reached, Event.Plain.allows rfl, ?_, ?_, ?_, ?_, ?_⟩ <;> decide +kernel

/-- The index of a reachable state reads back: the manifest of a build decodes to itself, and the
matrix in its payload has exactly the visible edges. -/
theorem buildGraphIndex_reads_back (h : base.Reachable g)
    (hbuild : buildGraphIndex sha256Hex limits cellId edgeType base.db.sequence lastWalId
      (base.db.cells cellId).topology = .ok (manifest, payload))
    (digest : ∀ bytes, (sha256Hex bytes).toList.length = 64 ∧
      (sha256Hex bytes).toList.all isHexDigit = true)
    (hlimit : limits.maxArtifactBuildEdges < 2 ^ 64) (fits : payload.length < u64Bound)
    (key storePath : String) :
    decodeGraphIndexManifest key (encodeGraphIndexManifest manifest) = .ok manifest ∧
      ∃ csc, graphIndexCsc storePath manifest (some payload) = .ok (some csc) ∧
        ∀ u v, csc.Edge u v ↔ (base.db.cells cellId).topology.Visible ⟨edgeType, u, v⟩ := by
  have hbase := Nat.lt_of_succ_lt h.ok.bound
  obtain ⟨hcell, htype, a, ha, hencode⟩ := buildGraphIndex_ok hbuild
  have valid := GraphIndexGeneration.valid_of_encodeGeneration digest hcell htype hbase hlimit
    hencode
  obtain ⟨csc, represents, hcsc⟩ := graphIndexCsc_encodeGeneration hbase fits hencode
  have hedges := (canonicalAdjacencyAt_ok (h.ok.cells cellId).adjacency.bounded ha).2
  exact ⟨decodeGraphIndexManifest_encode valid.1 key, csc, hcsc,
    fun u v => represents.edge_iff.trans (hedges u v)⟩

theorem buildGraphIndex_reads_back_segmentRun :
    ∃ manifest payload csc, graphIndexCsc "store" manifest (some payload) = .ok (some csc) ∧
      csc.Edge 1 3 := by
  have hbuild : buildGraphIndex (fun _ => .ofList (.replicate 64 'f')) .default "c" "T"
      (segmentRun.foldl Sys.exec .initial).db.sequence 0
      ((segmentRun.foldl Sys.exec .initial).db.cells "c").topology =
        .ok ({ sampleGeneration 3 ⟨[1, 3, 4], [0, 2, 2, 2], [1, 2]⟩ with
          generation := .ofList (.replicate 64 'f') },
          samplePayload 3 ⟨[1, 3, 4], [0, 2, 2, 2], [1, 2]⟩) := by decide +kernel
  obtain ⟨-, csc, hcsc, hedges⟩ := buildGraphIndex_reads_back
    (reachable_segmentRun (g := ⟨false, true, true, true⟩) rfl) hbuild (fun _ => by decide)
    (by decide) (by decide +kernel) "current" "store"
  exact ⟨_, _, csc, hcsc, (hedges 1 3).2 (by decide +kernel)⟩

end HydraDb
