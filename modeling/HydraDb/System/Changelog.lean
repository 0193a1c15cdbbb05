import HydraDb.Index.Adjacency
import HydraDb.System.Safety

/-!
# The changelog across runs

An index is kept up to date from the changelog, so two things are asked of it over a whole run.
Replaying the entries of a range over the adjacency at its start must give the adjacency at its
end, as long as the entries of the range are kept. And when garbage collection deletes entries, the
low-water mark must say which ranges are still complete.

The second fails for a pass that stops at its cap: the pass deletes entries of the commit it stops
at, and leaves the mark at that commit.
-/

namespace HydraDb

variable {reverseIndex : Bool} {s base later : Sys} {cellId : CellId}
  {edgeType : EdgeType}

/-! ## Replay -/

/-- The event deletes no entry of the edge type that is newer than a sequence. -/
def Event.Retains (sequence : StorageSequence) (cellId : CellId) (edgeType : EdgeType) (s : Sys)
    (e : Event) : Prop :=
  ∀ x : XlogKey, x.edgeType = edgeType → sequence < x.sequence →
    (s.db.cells cellId).changelog.entries.contains x = true →
    ((s.exec e).db.cells cellId).changelog.entries.contains x = true

theorem Db.cells_commit (db : Db) :
    (db.commit cellId r).cells = db.cells ∨
      ∃ c', r = some c' ∧ (db.commit cellId r).cells = Function.update db.cells cellId c' := by
  cases r with
  | none => exact .inl rfl
  | some c' =>
    unfold commit
    dsimp only
    split
    · exact .inr ⟨c', rfl, rfl⟩
    · exact .inl rfl

/-- No write operation deletes an entry. -/
theorem Sys.Ok.retains_mutate (ok : s.Ok g)
    (allowed : g.Allows s (.mutate env m)) (sequence : StorageSequence) (cellId : CellId)
    (edgeType : EdgeType) : Event.Retains sequence cellId edgeType s (.mutate env m) := by
  intro x _ _ hx
  rcases s.db.cells_commit with
    hcells | ⟨c', hrun, hcells⟩
  · rw [Sys.exec, hcells]
    exact hx
  rw [Sys.exec, hcells]
  by_cases hid : cellId = m.cellId
  · subst hid
    rw [Function.update_self]
    have hlogged := (ok.cells m.cellId).logged (m.run_committed_any (ok.cells _) allowed hrun)
    have hle := (ok.cells m.cellId).entries_le x hx
    rwa [OrdMap.contains_iff, hlogged.older x (Nat.ne_of_lt (Nat.lt_succ_of_le hle))]
  · rwa [Function.update_of_ne hid]

/-- Along a run that keeps the entries after its start, the newest entry of an edge says whether
the edge is visible. -/
theorem Sys.Ok.tracks (ok : base.Ok g) (trusted : g.trusted = true)
    (hrun : Machine.Run Sys.exec
      (fun s e => g.Allows s e ∧ e.Retains base.db.sequence cellId edgeType s) base later) :
    later.Ok g ∧ Tracks edgeType base.db.sequence (base.db.cells cellId) later.db.sequence
      (later.db.cells cellId) := by
  refine hrun.invariant (I := fun later => later.Ok g ∧ Tracks edgeType base.db.sequence
    (base.db.cells cellId) later.db.sequence (later.db.cells cellId))
    ⟨ok, .refl (ok.cells cellId)⟩ ?_
  rintro s e ⟨allowed, retains⟩ ⟨ok, tracks⟩
  refine ⟨ok.exec allowed, ?_⟩
  rcases (ok.effect allowed).cell cellId with ⟨hcell, hseq | hseq⟩ | ⟨hseq, hchange⟩
  · rw [hseq, ← hcell]; exact tracks
  · rw [hseq, ← hcell]; exact tracks.mono
  rw [hseq]
  cases hchange with
  | transaction h => exact tracks.commit trusted (ok.cells cellId) h
  | collection cap deleted ty gcThrough repairEpoch l collected published uncapped written =>
    rw [written]
    refine tracks.collect collected fun x hty hx hold => ?_
    have hkept := retains x hty hx hold
    rwa [written] at hkept

/-- What an event does to the visibility of an edge it logs: an edge that changes has an entry at
the sequence of the commit, with its new existence. -/
theorem Sys.Ok.logs (ok : s.Ok g) (trusted : g.trusted = true)
    (allowed : g.Allows s e) (k : EdgeKey) :
    (((s.exec e).db.cells cellId).topology.Visible k ↔ (s.db.cells cellId).topology.Visible k) ∨
      ((s.exec e).db.cells cellId).changelog.entries.get (k.entry (s.exec e).db.sequence) =
        some (decide (((s.exec e).db.cells cellId).topology.Visible k)) := by
  rcases (ok.effect allowed).cell cellId with ⟨hcell, -⟩ | ⟨hseq, hchange⟩
  · exact .inl (by rw [hcell])
  cases hchange with
  | transaction h =>
    have hlogged := (ok.cells cellId).logged h
    refine (hlogged.logged k).imp_right fun hentry => ?_
    obtain ⟨b, hget⟩ := OrdMap.get_of_contains hentry
    have hb := hlogged.agrees trusted k b hget
    rw [hseq, hget]
    cases b <;> simp_all
  | collection cap deleted ty gcThrough repairEpoch l collected published uncapped written =>
    exact .inl (by rw [written])

/-- In every run whose imports without existence checks are given absent edges: applying the
changelog entries after a state, up to a later state with no entry in between deleted, to the
canonical adjacency of the first gives the canonical adjacency of the second. Every event that
changes the visibility of an edge writes its entry. -/
theorem canonicalAdjacencyAt_replay (h : base.Reachable ⟨reverseIndex, true, false, false⟩)
    (hrun : Machine.Run Sys.exec
      (fun s e => Regime.Allows ⟨reverseIndex, true, false, false⟩ s e ∧
        e.Retains base.db.sequence cellId edgeType s) base later) :
    (∀ limits limits' a a',
      canonicalAdjacencyAt limits (base.db.cells cellId).topology edgeType base.db.sequence =
        .ok a →
      canonicalAdjacencyAt limits' (later.db.cells cellId).topology edgeType later.db.sequence =
        .ok a' →
      a.patch (Changelog.resolve ((later.db.cells cellId).changelog.changesIn edgeType
        (base.db.sequence + 1) (later.db.sequence + 1))) = a' ∧ a'.Compact) ∧
    ∀ e, Regime.Allows ⟨reverseIndex, true, false, false⟩ later e → ∀ k : EdgeKey,
      (((later.exec e).db.cells cellId).topology.Visible k ↔
        (later.db.cells cellId).topology.Visible k) ∨
      ((later.exec e).db.cells cellId).changelog.entries.get (k.entry (later.exec e).db.sequence) =
        some (decide (((later.exec e).db.cells cellId).topology.Visible k)) := by
  obtain ⟨ok', tracks⟩ := h.ok.tracks rfl hrun
  refine ⟨fun limits limits' a a' ha ha' => ?_, fun e allowed => ok'.logs rfl allowed⟩
  obtain ⟨hcompact, hedges⟩ :=
    canonicalAdjacencyAt_ok (h.ok.cells cellId).adjacency.bounded ha
  obtain ⟨hcompact', hedges'⟩ := canonicalAdjacencyAt_ok (ok'.cells cellId).adjacency.bounded ha'
  refine ⟨MatrixAdjacency.ext_hasEdge (MatrixAdjacency.compact_patch hcompact) hcompact' ?_,
    hcompact'⟩
  intro src dst
  rw [MatrixAdjacency.hasEdge_patch, hedges', tracks.visible_iff rfl, hedges]

/-- A state of `segmentRun` before its delete. -/
def segmentBase : Sys := (segmentRun.take 2).foldl Sys.exec .initial

theorem reachable_segmentBase (h : g.reverseIndex = false) : segmentBase.Reachable g :=
  .of_admits ⟨Event.Plain.allows h.symm, Event.Plain.allows h.symm, trivial⟩

theorem canonicalAdjacencyAt_replay_segmentRun :
    ∃ a a', canonicalAdjacencyAt .default (segmentBase.db.cells "c").topology "T"
          segmentBase.db.sequence = .ok a ∧
        a.HasEdge 1 2 ∧ ¬ a'.HasEdge 1 2 ∧
        a.patch (Changelog.resolve (((segmentRun.foldl Sys.exec .initial).db.cells
          "c").changelog.changesIn "T" (segmentBase.db.sequence + 1)
          ((segmentRun.foldl Sys.exec .initial).db.sequence + 1))) = a' := by
  have reached : segmentBase.Reachable ⟨false, true, false, false⟩ := reachable_segmentBase rfl
  have allowed : Regime.Allows ⟨false, true, false, false⟩ segmentBase
      (.mutate (smallEnv false) (.deleteEdge ⟨"c", "T", 1, 2, "k3"⟩)) := Event.Plain.allows rfl
  have replay := (canonicalAdjacencyAt_replay reached
    (.tail .refl ⟨allowed, reached.ok.retains_mutate allowed segmentBase.db.sequence "c" "T"⟩)).1
  have hbase : canonicalAdjacencyAt .default (segmentBase.db.cells "c").topology "T"
      segmentBase.db.sequence = .ok ((∅ : MatrixAdjacency).put 1 (OrdMap.addAll ∅ [2, 3, 4])) := by
    decide +kernel
  have hlater : canonicalAdjacencyAt .default
      ((segmentRun.foldl Sys.exec .initial).db.cells "c").topology "T"
      (segmentRun.foldl Sys.exec .initial).db.sequence =
        .ok ((∅ : MatrixAdjacency).put 1 (OrdMap.addAll ∅ [3, 4])) := by
    decide +kernel
  refine ⟨_, _, hbase, ⟨_, rfl, rfl⟩, ?_, (replay _ _ _ _ hbase hlater).1⟩
  rintro ⟨_, ⟨⟩, hmem⟩
  cases hmem

/-- The edge of a segment is imported once more without an existence check. -/
def trustedImportBase : Sys := (trustedImportRun.take 2).foldl Sys.exec .initial

/-- The delete of the edge. -/
def deleteTrustedEdge : Event :=
  .mutate (smallEnv false) (.deleteEdge ⟨"c", "T", 1, 2, "k3"⟩)

/-- Without the contract of an import that makes no existence check, a delete logs the absence of
an edge that a segment still shows: the replay drops the edge and the canonical adjacency has it. -/
theorem replay_ne_of_trusted_import :
    trustedImportBase.Reachable ⟨false, false, false, true⟩ ∧
      Regime.Allows ⟨false, false, false, true⟩ trustedImportBase deleteTrustedEdge ∧
      deleteTrustedEdge.Retains trustedImportBase.db.sequence "c" "T" trustedImportBase ∧
      ∃ a a', canonicalAdjacencyAt .default (trustedImportBase.db.cells "c").topology "T"
          trustedImportBase.db.sequence = .ok a ∧
        canonicalAdjacencyAt .default
          ((trustedImportBase.exec deleteTrustedEdge).db.cells "c").topology "T"
          (trustedImportBase.exec deleteTrustedEdge).db.sequence = .ok a' ∧
        a.patch (Changelog.resolve (((trustedImportBase.exec deleteTrustedEdge).db.cells
          "c").changelog.changesIn "T" (trustedImportBase.db.sequence + 1)
          ((trustedImportBase.exec deleteTrustedEdge).db.sequence + 1))) ≠ a' := by
  have reached : trustedImportBase.Reachable ⟨false, false, false, true⟩ :=
    .of_admits ⟨Event.Plain.allows rfl, ⟨rfl, trivial, nofun, fun _ => trivial, fun _ => trivial⟩,
      trivial⟩
  have allowed : Regime.Allows ⟨false, false, false, true⟩ trustedImportBase deleteTrustedEdge :=
    Event.Plain.allows rfl
  refine ⟨reached, allowed, reached.ok.retains_mutate allowed _ _ _,
    (∅ : MatrixAdjacency).put 1 (OrdMap.addAll ∅ [2]),
    (∅ : MatrixAdjacency).put 1 (OrdMap.addAll ∅ [2]), ?_, ?_, ?_⟩ <;> decide +kernel

/-! ## The low-water mark -/

/-- A change keeps its entry, until the low-water mark passes it, along every run whose passes do
not stop at their cap. -/
theorem Sys.Ok.kept (ok : s.Ok g) (uncapped : g.uncapped = true)
    (hkept : Kept k q s.db.sequence (s.db.cells cellId))
    (hrun : Machine.Run Sys.exec g.Allows s later) :
    Kept k q later.db.sequence (later.db.cells cellId) := by
  refine (hrun.invariant (I := fun later => later.Ok g ∧ Kept k q later.db.sequence
    (later.db.cells cellId)) ⟨ok, hkept⟩ ?_).2
  rintro s e allowed ⟨ok, hkept⟩
  refine ⟨ok.exec allowed, (ok.effect allowed).keeps (Kept k q) Kept.mono ?_ hkept⟩
  intro c' hkept hchange
  cases hchange with
  | transaction h => exact hkept.commit (ok.cells cellId) h
  | collection cap deleted ty gcThrough repairEpoch l collected published huncapped written =>
    rw [written]
    exact hkept.collect collected (huncapped (allowed.uncapped uncapped))
      ((Nat.succ_le_succ published).trans_lt ok.bound)

/-- In every run whose passes of garbage collection do not stop at their cap: an edge change
committed at or above the low-water mark has its entry, and a range that is reported complete and
holds the sequence of the change has the edge. -/
theorem entry_kept_of_reachable (h : s.Reachable ⟨reverseIndex, false, false, true⟩) {e : Event}
    (allowed : Regime.Allows ⟨reverseIndex, false, false, true⟩ s e)
    (hrun : Machine.Run Sys.exec (Regime.Allows ⟨reverseIndex, false, false, true⟩) (s.exec e)
      later) (cellId : CellId) (k : EdgeKey)
    (changed : ¬ (((s.exec e).db.cells cellId).topology.Visible k ↔
      (s.db.cells cellId).topology.Visible k)) :
    (∀ low, (later.db.cells cellId).changelog.lowWater.get k.edgeType = some low →
      low ≤ (s.exec e).db.sequence →
      (later.db.cells cellId).changelog.entries.contains (k.entry (s.exec e).db.sequence) = true) ∧
    ∀ previousBase baseSequence overlay, previousBase < (s.exec e).db.sequence →
      (s.exec e).db.sequence ≤ baseSequence →
      (later.db.cells cellId).changelog.xlogDeltaSince previousBase baseSequence k.edgeType =
        .complete overlay →
      overlay.state k.src k.dst ≠ none := by
  have ok := h.ok.exec allowed
  have hentry : ((s.exec e).db.cells cellId).changelog.entries.contains
      (k.entry (s.exec e).db.sequence) = true := by
    rcases (h.ok.effect allowed).cell cellId with ⟨hcell, -⟩ | ⟨hseq, hchange⟩
    · exact absurd (by rw [hcell]) changed
    cases hchange with
    | transaction hc =>
      rw [hseq]
      exact (((h.ok.cells cellId).logged hc).logged k).resolve_left changed
    | collection cap deleted ty gcThrough repairEpoch l collected published uncapped written =>
      exact absurd (by rw [written]) changed
  have hkept := (ok.kept rfl ⟨le_refl _, .inl hentry⟩ hrun).2
  refine ⟨fun low hlow hle => ?_, fun previousBase baseSequence overlay hlt hle hdelta => ?_⟩
  · refine hkept.resolve_right ?_
    rintro ⟨low', hlow', hlt⟩
    rw [hlow] at hlow'
    cases hlow'
    exact absurd hle (Nat.not_le.2 hlt)
  have hbound := ok.bound
  have hstart : saturatingSucc previousBase = previousBase + 1 :=
    saturatingSucc_of_lt ((Nat.succ_le_of_lt hlt).trans_lt (Nat.lt_of_succ_lt hbound))
  have hstop : (s.exec e).db.sequence < saturatingSucc baseSequence :=
    lt_min (Nat.lt_succ_of_le hle) (Nat.lt_sub_of_add_lt hbound)
  unfold Changelog.xlogDeltaSince at hdelta
  split at hdelta
  · cases hdelta
  next low hlow =>
  obtain ⟨hcovered, hdelta⟩ := else_of_ne hdelta nofun
  cases hdelta
  rw [hstart] at hcovered ⊢
  refine Changelog.state_resolve_ne_none (hkept.resolve_right ?_) hlt hstop
  rintro ⟨low', hlow', hlt'⟩
  rw [hlow] at hlow'
  cases hlow'
  exact hcovered ((Nat.succ_le_of_lt hlt).trans_lt hlt')

/-- Two commits of one edge each, and a pass over the first of them. -/
def collectedRun : List Event :=
  [.mutate (smallEnv false) (.writeEdge ⟨"c", "T", 1, 2, "k1"⟩),
   .mutate (smallEnv false) (.writeEdge ⟨"c", "T", 1, 3, "k2"⟩),
   .collect 10 "c" "T" 1 2]

theorem entry_kept_of_reachable_collectedRun :
    ((collectedRun.foldl Sys.exec .initial).db.cells "c").changelog.lowWater.get "T" = some 2 ∧
      ((collectedRun.foldl Sys.exec .initial).db.cells "c").changelog.entries.keys =
        [⟨"T", 2, 1, 3⟩] ∧
      ((collectedRun.foldl Sys.exec .initial).db.cells "c").changelog.entries.contains
        ⟨"T", 2, 1, 3⟩ = true := by
  have hlow : ((collectedRun.foldl Sys.exec .initial).db.cells "c").changelog.lowWater.get "T" =
    some 2 := by decide +kernel
  have reached : ((collectedRun.take 1).foldl Sys.exec .initial).Reachable
      ⟨false, false, false, true⟩ := .of_admits ⟨Event.Plain.allows rfl, trivial⟩
  have allowed : Regime.Allows ⟨false, false, false, true⟩
      ((collectedRun.take 1).foldl Sys.exec .initial)
      (.mutate (smallEnv false) (.writeEdge ⟨"c", "T", 1, 3, "k2"⟩)) := Event.Plain.allows rfl
  have pass : Regime.Allows ⟨false, false, false, true⟩
      ((collectedRun.take 2).foldl Sys.exec .initial) (.collect 10 "c" "T" 1 2) :=
    have hpublished : 0 < 10 ∧ 1 ≤ ((collectedRun.take 2).foldl Sys.exec .initial).db.sequence ∧
      2 ≤ ((collectedRun.take 2).foldl Sys.exec .initial).db.sequence := by decide +kernel
    have huncapped : (((collectedRun.take 2).foldl Sys.exec .initial).db.cells
      "c").changelog.gcStopsAtCap 10 "T" 1 = false := by decide +kernel
    ⟨trivial, hpublished, fun _ => trivial, fun _ => trivial, fun _ => huncapped⟩
  refine ⟨hlow, by decide +kernel, ?_⟩
  exact (entry_kept_of_reachable reached allowed (.tail .refl pass) "c" ⟨"T", 1, 3⟩
    (by decide +kernel)).1 2 hlow (by decide +kernel)

/-- One commit of two edges, and a pass that may delete one entry. -/
def cappedRun : List Event :=
  [.mutate (smallEnv false) (.writeEdgeBatch "c" [⟨"c", "T", 1, 2, "k1"⟩, ⟨"c", "T", 1, 3, "k2"⟩]),
   .collect 1 "c" "T" 1 1]

/-- A pass that stops at its cap deletes an entry of the commit at its low-water mark: the edge of
the entry changed there, and the range that starts there is reported complete without it. -/
theorem entry_lost_of_capped_pass :
    (cappedRun.foldl Sys.exec .initial).Reachable ⟨false, true, true, false⟩ ∧
      ((cappedRun.foldl Sys.exec .initial).db.cells "c").changelog.lowWater.get "T" = some 1 ∧
      (((cappedRun.take 1).foldl Sys.exec .initial).db.cells "c").topology.Visible ⟨"T", 1, 2⟩ ∧
      ¬ (Sys.initial.db.cells "c").topology.Visible ⟨"T", 1, 2⟩ ∧
      ((cappedRun.take 1).foldl Sys.exec .initial).db.sequence = 1 ∧
      ((cappedRun.foldl Sys.exec .initial).db.cells "c").changelog.entries.contains
        ⟨"T", 1, 1, 2⟩ = false ∧
      ∃ overlay, ((cappedRun.foldl Sys.exec .initial).db.cells "c").changelog.xlogDeltaSince 0 1
          "T" = .complete overlay ∧ overlay.state 1 2 = none := by
  have hlow : ((cappedRun.foldl Sys.exec .initial).db.cells "c").changelog.lowWater.get "T" =
    some 1 := by decide +kernel
  have hpublished : 0 < 1 ∧ 1 ≤ ((cappedRun.take 1).foldl Sys.exec .initial).db.sequence ∧
    1 ≤ ((cappedRun.take 1).foldl Sys.exec .initial).db.sequence := by decide +kernel
  refine ⟨.of_admits ⟨⟨rfl, trivial, fun _ => trivial, fun _ => trivial, fun _ => trivial⟩,
    ⟨trivial, hpublished, fun _ => trivial, fun _ => trivial,
      nofun⟩, trivial⟩, hlow, by decide +kernel, by decide +kernel,
    by decide +kernel, by decide +kernel, Changelog.resolve (((cappedRun.foldl Sys.exec
      .initial).db.cells "c").changelog.changesIn "T" 1 2), ?_, by decide +kernel⟩
  rw [Changelog.xlogDeltaSince, hlow]
  rfl

end HydraDb
