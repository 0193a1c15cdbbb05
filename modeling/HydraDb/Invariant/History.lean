import HydraDb.Invariant.Cell
import HydraDb.Write.Compaction

/-!
# What the changelog remembers

A transaction logs its changes at its own sequence. This file relates a cell to itself at an
earlier sequence: an edge whose visibility is no longer what it was has a newer dirty marker for
its type, and either an entry after that sequence or a low-water mark that has passed it
(`Since`). Garbage collection keeps the relation as long as no pass stops at its cap: an entry that
a pass deletes is below the mark it sets.
-/

namespace HydraDb

open OrdMap Nat

variable {n e : StorageSequence} {c c₀ : Cell}

variable {edgeType : EdgeType} {s : StorageSequence}

/-! ## Garbage collection -/

theorem gcTopologyChangelog_ok
    (h : gcTopologyChangelog cap cellId edgeType gcThrough repairEpoch n c = .ok (.commit c' r)) :
    ∃ l, c.changelog.gcTopologyChangelogTo cap repairEpoch edgeType gcThrough = (some l, r) ∧
      c' = { c with changelog := l } := by
  replace h := seq_ok₂ h
  split at h
  · cases h
  next l deleted hgc =>
  replace h := seq_ok₂ h
  cases h
  exact ⟨l, hgc, rfl⟩

/-- A pass keeps the invariants of its cell: it writes only entries and low-water marks. -/
theorem CellOk.collect (ok : CellOk g n c)
    (h : c.changelog.gcTopologyChangelogTo cap repairEpoch edgeType gcThrough = (some l, deleted)) :
    CellOk g (n + 1) { c with changelog := l } := by
  have key : (∀ x, l.entries.contains x = true → c.changelog.entries.contains x = true) ∧
      l.matrixDirty = c.changelog.matrixDirty ∧
      l.adjacencyGeneration = c.changelog.adjacencyGeneration := by
    rcases Changelog.gcTopologyChangelogTo_spec h with
      ⟨-, rfl⟩ | ⟨lowWater, dead, nextLow, -, -, -, -, rfl⟩
    · exact ⟨fun _ hx => hx, rfl, rfl⟩
    · exact ⟨fun x hx => (contains_delAll.1 hx).2, rfl, rfl⟩
  obtain ⟨hentries, hdirty, hgeneration⟩ := key
  have ok' := ok.mono (le_succ n)
  refine ⟨ok'.adjacency, ok'.endpoints, ok'.relationships, fun x hx => ?_, ?_, ?_, ?_,
    fun h => absurd h (succ_ne_zero n)⟩
  · exact ok'.entries_le x (hentries x hx)
  · rw [hdirty]; exact ok'.dirty_le
  · rw [hdirty]; exact ok'.catalog
  · rw [hdirty, hgeneration]; exact ok'.marked

/-! ## An earlier cell and a later one -/

/-- The cell `c` at the sequence `n` and the same cell `c₀` at the earlier sequence `e`. -/
structure Since (e : StorageSequence) (c₀ : Cell) (n : StorageSequence) (c : Cell) : Prop where
  le : e ≤ n
  /-- Without a commit nothing has changed. -/
  same : n = e → c = c₀
  /-- The type of an edge that changed has a newer dirty marker. -/
  dirtied : ∀ k : EdgeKey, (c.topology.Visible k ↔ c₀.topology.Visible k) ∨
    ∃ s, c.changelog.matrixDirty.get k.edgeType = some s ∧ e < s
  /-- An edge that changed has a newer entry, or the low-water mark has passed. -/
  logged : ∀ k : EdgeKey, (c.topology.Visible k ↔ c₀.topology.Visible k) ∨
    (∃ s, e < s ∧ s ≤ n ∧ c.changelog.entries.contains (k.entry s) = true) ∨
    ∃ low, c.changelog.lowWater.get k.edgeType = some low ∧ e + 1 < low

namespace Since

theorem refl (c : Cell) : Since n c n c where
  le := le_refl n
  same _ := rfl
  dirtied _ := .inl Iff.rfl
  logged _ := .inl Iff.rfl

/-- A commit of another cell. -/
theorem mono (h : Since e c₀ n c) (hn : n ≤ n') (hlt : n' ≠ n) : Since e c₀ n' c where
  le := h.le.trans hn
  same heq := absurd (le_antisymm (heq ▸ h.le) hn) hlt
  dirtied := h.dirtied
  logged k := (h.logged k).imp_right (Or.imp_left fun ⟨s, hs, hle, hentry⟩ =>
    ⟨s, hs, hle.trans hn, hentry⟩)

/-- A transaction logs what it changes, and leaves older entries and low-water marks alone. -/
theorem commit (h : Since e c₀ n c) (ok : CellOk g n c) (hc : Committed F g (n + 1) c c') :
    Since e c₀ (n + 1) c' where
  le := h.le.trans (Nat.le_succ n)
  same heq := absurd (heq.trans_le h.le) (Nat.not_succ_le_self n)
  dirtied k := by
    have hlogged := ok.logged hc
    have hnew : e < n + 1 := Nat.lt_succ_of_le h.le
    rcases hlogged.dirtied k with hsame | hd
    · rcases h.dirtied k with hold | ⟨s, hs, hlt⟩
      · exact .inl (hsame.trans hold)
      · rcases hlogged.dirty k.edgeType with hd | hd
        · exact .inr ⟨s, hd.trans hs, hlt⟩
        · exact .inr ⟨n + 1, hd, hnew⟩
    · exact .inr ⟨n + 1, hd, hnew⟩
  logged k := by
    have hlogged := ok.logged hc
    rcases hlogged.logged k with hsame | hentry
    · rcases h.logged k with hold | ⟨s, hs, hle, hentry⟩ | ⟨low, hlow, hlt⟩
      · exact .inl (hsame.trans hold)
      · refine .inr (.inl ⟨s, hs, hle.trans (Nat.le_succ n), ?_⟩)
        rwa [contains_iff, hlogged.older (k.entry s) (Nat.ne_of_lt (Nat.lt_succ_of_le hle))]
      refine .inr (.inr ⟨low, ?_, hlt⟩)
      rcases hlogged.floor k.edgeType with hf | ⟨hf, -⟩
      · exact hf.trans hlow
      · exact absurd (hlow.symm.trans hf) (Option.some_ne_none _)
    · exact .inr (.inl ⟨n + 1, Nat.lt_succ_of_le h.le, le_refl _, hentry⟩)

/-- A pass that does not stop at its cap moves the low-water mark past what it deletes. -/
theorem collect (h : Since e c₀ n c)
    (hgc : c.changelog.gcTopologyChangelogTo cap repairEpoch edgeType gcThrough = (some l, deleted))
    (uncapped : c.changelog.gcStopsAtCap cap edgeType gcThrough = false)
    (hthrough : gcThrough + 1 < u64Bound) : Since e c₀ (n + 1) { c with changelog := l } := by
  have hmono := h.mono (le_succ n) (succ_ne_self n)
  obtain ⟨hentries, hfloor⟩ :=
    Changelog.gcTopologyChangelogTo_uncapped hgc uncapped hthrough
  have hdirty : l.matrixDirty = c.changelog.matrixDirty := by
    rcases Changelog.gcTopologyChangelogTo_spec hgc with ⟨-, rfl⟩ | ⟨_, _, _, -, -, -, -, rfl⟩ <;>
      rfl
  refine ⟨hmono.le, fun heq => absurd (heq.trans_le h.le) (not_succ_le_self n), ?_, fun k => ?_⟩
  · rw [hdirty]; exact hmono.dirtied
  rcases hmono.logged k with hv | ⟨s, hs, hsn, hentry⟩ | ⟨low, hlow, hlt⟩
  · exact .inl hv
  · rcases hentries _ hentry with hkept | ⟨low, hlow, hlt⟩
    · exact .inr (.inl ⟨s, hs, hsn, hkept⟩)
    · exact .inr (.inr ⟨low, hlow, (succ_le_of_lt hs).trans_lt hlt⟩)
  · obtain ⟨low', hlow', hle⟩ := hfloor _ _ hlow
    exact .inr (.inr ⟨low', hlow', hlt.trans_le hle⟩)

end Since

/-! ## A change and its entry -/

/-- The entry of an edge at the sequence `q` is kept, or the low-water mark has passed it. -/
def Kept (k : EdgeKey) (q : StorageSequence) (n : StorageSequence) (c : Cell) : Prop :=
  q ≤ n ∧ (c.changelog.entries.contains (k.entry q) = true ∨
    ∃ low, c.changelog.lowWater.get k.edgeType = some low ∧ q < low)

namespace Kept

variable {k : EdgeKey} {q : StorageSequence}

theorem mono (h : Kept k q n c) : Kept k q (n + 1) c := ⟨h.1.trans (le_succ n), h.2⟩

theorem commit (h : Kept k q n c) (ok : CellOk g n c) (hc : Committed F g (n + 1) c c') :
    Kept k q (n + 1) c' := by
  have hlogged := ok.logged hc
  refine ⟨h.mono.1, h.2.imp (fun hentry => ?_) fun ⟨low, hlow, hlt⟩ => ⟨low, ?_, hlt⟩⟩
  · rwa [contains_iff, hlogged.older _ (Nat.ne_of_lt (Nat.lt_succ_of_le h.1))]
  · rcases hlogged.floor k.edgeType with hf | ⟨hf, -⟩
    · exact hf.trans hlow
    · exact absurd (hlow.symm.trans hf) (Option.some_ne_none _)

theorem collect (h : Kept k q n c)
    (hgc : c.changelog.gcTopologyChangelogTo cap repairEpoch edgeType gcThrough = (some l, deleted))
    (uncapped : c.changelog.gcStopsAtCap cap edgeType gcThrough = false)
    (hthrough : gcThrough + 1 < u64Bound) : Kept k q (n + 1) { c with changelog := l } := by
  obtain ⟨hentries, hfloor⟩ :=
    Changelog.gcTopologyChangelogTo_uncapped hgc uncapped hthrough
  refine ⟨h.mono.1, ?_⟩
  rcases h.2 with hentry | ⟨low, hlow, hlt⟩
  · exact hentries _ hentry
  · obtain ⟨low', hlow', hle⟩ := hfloor _ _ hlow
    exact .inr ⟨low', hlow', hlt.trans_le hle⟩

end Kept

/-! ## Replaying the entries of a range -/

section

variable {l : Changelog} {k : EdgeKey}

theorem XlogKey.sequence_le {x' : XlogKey} (h : x < x') (hty : x.edgeType = x'.edgeType) :
    x.sequence ≤ x'.sequence := by
  obtain ⟨ty, s, src, dst⟩ := x
  obtain ⟨ty', s', src', dst'⟩ := x'
  obtain rfl : ty = ty' := hty
  have h : toLex (ty, toLex (s, toLex (src, dst))) < toLex (ty, toLex (s', toLex (src', dst'))) :=
    h
  simp only [Prod.Lex.toLex_lt_toLex, lt_irrefl, false_or, true_and] at h
  rcases h with h | ⟨rfl, -⟩
  · exact h.le
  · exact le_refl s

/-- A range read says of an edge what the last entry of its pair in the range says. -/
theorem Changelog.state_resolve_changesIn :
    (resolve (l.changesIn k.edgeType start stop)).state k.src k.dst =
      ((l.entries.scan fun x => x.edgeType = k.edgeType ∧ start ≤ x.sequence ∧
        x.sequence < stop).reverse.find? fun x => x.1.src = k.src ∧ x.1.dst = k.dst).map
          Prod.snd := by
  rw [resolve, GraphTopologyOverlay.state_foldl_set, changesIn, ← List.map_reverse,
    List.find?_map, Option.map_map, GraphTopologyOverlay.state_empty, Option.or_none]
  rfl

/-- The newest entry of an edge in the range decides. -/
theorem Changelog.state_resolve_of_newest (hget : l.entries.get (k.entry s) = some b)
    (hstart : start ≤ s) (hstop : s < stop)
    (newest : ∀ s', s < s' → l.entries.get (k.entry s') = none) :
    (resolve (l.changesIn k.edgeType start stop)).state k.src k.dst = some b := by
  rw [state_resolve_changesIn, List.find?_reverse_eq_some pairwise_scan (x := (k.entry s, b))]
  · rfl
  · exact mem_scan.2 ⟨hget, decide_eq_true ⟨rfl, hstart, hstop⟩⟩
  · exact decide_eq_true ⟨rfl, rfl⟩
  rintro ⟨⟨ty, s', src, dst⟩, b'⟩ hmem hlt
  obtain ⟨hget', hrange⟩ := mem_scan.1 hmem
  rw [decide_eq_true_eq] at hrange
  obtain rfl : ty = k.edgeType := hrange.1
  refine decide_eq_false ?_
  rintro ⟨hsrc, hdst⟩
  obtain rfl : src = k.src := hsrc
  obtain rfl : dst = k.dst := hdst
  have hle : s ≤ s' := XlogKey.sequence_le hlt rfl
  rcases hle.eq_or_lt with rfl | hlt'
  · exact lt_irrefl _ hlt
  · have hnone := newest s' hlt'
    rw [EdgeKey.entry, hget'] at hnone
    cases hnone

/-- An edge without an entry in the range is not in the overlay. -/
theorem Changelog.state_resolve_eq_none (h : ∀ s, start ≤ s → l.entries.get (k.entry s) = none) :
    (resolve (l.changesIn k.edgeType start stop)).state k.src k.dst = none := by
  rw [state_resolve_changesIn, Option.map_eq_none_iff, List.find?_eq_none]
  rintro ⟨⟨ty, s, src, dst⟩, b⟩ hmem hk
  rw [List.mem_reverse] at hmem
  obtain ⟨hget, hrange⟩ := mem_scan.1 hmem
  rw [decide_eq_true_eq] at hrange hk
  obtain rfl : ty = k.edgeType := hrange.1
  obtain rfl : src = k.src := hk.1
  obtain rfl : dst = k.dst := hk.2
  have hnone := h s hrange.2.1
  rw [EdgeKey.entry, hget] at hnone
  cases hnone

/-- An edge with an entry in the range is in the overlay. -/
theorem Changelog.state_resolve_ne_none (h : l.entries.contains (k.entry s) = true)
    (hstart : start ≤ s) (hstop : s < stop) :
    (resolve (l.changesIn k.edgeType start stop)).state k.src k.dst ≠ none := by
  obtain ⟨b, hget⟩ := get_of_contains h
  rw [state_resolve_changesIn, Ne, Option.map_eq_none_iff, List.find?_eq_none]
  intro hnone
  refine hnone (k.entry s, b) (List.mem_reverse.2 (mem_scan.2 ⟨hget, ?_⟩)) ?_
  · exact decide_eq_true ⟨rfl, hstart, hstop⟩
  · exact decide_eq_true ⟨rfl, rfl⟩

end

/-- The newest entry of each edge of a type after the sequence `e` says whether the edge is
visible; an edge without such an entry is as it was. -/
structure Tracks (edgeType : EdgeType) (e : StorageSequence) (c₀ : Cell) (n : StorageSequence)
    (c : Cell) : Prop where
  le : e ≤ n
  newest : ∀ k : EdgeKey, k.edgeType = edgeType →
    (∀ s, e < s → c.changelog.entries.get (k.entry s) = none) ∧
        (c.topology.Visible k ↔ c₀.topology.Visible k) ∨
      ∃ s b, e < s ∧ s ≤ n ∧ c.changelog.entries.get (k.entry s) = some b ∧
        (b = true ↔ c.topology.Visible k) ∧
        ∀ s', s < s' → c.changelog.entries.get (k.entry s') = none

namespace Tracks

variable {edgeType : EdgeType}

/-- No entry is newer than the last commit. -/
theorem get_entry_of_lt (ok : CellOk g n c) {k : EdgeKey} (h : n < s) :
    c.changelog.entries.get (k.entry s) = none := by
  cases hget : c.changelog.entries.get (k.entry s) with
  | none => rfl
  | some => exact absurd (ok.entries_le _ (contains_of_get hget)) (not_le.2 h)

theorem refl (ok : CellOk g n c) : Tracks edgeType n c n c where
  le := le_refl n
  newest _ _ := .inl ⟨fun _ hs => get_entry_of_lt ok hs, Iff.rfl⟩

variable (h : Tracks edgeType e c₀ n c)

include h

theorem mono : Tracks edgeType e c₀ (n + 1) c where
  le := h.le.trans (le_succ n)
  newest k hk := (h.newest k hk).imp_right fun ⟨s, b, hs, hle, hrest⟩ =>
    ⟨s, b, hs, hle.trans (le_succ n), hrest⟩

/-- A transaction writes an entry at its own sequence for every edge it changes. -/
theorem commit (trusted : g.trusted = true) (ok : CellOk g n c)
    (hc : Committed F g (n + 1) c c') : Tracks edgeType e c₀ (n + 1) c' where
  le := h.le.trans (le_succ n)
  newest k hk := by
    have hlogged := ok.logged hc
    have hnewer : ∀ s, n + 1 < s → c'.changelog.entries.get (k.entry s) = none := by
      intro s hs
      rw [hlogged.older (k.entry s) (ne_of_gt hs)]
      exact get_entry_of_lt ok ((lt_succ_self n).trans hs)
    cases hnew : c'.changelog.entries.get (k.entry (n + 1)) with
    | some b =>
      exact .inr ⟨n + 1, b, lt_succ_of_le h.le, le_refl _, hnew,
        hlogged.agrees trusted k b hnew, hnewer⟩
    | none =>
      have hsame : c'.topology.Visible k ↔ c.topology.Visible k := by
        refine (hlogged.logged k).resolve_right fun hentry => ?_
        rw [contains_iff, hnew] at hentry
        cases hentry
      have hentries : ∀ s, c'.changelog.entries.get (k.entry s) =
          c.changelog.entries.get (k.entry s) := by
        intro s
        by_cases hs : s = n + 1
        · rw [hs, hnew, get_entry_of_lt ok (lt_succ_self n)]
        · exact hlogged.older _ hs
      rcases h.newest k hk with ⟨hnone, hold⟩ | ⟨s, b, hs, hle, hget, hb, hrest⟩
      · exact .inl ⟨fun s hs => (hentries s).trans (hnone s hs), hsame.trans hold⟩
      · exact .inr ⟨s, b, hs, hle.trans (le_succ n), (hentries s).trans hget,
          hb.trans hsame.symm, fun s' hs' => (hentries s').trans (hrest s' hs')⟩

/-- A pass that leaves the entries of the range alone. -/
theorem collect
    (hgc : c.changelog.gcTopologyChangelogTo cap repairEpoch edgeType' gcThrough =
      (some l, deleted)) (retained : ∀ x : XlogKey, x.edgeType = edgeType → e < x.sequence →
      c.changelog.entries.contains x = true → l.entries.contains x = true) :
    Tracks edgeType e c₀ (n + 1) { c with changelog := l } where
  le := h.mono.le
  newest k hk := by
    have hentries : ∀ s, e < s →
        l.entries.get (k.entry s) = c.changelog.entries.get (k.entry s) := by
      intro s hs
      rcases Changelog.get_gcTopologyChangelogTo hgc with hnone | hsame
      · cases hold : c.changelog.entries.get (k.entry s) with
        | none => exact hnone
        | some =>
          have hkept := retained (k.entry s) hk hs (contains_of_get hold)
          rw [contains_iff, hnone] at hkept
          cases hkept
      · exact hsame
    rcases h.mono.newest k hk with ⟨hnone, hold⟩ | ⟨s, b, hs, hle, hget, hb, hrest⟩
    · exact .inl ⟨fun s hs => (hentries s hs).trans (hnone s hs), hold⟩
    · exact .inr ⟨s, b, hs, hle, (hentries s hs).trans hget, hb,
        fun s' hs' => (hentries s' (hs.trans hs')).trans (hrest s' hs')⟩

/-- Replaying the range gives the visibility at its end. -/
theorem visible_iff (hk : k.edgeType = edgeType) :
    c.topology.Visible k ↔
      ((Changelog.resolve (c.changelog.changesIn edgeType (e + 1) (n + 1))).state k.src k.dst).elim
        (c₀.topology.Visible k) fun present => present = true := by
  subst hk
  rcases h.newest k rfl with ⟨hnone, hsame⟩ | ⟨s, b, hs, hle, hget, hb, hrest⟩
  · rw [Changelog.state_resolve_eq_none fun s hs => hnone s (lt_of_succ_le hs)]
    exact hsame
  · rw [Changelog.state_resolve_of_newest hget (succ_le_of_lt hs) (lt_succ_of_le hle) hrest]
    exact hb.symm

end Tracks

end HydraDb
