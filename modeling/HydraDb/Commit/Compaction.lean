import HydraDb.Commit.Basic
import HydraDb.Write.Compaction

/-!
# Maintenance as steps

A compaction rewrites the segments of one source up to a sequence into one segment at that
sequence, and takes back the tombstones it has applied. It changes no edge: a tombstone newer than
the sequence still hides the rewritten position, and segments newer than the sequence are not
touched. Garbage collection writes only the changelog, so it is not a sequence of steps; that it
keeps the invariants of a cell is shown directly.
-/

namespace HydraDb

open OrdMap

namespace Topology

variable {t : Topology}
  {s : SegmentKey}

/-! ## What is compacted -/

/-- Segments of one source are stored in sequence order. -/
theorem SegmentKey.sequence_le (h : s < s') (hty : s.edgeType = s'.edgeType)
    (hsrc : s.src = s'.src) : s.sequence ≤ s'.sequence := by
  obtain ⟨ty, v, e, i⟩ := s
  obtain ⟨ty', v', e', i'⟩ := s'
  obtain rfl : ty = ty' := hty
  obtain rfl : v = v' := hsrc
  have h : toLex (ty, toLex (v, toLex (e, i))) < toLex (ty, toLex (v, toLex (e', i'))) := h
  simp only [Prod.Lex.toLex_lt_toLex, lt_irrefl, false_or, true_and] at h
  rcases h with h | ⟨rfl, -⟩
  · exact h.le
  · exact le_refl e

theorem mem_segmentsForSrc : (s, ds) ∈ t.segmentsForSrc edgeType src through ↔
    t.outSegments.get s = some ds ∧ (s.edgeType = edgeType ∧ s.src = src) ∧
      s.sequence ≤ through := by
  have hsorted : (t.outSegments.scan fun k => k.edgeType = edgeType ∧ k.src = src).Pairwise
      fun a b => decide (b.1.sequence ≤ through) = true →
        decide (a.1.sequence ≤ through) = true := by
    refine List.Pairwise.imp_of_mem ?_ pairwise_scan
    intro a b ha hb hlt hle
    have ha := (mem_scan.1 ha).2
    have hb := (mem_scan.1 hb).2
    rw [decide_eq_true_eq] at ha hb hle ⊢
    exact (SegmentKey.sequence_le hlt (ha.1.trans hb.1.symm) (ha.2.trans hb.2.symm)).trans hle
  rw [segmentsForSrc, List.mem_takeWhile_iff hsorted, mem_scan, decide_eq_true_eq,
    decide_eq_true_eq, and_assoc]

theorem mem_compactedDestinations (hn : t.Bounded n) :
    dst ∈ t.compactedDestinations edgeType src through n ↔
      ∃ s ds, (s, ds) ∈ t.segmentsForSrc edgeType src through ∧ dst ∈ ds ∧
        segmentEdgeVisible s.sequence ((t.tombstones.get ⟨edgeType, src, dst⟩).filter
          fun epoch => epoch ≤ through) = true := by
  have key : ∀ (segments : List (SegmentKey × List VertexId)) live,
      (segments.foldl (fun (live : OrdMap VertexId Unit) s =>
        live.addAll (s.2.filter fun dst => segmentEdgeVisible s.1.sequence
          (((t.segmentTombstones edgeType src n).get dst).filter
            fun epoch => epoch ≤ through))) live).contains dst = true ↔
        live.contains dst = true ∨ ∃ s ∈ segments, dst ∈ s.2 ∧
          segmentEdgeVisible s.1.sequence ((t.tombstones.get ⟨edgeType, src, dst⟩).filter
            fun epoch => epoch ≤ through) = true := by
    intro segments
    induction segments with
    | nil => simp
    | cons s segments ih =>
      intro live
      rw [List.foldl_cons, ih, contains_addAll, List.mem_filter, get_segmentTombstones hn]
      simp only [List.mem_cons, exists_eq_or_imp]
      tauto
  rw [compactedDestinations, mem_keys_iff_contains, key, contains_empty]
  simp

/-- A compaction takes back the tombstones of its source up to its sequence. -/
theorem get_tombstones_compactSegments (hn : t.Bounded n) :
    (t.compactSegments edgeType src through n segmentId).tombstones.get k =
      if k.edgeType = edgeType ∧ k.src = src then
        (t.tombstones.get k).filter fun epoch => through < epoch
      else t.tombstones.get k := by
  have hmem : k ∈ t.compactedTombstones edgeType src through n ↔
      (k.edgeType = edgeType ∧ k.src = src) ∧
        ∃ epoch, t.tombstones.get k = some epoch ∧ epoch ≤ through := by
    obtain ⟨ty, v, d⟩ := k
    simp only [compactedTombstones, List.mem_map, List.mem_filter, Prod.exists,
      mem_entries, get_segmentTombstones hn, decide_eq_true_eq, EdgeKey.mk.injEq]
    constructor
    · rintro ⟨d, epoch, ⟨hget, hle⟩, rfl, rfl, rfl⟩
      exact ⟨⟨rfl, rfl⟩, epoch, hget, hle⟩
    · rintro ⟨⟨rfl, rfl⟩, epoch, hget, hle⟩
      exact ⟨d, epoch, ⟨hget, hle⟩, rfl, rfl, rfl⟩
  rw [compactSegments, get_delAll]
  by_cases hk : k.edgeType = edgeType ∧ k.src = src
  · rw [if_pos hk]
    cases hget : t.tombstones.get k with
    | none =>
      simp
    | some =>
      simp only [hmem, hk, hget, true_and, Option.some.injEq, exists_eq_left', Option.filter_some,
        decide_eq_true_eq, ← Nat.not_le, ite_not, and_self]
  · rw [if_neg hk, if_neg fun h => hk (hmem.1 h).1]

/-- The segments after a compaction: those of other sources and newer ones as they were, and the
surviving destinations at the sequence of the compaction. -/
theorem get_outSegments_compactSegments :
    (t.compactSegments edgeType src through n segmentId).outSegments.get s = some ds ↔
      (t.outSegments.get s = some ds ∧
        ¬ ((s.edgeType = edgeType ∧ s.src = src) ∧ s.sequence ≤ through)) ∨
      s = ⟨edgeType, src, through, segmentId⟩ ∧ ds ≠ [] ∧
        ds = t.compactedDestinations edgeType src through n := by
  have hkept : (t.outSegments.delAll
      ((t.segmentsForSrc edgeType src through).map Prod.fst)).get s = some ds ↔
      t.outSegments.get s = some ds ∧
        ¬ ((s.edgeType = edgeType ∧ s.src = src) ∧ s.sequence ≤ through) := by
    rw [get_delAll]
    split
    · next h =>
      obtain ⟨⟨s, ds'⟩, hs, rfl⟩ := List.mem_map.1 h
      exact iff_of_false (fun h => Option.some_ne_none _ h.symm)
        fun h => h.2 (mem_segmentsForSrc.1 hs).2
    · next h =>
      refine ⟨fun hget => ⟨hget, fun hs => h ?_⟩, fun h => h.1⟩
      exact List.mem_map_of_mem (mem_segmentsForSrc.2 ⟨hget, hs⟩)
  unfold compactSegments
  dsimp only
  split
  · next hnil =>
    rw [hkept, List.isEmpty_iff] at *
    refine ⟨.inl, ?_⟩
    rintro (h | ⟨-, hne, rfl⟩)
    · exact h
    · exact absurd hnil hne
  next hne =>
  rw [List.isEmpty_iff] at hne
  rw [get_put]
  split
  · next heq =>
    subst heq
    constructor
    · rintro ⟨⟩
      exact .inr ⟨rfl, hne, rfl⟩
    · rintro (⟨-, hnot⟩ | ⟨-, -, rfl⟩)
      · exact absurd ⟨⟨rfl, rfl⟩, le_refl _⟩ hnot
      · rfl
  · next hs =>
    rw [hkept]
    refine ⟨.inl, ?_⟩
    rintro (h | ⟨h, -⟩)
    · exact h
    · exact absurd h hs

/-! ## What is visible -/

theorem segmentEdgeVisible_iff :
    segmentEdgeVisible epoch tombstone = true ↔ ∀ τ, tombstone = some τ → τ < epoch := by
  cases tombstone <;> simp [segmentEdgeVisible]

/-- A compaction changes no edge. -/
theorem segVisible_compactSegments (hn : t.Bounded n) :
    (t.compactSegments edgeType src through n segmentId).SegVisible k ↔ t.SegVisible k := by
  by_cases hk : k.edgeType = edgeType ∧ k.src = src
  · obtain ⟨ty, v, d⟩ := k
    obtain ⟨rfl, rfl⟩ : ty = edgeType ∧ v = src := hk
    simp only [SegVisible, get_outSegments_compactSegments, get_tombstones_compactSegments hn,
      and_self, if_true, segmentEdgeVisible_iff, Option.filter_eq_some_iff, decide_eq_true_eq]
    constructor
    · rintro ⟨s, ds, ⟨hget, hnew⟩ | ⟨rfl, -, rfl⟩, hty, hsrc, hmem, hvis⟩
      · -- a newer segment is newer than the tombstones taken back
        refine ⟨s, ds, hget, hty, hsrc, hmem, fun τ hτ => ?_⟩
        by_cases hle : through < τ
        · exact hvis τ ⟨hτ, hle⟩
        · exact lt_of_le_of_lt (Nat.not_lt.1 hle) (Nat.not_le.1 fun h => hnew ⟨⟨hty, hsrc⟩, h⟩)
      · -- the rewritten position is not hidden, so its tombstone was applied
        obtain ⟨s, ds, hs, hd, hshown⟩ := (mem_compactedDestinations hn).1 hmem
        obtain ⟨hget, ⟨hty, hsrc⟩, -⟩ := mem_segmentsForSrc.1 hs
        refine ⟨s, ds, hget, hty, hsrc, hd, fun τ hτ => ?_⟩
        by_cases hle : through < τ
        · exact absurd (hvis τ ⟨hτ, hle⟩) (Nat.lt_asymm hle)
        · refine segmentEdgeVisible_iff.1 hshown τ ?_
          rw [hτ, Option.filter_some, if_pos (decide_eq_true (Nat.not_lt.1 hle))]
    · rintro ⟨s, ds, hget, hty, hsrc, hmem, hvis⟩
      by_cases hold : s.sequence ≤ through
      · have hsurvives : d ∈ t.compactedDestinations ty v through n := by
          refine (mem_compactedDestinations hn).2
            ⟨s, ds, mem_segmentsForSrc.2 ⟨hget, ⟨hty, hsrc⟩, hold⟩, hmem, ?_⟩
          refine segmentEdgeVisible_iff.2 fun τ hτ => hvis τ ?_
          exact (Option.filter_eq_some_iff.1 hτ).1
        refine ⟨_, _, .inr ⟨rfl, List.ne_nil_of_mem hsurvives, rfl⟩, rfl, rfl, hsurvives, ?_⟩
        rintro τ ⟨hτ, hlt⟩
        exact absurd ((hvis τ hτ).trans_le hold) (Nat.lt_asymm hlt)
      · exact ⟨s, ds, .inl ⟨hget, fun h => hold h.2⟩, hty, hsrc, hmem, fun τ hτ => hvis τ hτ.1⟩
  · rw [SegVisible, SegVisible, get_tombstones_compactSegments hn, if_neg hk]
    refine exists_congr fun s => exists_congr fun ds => ?_
    rw [get_outSegments_compactSegments]
    constructor
    · rintro ⟨⟨hget, -⟩ | ⟨rfl, -⟩, hty, hsrc, hrest⟩
      · exact ⟨hget, hty, hsrc, hrest⟩
      · exact absurd ⟨hty.symm, hsrc.symm⟩ hk
    · rintro ⟨hget, hty, hsrc, hrest⟩
      exact ⟨.inl ⟨hget, fun h => hk (hty ▸ hsrc ▸ h.1)⟩, hty, hsrc, hrest⟩

theorem bounded_compactSegments (hn : t.Bounded n) (hthrough : through ≤ n) :
    (t.compactSegments edgeType src through n segmentId).Bounded n where
  segment_le s hs := by
    obtain ⟨ds, hds⟩ := get_of_contains hs
    rcases get_outSegments_compactSegments.1 hds with ⟨hget, -⟩ | ⟨rfl, -⟩
    · exact hn.segment_le s (contains_of_get hget)
    · exact hthrough
  tombstone_le k τ hτ := by
    rw [get_tombstones_compactSegments hn] at hτ
    split at hτ
    · exact hn.tombstone_le k τ (Option.filter_eq_some_iff.1 hτ).1
    · exact hn.tombstone_le k τ hτ

/-- Without segments there is nothing to compact. -/
theorem noSegments_compactSegments (hn : t.Bounded n) (h : ∀ s, t.outSegments.get s = none)
    (s : SegmentKey) :
    (t.compactSegments edgeType src through n segmentId).outSegments.get s = none := by
  refine Option.eq_none_iff_forall_ne_some.2 fun ds hds => ?_
  rcases get_outSegments_compactSegments.1 hds with ⟨hget, -⟩ | ⟨-, hne, rfl⟩
  · exact Option.some_ne_none _ (hget.symm.trans (h s))
  · obtain ⟨d, hd⟩ := List.exists_mem_of_ne_nil _ hne
    obtain ⟨s', ds', hs', -⟩ := (mem_compactedDestinations hn).1 hd
    exact Option.some_ne_none _ ((mem_segmentsForSrc.1 hs').1.symm.trans (h s'))

/-- The out-degree a compaction writes is the number of visible destinations. -/
theorem length_outNeighborsForSrc (hn : t.Bounded n) :
    (t.outNeighborsForSrc edgeType src n).entries.length = (t.destinations edgeType src).card := by
  rw [length_entries]
  congr 1
  ext dst
  rw [mem_support, contains_outNeighborsForSrc hn, mem_destinations]

end Topology

/-! ## The transaction -/

theorem Committed.compactSegments (ok : CellOk g n c) (hthrough : through ≤ n) :
    Committed F g (n + 1) c
      { c with topology := c.topology.compactSegments edgeType src through n segmentId } := by
  have hn := ok.adjacency.bounded
  set t := c.topology.compactSegments edgeType src through n segmentId with ht
  have hbounded : t.Bounded (n + 1) :=
    (Topology.bounded_compactSegments hn hthrough).mono (Nat.le_succ n)
  refine .head (.resegment t.outSegments t.tombstones ⟨hbounded.segment_le, hbounded.tombstone_le⟩
    (fun hr => Topology.noSegments_compactSegments hn (ok.adjacency.noSegments hr))
    (fun k => Topology.segVisible_compactSegments hn)
    fun k τ hτ => Nat.lt_succ_of_le (hn.tombstone_le k τ hτ)) ?_
  refine .single (.countOut t.degreeOut (fun _ => 0) fun htrusted k => ?_)
  change (t.degreeOut.count k : Int) + 0 = c.topology.degreeOut.count k + 0
  rw [← ok.adjacency.outDegree htrusted k, ht, Topology.compactSegments, count_put, Int.add_zero]
  split
  · next hk => rw [hk, Topology.length_outNeighborsForSrc hn]
  · rw [ok.adjacency.outDegree htrusted k, Int.add_zero]

theorem compactOutAdjacencySegments_committed (ok : CellOk g n c)
    (h : compactOutAdjacencySegments cellId edgeType src through idempotencyKey artifactBase n c =
      .ok (.commit c' r)) : Committed F g (n + 1) c c' := by
  replace h := seq_ok₃ h
  replace h := replayOr_commit h
  obtain ⟨hthrough, h⟩ := else_of_ne h nofun
  split at h
  · cases h
  replace h := rest_of_ne h nofun
  replace h := seq_ok h
  cases commitTxn_ok h
  exact (Committed.compactSegments ok (Nat.not_lt.1 hthrough)).putIdempotency
    _ _ _

end HydraDb
