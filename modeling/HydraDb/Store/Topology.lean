import HydraDb.Store.Cell
import Mathlib.Data.List.TakeWhile

/-!
# Adjacency

An edge is stored in one of two forms: as a direct key under `e/out`, or as a destination of an
out-segment of its source that no later tombstone of the pair hides. This file has the reads over
both forms (`codec.rs`), the writes a transaction makes to them, and what the reads mean: an edge
is `Visible` when it is `Direct` or `SegVisible`.
-/

namespace HydraDb

open OrdMap

/-- The reverse key of an edge. -/
def EdgeKey.mirror (k : EdgeKey) : InEdgeKey := ⟨k.edgeType, k.dst, k.src⟩

/-- `segment_edge_visible`. -/
def segmentEdgeVisible (edgeEpoch : StorageSequence) (tombstoneEpoch : Option StorageSequence) :
    Bool :=
  tombstoneEpoch.all fun epoch => edgeEpoch > epoch

namespace Topology

variable {t : Topology} {edgeType : EdgeType}

/-! ## Reads -/

/-- The tombstones of a source that are not newer than the read epoch, by destination. -/
def segmentTombstones (t : Topology) (edgeType : EdgeType) (src : VertexId)
    (readEpoch : StorageSequence) : OrdMap VertexId StorageSequence :=
  (t.tombstones.scan fun k => k.edgeType = edgeType ∧ k.src = src).foldl
    (fun tombstones e =>
      if e.2 ≤ readEpoch then tombstones.put e.1.dst e.2 else tombstones) ∅

/-- The segments of a source that are not newer than the read epoch: the scan is in sequence
order and stops at the first newer one. -/
def segmentsForSrc (t : Topology) (edgeType : EdgeType) (src : VertexId)
    (readEpoch : StorageSequence) : List (SegmentKey × List VertexId) :=
  (t.outSegments.scan fun k => k.edgeType = edgeType ∧ k.src = src).takeWhile
    fun e => e.1.sequence ≤ readEpoch

/-- One segment's contribution to `out_segment_edges_for_src_txn`. -/
def addSegmentEdges (tombstones : OrdMap VertexId StorageSequence)
    (edges : OrdMap VertexId StorageSequence) (segment : SegmentKey × List VertexId) :
    OrdMap VertexId StorageSequence :=
  segment.2.foldl (fun edges dst =>
    if segmentEdgeVisible segment.1.sequence (tombstones.get dst) then
      edges.put dst (match edges.get dst with
        | some current => max current segment.1.sequence
        | none => segment.1.sequence)
    else edges) edges

/-- `out_segment_edges_for_src_txn`: the visible segment destinations of a source, each with the
latest segment that shows it. -/
def outSegmentEdgesForSrc (t : Topology) (edgeType : EdgeType) (src : VertexId)
    (readEpoch : StorageSequence) : OrdMap VertexId StorageSequence :=
  (t.segmentsForSrc edgeType src readEpoch).foldl
    (addSegmentEdges (t.segmentTombstones edgeType src readEpoch)) ∅

/-- The direct edges of a source, in destination order. -/
def directForSrc (t : Topology) (edgeType : EdgeType) (src : VertexId) : List VertexId :=
  (t.outEdges.scan fun k => k.edgeType = edgeType ∧ k.src = src).map fun e => e.1.dst

/-- `out_neighbors_for_src_txn`. -/
def outNeighborsForSrc (t : Topology) (edgeType : EdgeType) (src : VertexId)
    (readEpoch : StorageSequence) : OrdMap VertexId Unit :=
  (addAll ∅ (t.directForSrc edgeType src)).addAll
    (t.outSegmentEdgesForSrc edgeType src readEpoch).keys

/-- `edge_epoch_at_txn`: a direct edge answers with the read epoch, a segment edge with the
sequence of its segment. -/
def edgeEpochAt (t : Topology) (k : EdgeKey) (readEpoch : StorageSequence) :
    Option StorageSequence :=
  if t.outEdges.contains k then some readEpoch
  else (t.outSegmentEdgesForSrc k.edgeType k.src readEpoch).get k.dst

/-- `out_segment_edge_record_at` (`shard/query.rs`): the latest segment that shows the edge. -/
def outSegmentEdgeRecordAt (t : Topology) (k : EdgeKey) (readEpoch : StorageSequence) :
    Option StorageSequence :=
  let tombstone := (t.tombstones.get k).filter fun epoch => epoch ≤ readEpoch
  (t.segmentsForSrc k.edgeType k.src readEpoch).foldl (fun latest s =>
    if k.dst ∈ s.2 ∧ segmentEdgeVisible s.1.sequence tombstone then some s.1.sequence
    else latest) none

/-! ## Writes -/

/-- Put a direct edge, and its reverse key under the policy that keeps a reverse index. -/
def insertDirect (t : Topology) (reverseIndex : Bool) (k : EdgeKey) : Topology :=
  { t with
    outEdges := t.outEdges.put k ()
    inEdges := if reverseIndex then t.inEdges.put k.mirror () else t.inEdges }

/-- Delete a direct edge, and its reverse key. -/
def removeDirect (t : Topology) (reverseIndex : Bool) (k : EdgeKey) : Topology :=
  { t with
    outEdges := t.outEdges.del k
    inEdges := if reverseIndex then t.inEdges.del k.mirror else t.inEdges }

/-- Hide the segment positions of an edge written up to `epoch`. -/
def putTombstone (t : Topology) (k : EdgeKey) (epoch : StorageSequence) : Topology :=
  { t with tombstones := t.tombstones.put k epoch }

/-- Append a segment and take back the tombstones of its destinations. -/
def appendSegment (t : Topology) (s : SegmentKey) (destinations : List VertexId) : Topology :=
  { t with
    outSegments := t.outSegments.put s destinations
    tombstones := t.tombstones.delAll (destinations.map fun dst => ⟨s.edgeType, s.src, dst⟩) }

/-! ## Meaning -/

/-- The edge is a direct key. -/
def Direct (t : Topology) (k : EdgeKey) : Prop := t.outEdges.contains k = true

/-- The edge is a destination of a segment newer than its tombstone. -/
def SegVisible (t : Topology) (k : EdgeKey) : Prop :=
  ∃ s destinations, t.outSegments.get s = some destinations ∧ s.edgeType = k.edgeType ∧
    s.src = k.src ∧ k.dst ∈ destinations ∧
    segmentEdgeVisible s.sequence (t.tombstones.get k) = true

/-- The edge exists. -/
def Visible (t : Topology) (k : EdgeKey) : Prop := t.Direct k ∨ t.SegVisible k

/-- The destinations visible from a source. -/
def destinations (t : Topology) (edgeType : EdgeType) (src : VertexId) : Finset VertexId :=
  (t.directForSrc edgeType src).toFinset ∪
    ((t.outSegments.scan fun k => k.edgeType = edgeType ∧ k.src = src).flatMap fun s =>
      s.2.filter fun dst =>
        segmentEdgeVisible s.1.sequence (t.tombstones.get ⟨edgeType, src, dst⟩)).toFinset

/-- The sources of the reverse keys of a vertex. -/
def sources (t : Topology) (edgeType : EdgeType) (dst : VertexId) : Finset VertexId :=
  ((t.inEdges.scan fun k => k.edgeType = edgeType ∧ k.dst = dst).map fun e => e.1.src).toFinset

theorem mem_directForSrc : dst ∈ t.directForSrc edgeType src ↔ t.Direct ⟨edgeType, src, dst⟩ := by
  simp only [directForSrc, List.mem_map, Prod.exists, mem_scan, decide_eq_true_eq, Direct,
    contains_iff, Option.isSome_iff_exists]
  constructor
  · rintro ⟨⟨_, _, _⟩, u, ⟨hget, rfl, rfl⟩, rfl⟩
    exact ⟨u, hget⟩
  · rintro ⟨u, hget⟩
    exact ⟨_, u, ⟨hget, rfl, rfl⟩, rfl⟩

theorem segVisible_iff : t.SegVisible k ↔
    ∃ s ∈ t.outSegments.scan fun s => s.edgeType = k.edgeType ∧ s.src = k.src,
      k.dst ∈ s.2 ∧ segmentEdgeVisible s.1.sequence (t.tombstones.get k) = true := by
  simp [SegVisible, mem_scan, and_assoc]

theorem mem_destinations : dst ∈ t.destinations edgeType src ↔ t.Visible ⟨edgeType, src, dst⟩ := by
  rw [Visible, segVisible_iff]
  simp [destinations, mem_directForSrc]

theorem mem_sources :
    src ∈ t.sources edgeType dst ↔ t.inEdges.contains ⟨edgeType, dst, src⟩ = true := by
  simp only [sources, List.mem_toFinset, List.mem_map, Prod.exists, mem_scan,
    decide_eq_true_eq, contains_iff, Option.isSome_iff_exists]
  constructor
  · rintro ⟨⟨_, _, _⟩, u, ⟨hget, rfl, rfl⟩, rfl⟩
    exact ⟨u, hget⟩
  · rintro ⟨u, hget⟩
    exact ⟨_, u, ⟨hget, rfl, rfl⟩, rfl⟩

instance (t : Topology) (k : EdgeKey) : Decidable (t.Direct k) :=
  inferInstanceAs (Decidable (t.outEdges.contains k = true))

instance (t : Topology) (k : EdgeKey) : Decidable (t.Visible k) :=
  decidable_of_iff (k.dst ∈ t.destinations k.edgeType k.src) mem_destinations

/-! ## What the reads answer -/

/-- Nothing in the adjacency is newer than `e`. -/
structure Bounded (t : Topology) (e : StorageSequence) : Prop where
  segment_le : ∀ s, t.outSegments.contains s = true → s.sequence ≤ e
  tombstone_le : ∀ k τ, t.tombstones.get k = some τ → τ ≤ e

theorem Bounded.mono (h : t.Bounded e) (he : e ≤ e') : t.Bounded e' where
  segment_le s hs := (h.segment_le s hs).trans he
  tombstone_le k τ hk := (h.tombstone_le k τ hk).trans he

section

variable {t : Topology} {e : StorageSequence} {edgeType : EdgeType} {src dst : VertexId}

variable {k : EdgeKey}

theorem get_segmentTombstones (h : t.Bounded e) :
    (t.segmentTombstones edgeType src e).get dst = t.tombstones.get ⟨edgeType, src, dst⟩ := by
  -- every tombstone passes the epoch test, so the loop is a plain list of writes
  set es := t.tombstones.scan fun k => k.edgeType = edgeType ∧ k.src = src with hes
  have hmem : ∀ {k τ}, (k, τ) ∈ es ↔
      t.tombstones.get k = some τ ∧ k.edgeType = edgeType ∧ k.src = src := by
    intro k τ
    rw [hes, mem_scan, decide_eq_true_eq]
  have hput : t.segmentTombstones edgeType src e = putAll ∅ (es.map fun x => (x.1.dst, x.2)) := by
    rw [segmentTombstones, ← hes, putAll, List.foldl_map]
    refine List.foldl_ext _ _ _ fun m x hx => ?_
    exact if_pos (h.tombstone_le x.1 x.2 (hmem.1 hx).1)
  rw [hput]
  cases hget : t.tombstones.get ⟨edgeType, src, dst⟩ with
  | some =>
    refine get_putAll_of_mem (List.mem_map.2 ⟨_, hmem.2 ⟨hget, rfl, rfl⟩, rfl⟩) ?_
    rintro x hx rfl
    obtain ⟨⟨⟨_, _, _⟩, τ'⟩, hy, rfl⟩ := List.mem_map.1 hx
    obtain ⟨hy', rfl, rfl⟩ := hmem.1 hy
    exact Option.some.inj (hy'.symm.trans hget)
  | none =>
    rw [get_putAll_of_notMem, get_empty]
    rintro x hx rfl
    obtain ⟨⟨⟨_, _, _⟩, τ'⟩, hy, rfl⟩ := List.mem_map.1 hx
    obtain ⟨hy', rfl, rfl⟩ := hmem.1 hy
    exact absurd (hy'.symm.trans hget) (Option.some_ne_none _)

theorem segmentsForSrc_eq (h : t.Bounded e) :
    t.segmentsForSrc edgeType src e =
      t.outSegments.scan fun k => k.edgeType = edgeType ∧ k.src = src := by
  refine List.takeWhile_eq_self_iff.2 fun x hx => decide_eq_true ?_
  have hget := (mem_scan.1 hx).1
  exact h.segment_le x.1 (contains_of_get hget)

theorem isSome_get_addSegmentEdges {segment}
    {tombstones : OrdMap VertexId StorageSequence} :
    ((addSegmentEdges tombstones edges segment).get dst).isSome = true ↔
      (edges.get dst).isSome = true ∨
        dst ∈ segment.2 ∧ segmentEdgeVisible segment.1.sequence (tombstones.get dst) = true := by
  obtain ⟨s, ds⟩ := segment
  simp only [addSegmentEdges]
  induction ds generalizing edges with
  | nil => simp
  | cons d ds ih =>
    rw [List.foldl_cons, ih]
    split
    · next hvis =>
      rw [← contains_iff, contains_put, contains_iff, List.mem_cons]
      by_cases hd : dst = d
      · subst hd; simp [hvis]
      · simp [hd]
    · next hvis =>
      by_cases hd : dst = d
      · subst hd; simp [hvis]
      · simp [hd]

section

variable (h : t.Bounded e)

include h

/-- The segment read answers exactly for the visible segment positions. -/
theorem isSome_get_outSegmentEdgesForSrc :
    ((t.outSegmentEdgesForSrc edgeType src e).get dst).isSome = true ↔
      t.SegVisible ⟨edgeType, src, dst⟩ := by
  have key : ∀ (segments : List (SegmentKey × List VertexId))
      edges,
      ((segments.foldl (addSegmentEdges (t.segmentTombstones edgeType src e)) edges).get
        dst).isSome = true ↔ (edges.get dst).isSome = true ∨
          ∃ s ∈ segments, dst ∈ s.2 ∧
            segmentEdgeVisible s.1.sequence (t.tombstones.get ⟨edgeType, src, dst⟩) = true := by
    intro segments
    induction segments with
    | nil => simp
    | cons s segments ih =>
      intro edges
      rw [List.foldl_cons, ih, isSome_get_addSegmentEdges, get_segmentTombstones h]
      simp [or_assoc]
  rw [outSegmentEdgesForSrc, key, segmentsForSrc_eq h, segVisible_iff]
  simp

theorem isSome_outSegmentEdgeRecordAt :
    (t.outSegmentEdgeRecordAt k e).isSome = true ↔ t.SegVisible k := by
  have htomb : ((t.tombstones.get k).filter fun epoch => epoch ≤ e) = t.tombstones.get k := by
    cases hk : t.tombstones.get k with
    | none => rfl
    | some τ => simp [h.tombstone_le k τ hk]
  have key : ∀ (segments : List (SegmentKey × List VertexId)) latest,
      (segments.foldl (fun latest s =>
        if k.dst ∈ s.2 ∧ segmentEdgeVisible s.1.sequence (t.tombstones.get k) then
          some s.1.sequence else latest) latest).isSome = true ↔ latest.isSome = true ∨
        ∃ s ∈ segments, k.dst ∈ s.2 ∧
          segmentEdgeVisible s.1.sequence (t.tombstones.get k) = true := by
    intro segments
    induction segments with
    | nil => simp
    | cons s segments ih =>
      intro latest
      rw [List.foldl_cons, ih]
      simp only [List.mem_cons, exists_eq_or_imp]
      split
      · next hs => simp [hs]
      · next hs => simp [hs]
  rw [outSegmentEdgeRecordAt, htomb, key, segmentsForSrc_eq h, segVisible_iff]
  simp

/-- The edge read answers exactly for the visible edges. -/
theorem isSome_edgeEpochAt : (t.edgeEpochAt k e).isSome = true ↔ t.Visible k := by
  rw [edgeEpochAt, Visible, Direct]
  split
  · next hd => simp [hd]
  · next hd => rw [isSome_get_outSegmentEdgesForSrc h]; simp [hd]

theorem edgeEpochAt_eq_none : t.edgeEpochAt k e = none ↔ ¬ t.Visible k := by
  rw [← isSome_edgeEpochAt h, Option.isSome_iff_ne_none, not_not]

/-- The neighbour read answers exactly the visible destinations. -/
theorem contains_outNeighborsForSrc :
    (t.outNeighborsForSrc edgeType src e).contains dst = true ↔ t.Visible ⟨edgeType, src, dst⟩ := by
  rw [outNeighborsForSrc, contains_addAll, contains_addAll, contains_empty,
    mem_keys, isSome_get_outSegmentEdgesForSrc h, mem_directForSrc, Visible]
  simp [or_comm]

end

end

/-! ## What the writes do -/

section

variable {t : Topology} {e : StorageSequence} {k : EdgeKey}

theorem mirror_inj : k.mirror = k'.mirror ↔ k = k' := by
  obtain ⟨ty, s, d⟩ := k
  obtain ⟨ty', s', d'⟩ := k'
  simp only [EdgeKey.mirror, InEdgeKey.mk.injEq, EdgeKey.mk.injEq]
  tauto

theorem direct_insertDirect : (t.insertDirect r k).Direct k' ↔ k' = k ∨ t.Direct k' :=
  contains_put

theorem segVisible_insertDirect : (t.insertDirect r k).SegVisible k' ↔ t.SegVisible k' := Iff.rfl

theorem visible_insertDirect : (t.insertDirect r k).Visible k' ↔ k' = k ∨ t.Visible k' := by
  rw [Visible, direct_insertDirect, segVisible_insertDirect, Visible, or_assoc]

theorem direct_removeDirect : (t.removeDirect r k).Direct k' ↔ k' ≠ k ∧ t.Direct k' :=
  contains_del

theorem segVisible_removeDirect : (t.removeDirect r k).SegVisible k' ↔ t.SegVisible k' := Iff.rfl

/-- Deleting the direct key of an edge hides it, provided no segment shows it. -/
theorem visible_removeDirect (h : ¬ t.SegVisible k) :
    (t.removeDirect r k).Visible k' ↔ k' ≠ k ∧ t.Visible k' := by
  rw [Visible, direct_removeDirect, segVisible_removeDirect, Visible]
  by_cases hk : k' = k
  · subst hk; simp [h]
  · simp [hk]

theorem visible_removeDirect_of_ne (h : k' ≠ k) :
    (t.removeDirect r k).Visible k' ↔ t.Visible k' := by
  rw [Visible, direct_removeDirect, segVisible_removeDirect, Visible]
  simp [h]

theorem direct_putTombstone : (t.putTombstone k e).Direct k' ↔ t.Direct k' := Iff.rfl

/-- A tombstone at `e` hides every position of its edge written up to `e`, and no other edge. -/
theorem segVisible_putTombstone (h : t.Bounded e) :
    (t.putTombstone k e).SegVisible k' ↔ k' ≠ k ∧ t.SegVisible k' := by
  by_cases hk : k' = k
  · subst hk
    refine iff_of_false ?_ fun h => h.1 rfl
    rintro ⟨s, ds, hget, -, -, -, hvis⟩
    have hle : s.sequence ≤ e := h.segment_le s (contains_of_get hget)
    rw [putTombstone, get_put_self, segmentEdgeVisible, Option.all_some, decide_eq_true_eq] at hvis
    exact absurd hvis (Nat.not_lt.2 hle)
  · simp [SegVisible, putTombstone, get_put_of_ne hk, hk]

theorem visible_putTombstone_of_ne (h : k' ≠ k) :
    (t.putTombstone k e).Visible k' ↔ t.Visible k' := by
  simp only [Visible, SegVisible, putTombstone, get_put_of_ne h]
  rfl

theorem visible_putTombstone (h : t.Bounded e) (hd : ¬ t.Direct k) :
    (t.putTombstone k e).Visible k' ↔ k' ≠ k ∧ t.Visible k' := by
  rw [Visible, direct_putTombstone, segVisible_putTombstone h, Visible]
  by_cases hk : k' = k
  · subst hk; simp [hd]
  · simp [hk]

/-- The edges a segment holds. -/
def SegmentHolds (s : SegmentKey) (ds : List VertexId) (k : EdgeKey) : Prop :=
  k.edgeType = s.edgeType ∧ k.src = s.src ∧ k.dst ∈ ds

/-- A new segment shows its destinations. Taking back their tombstones shows nothing else. -/
theorem segVisible_appendSegment (hfresh : t.outSegments.get s = none) :
    (t.appendSegment s ds).SegVisible k' ↔ SegmentHolds s ds k' ∨ t.SegVisible k' := by
  by_cases hin : SegmentHolds s ds k'
  · refine iff_of_true ?_ (.inl hin)
    obtain ⟨ty, src, dst⟩ := k'
    obtain ⟨rfl, rfl, hmem⟩ := hin
    refine ⟨s, ds, get_put_self, rfl, rfl, hmem, ?_⟩
    rw [appendSegment, get_delAll, if_pos (List.mem_map_of_mem hmem)]
    rfl
  have htomb : (t.appendSegment s ds).tombstones.get k' = t.tombstones.get k' := by
    rw [appendSegment, get_delAll, if_neg]
    rintro hk
    obtain ⟨d, hd, rfl⟩ := List.mem_map.1 hk
    exact hin ⟨rfl, rfl, hd⟩
  rw [or_iff_right hin, SegVisible, SegVisible, htomb]
  refine exists_congr fun s' => exists_congr fun ds' => ?_
  rw [appendSegment, get_put]
  split
  · next h =>
    subst h
    refine iff_of_false ?_ ?_
    · rintro ⟨⟨⟩, hty, hsrc, hmem, -⟩
      exact hin ⟨hty.symm, hsrc.symm, hmem⟩
    · rintro ⟨hget, -⟩
      exact Option.some_ne_none _ (hget.symm.trans hfresh)
  · rfl

theorem visible_appendSegment (hfresh : t.outSegments.get s = none) :
    (t.appendSegment s ds).Visible k' ↔ SegmentHolds s ds k' ∨ t.Visible k' := by
  rw [Visible, segVisible_appendSegment hfresh, Visible, or_left_comm]
  rfl

end

end Topology

end HydraDb
