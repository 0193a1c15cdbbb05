import HydraDb.Index.Build
import HydraDb.Invariant.Draft

/-!
# The tail of the write-ahead log

A read at a snapshot newer than the published index overlays the edges that changed since
(`topology_tail_since`, `shard/topology_tail.rs`). The collector walks the log files after the
position of the index, takes the pairs that direct keys, tombstone keys and written segments name,
and reads each pair at the snapshot.

A deleted segment names no pair, and an overwritten one names only its new destinations. So the
overlay is complete for batches in which an edge of such a segment stays visible or is named by
another key (`Topology.Covers`). The batches of the modelled mutations are such
(`Committed.covers`).
-/

namespace HydraDb

open OrdMap List

variable {n : StorageSequence}

/-! ## Writes -/

/-- A write of a batch to a key that the collector reads. -/
inductive TopologyWrite where
  | putEdge (k : EdgeKey)
  | deleteEdge (k : EdgeKey)
  | putSegment (s : SegmentKey) (destinations : List VertexId)
  | deleteSegment (s : SegmentKey)
  | putTombstone (k : EdgeKey) (epoch : StorageSequence)
  | deleteTombstone (k : EdgeKey)

namespace TopologyWrite

/-- The edges that an entry names (`collect_wal_topology_entry`): a deleted segment has no value to
decode. -/
def edges : TopologyWrite → List EdgeKey
  | putEdge k | deleteEdge k | putTombstone k _ | deleteTombstone k => [k]
  | putSegment s destinations => destinations.map fun dst => ⟨s.edgeType, s.src, dst⟩
  | deleteSegment _ => []

/-- What is written is not stamped later than its batch. -/
def Stamped (sequence : StorageSequence) : TopologyWrite → Prop
  | putSegment s _ => s.sequence ≤ sequence
  | putTombstone _ epoch => epoch ≤ sequence
  | putEdge _ | deleteEdge _ | deleteSegment _ | deleteTombstone _ => True

/-- The segment that the write takes away or replaces. -/
def dropped : TopologyWrite → Option SegmentKey
  | putSegment s _ | deleteSegment s => some s
  | putEdge _ | deleteEdge _ | putTombstone _ _ | deleteTombstone _ => none

end TopologyWrite

namespace Topology

/-- The effect of one write. -/
def write (t : Topology) : TopologyWrite → Topology
  | .putEdge k => { t with outEdges := t.outEdges.put k () }
  | .deleteEdge k => { t with outEdges := t.outEdges.del k }
  | .putSegment s destinations => { t with outSegments := t.outSegments.put s destinations }
  | .deleteSegment s => { t with outSegments := t.outSegments.del s }
  | .putTombstone k epoch => { t with tombstones := t.tombstones.put k epoch }
  | .deleteTombstone k => { t with tombstones := t.tombstones.del k }

/-- The effect of a batch. -/
def writeAll (t : Topology) (ws : List TopologyWrite) : Topology := ws.foldl write t

/-- Some write of the batch names the edge. -/
def Named (ws : List TopologyWrite) (k : EdgeKey) : Prop := ∃ w ∈ ws, k ∈ w.edges

/-- An edge of a segment that the batch takes away or replaces stays visible, or is named. -/
def Covers (t : Topology) (ws : List TopologyWrite) : Prop :=
  ∀ w ∈ ws, ∀ s, w.dropped = some s → ∀ destinations, t.outSegments.get s = some destinations →
    ∀ dst ∈ destinations, t.Visible ⟨s.edgeType, s.src, dst⟩ →
      (t.writeAll ws).Visible ⟨s.edgeType, s.src, dst⟩ ∨ Named ws ⟨s.edgeType, s.src, dst⟩

variable {t t' : Topology} {ws : List TopologyWrite} {k : EdgeKey}

/-- The keys of an edge that no write names are as they were. -/
theorem get_writeAll_of_not_named (h : ¬ Named ws k) :
    (t.writeAll ws).outEdges.get k = t.outEdges.get k ∧
      (t.writeAll ws).tombstones.get k = t.tombstones.get k := by
  refine foldl_invariant (P := fun t' : Topology => t'.outEdges.get k = t.outEdges.get k ∧
    t'.tombstones.get k = t.tombstones.get k) ⟨rfl, rfl⟩ fun w hw t' ih => ?_
  have hnot : k ∉ w.edges := fun hk => h ⟨w, hw, hk⟩
  cases w with
  | putEdge k' | deleteEdge k' | putTombstone k' epoch | deleteTombstone k' =>
    have hne : k ≠ k' := fun heq => hnot (heq ▸ mem_singleton_self k)
    simp only [write, get_put_of_ne hne, get_del_of_ne hne]
    exact ih
  | putSegment s ds | deleteSegment s => exact ih

/-- A segment that no write of the batch takes away or replaces is as it was. -/
theorem get_outSegments_writeAll (h : ∀ w ∈ ws, w.dropped ≠ some s) :
    (t.writeAll ws).outSegments.get s = t.outSegments.get s := by
  refine foldl_invariant (P := fun t' : Topology =>
    t'.outSegments.get s = t.outSegments.get s) rfl fun w hw t' ih => ?_
  have hnot := h w hw
  cases w with
  | putSegment s' ds | deleteSegment s' =>
    have hne : s ≠ s' := fun heq => hnot (congrArg some heq.symm)
    simp only [write, get_put_of_ne hne, get_del_of_ne hne]
    exact ih
  | putEdge | deleteEdge | putTombstone | deleteTombstone => exact ih

/-- A segment of the batch's result that holds an edge was there before, or names the edge. -/
theorem get_outSegments_of_writeAll (hget : (t.writeAll ws).outSegments.get s = some ds)
    (hdst : dst ∈ ds) : t.outSegments.get s = some ds ∨ Named ws ⟨s.edgeType, s.src, dst⟩ := by
  have key : ∀ ws (t : Topology),
      (t.writeAll ws).outSegments.get s = some ds →
      t.outSegments.get s = some ds ∨ Named ws ⟨s.edgeType, s.src, dst⟩ := by
    intro ws
    induction ws with
    | nil => exact fun t h => .inl h
    | cons w ws ih =>
      intro t h
      rcases ih (t.write w) h with hold | ⟨w', hw', hnamed⟩
      · cases w with
        | putSegment =>
          simp only [write, get_put] at hold
          split at hold
          · next heq =>
            cases hold
            subst heq
            exact .inr ⟨_, mem_cons_self, mem_map_of_mem hdst⟩
          · exact .inl hold
        | deleteSegment =>
          simp only [write, get_del] at hold
          replace hold := rest_of_ne hold nofun
          exact .inl hold
        | putEdge | deleteEdge | putTombstone | deleteTombstone => exact .inl hold
      · exact .inr ⟨w', mem_cons_of_mem _ hw', hnamed⟩
  exact key ws t hget

/-- A covering batch names every edge whose visibility it changes. -/
theorem visible_writeAll (h : t.Covers ws) :
    ((t.writeAll ws).Visible k ↔ t.Visible k) ∨ Named ws k := by
  by_cases hnamed : Named ws k
  · exact .inr hnamed
  obtain ⟨hdirect, htomb⟩ := get_writeAll_of_not_named hnamed
  have hdirect : (t.writeAll ws).Direct k ↔ t.Direct k := by
    rw [Direct, Direct, OrdMap.contains, OrdMap.contains, hdirect]
  refine .inl ⟨?_, fun hvisible => ?_⟩
  · rintro (hd | ⟨s, ds, hget, hty, hsrc, hdst, hvis⟩)
    · exact .inl (hdirect.1 hd)
    obtain ⟨ty, src, dst⟩ := k
    obtain rfl : s.edgeType = ty := hty
    obtain rfl : s.src = src := hsrc
    have hold := (get_outSegments_of_writeAll hget hdst).resolve_right hnamed
    exact .inr ⟨s, ds, hold, rfl, rfl, hdst, htomb ▸ hvis⟩
  · rcases hvisible with hd | ⟨s, ds, hget, hty, hsrc, hdst, hvis⟩
    · exact .inl (hdirect.2 hd)
    obtain ⟨ty, src, dst⟩ := k
    obtain rfl : s.edgeType = ty := hty
    obtain rfl : s.src = src := hsrc
    by_cases hdropped : ∃ w ∈ ws, w.dropped = some s
    · obtain ⟨w, hw, hdropped⟩ := hdropped
      refine (h w hw s hdropped ds hget dst hdst ?_).resolve_right hnamed
      exact .inr ⟨s, ds, hget, rfl, rfl, hdst, hvis⟩
    · refine .inr ⟨s, ds, ?_, rfl, rfl, hdst, htomb.symm ▸ hvis⟩
      rwa [get_outSegments_writeAll fun w hw hs => hdropped ⟨w, hw, hs⟩]

/-- A batch that names every edge it hides covers. -/
theorem Covers.of_visible (h : ∀ k, t.Visible k → (t.writeAll ws).Visible k ∨ Named ws k) :
    t.Covers ws :=
  fun _ _ _ _ _ _ _ _ hvisible => h _ hvisible

theorem Bounded.writeAll (h : t.Bounded n) (stamped : ∀ w ∈ ws, w.Stamped n) :
    (t.writeAll ws).Bounded n := by
  refine foldl_invariant (P := fun t' : Topology => t'.Bounded n) h fun w hw t' ih => ?_
  have hstamped := stamped w hw
  cases w with
  | putEdge | deleteEdge => exact ⟨ih.segment_le, ih.tombstone_le⟩
  | putSegment =>
    refine ⟨fun s' hs' => ?_, ih.tombstone_le⟩
    rcases contains_put.1 hs' with rfl | hs'
    · exact hstamped
    · exact ih.segment_le s' hs'
  | deleteSegment =>
    exact ⟨fun s' hs' => ih.segment_le s' (contains_del.1 hs').2, ih.tombstone_le⟩
  | putTombstone => exact ⟨ih.segment_le, forall_get_put ih.tombstone_le hstamped⟩
  | deleteTombstone =>
    exact ⟨ih.segment_le, fun k' τ hk' => ih.tombstone_le k' τ (within_del _ _ hk')⟩

end Topology

/-! ## The collector -/

/-- An entry of a log file, at a key of a cell. -/
structure WalRecord where
  cellId : CellId
  seq : StorageSequence
  write : TopologyWrite

/-- `WalTopologyEntry`. Keys are typed here, so an entry always decodes. -/
structure WalTopologyEntry where
  cellId : CellId
  edgeType : EdgeType
  seq : StorageSequence
  src : VertexId
  dst : VertexId

/-- `collect_wal_topology_entry`. -/
def collectWalTopologyEntry (r : WalRecord) : List WalTopologyEntry :=
  r.write.edges.map fun k => ⟨r.cellId, k.edgeType, r.seq, k.src, k.dst⟩

/-- `WalTopologyEntry::affected_edge_for`. -/
def WalTopologyEntry.affectedEdgeFor (entry : WalTopologyEntry) (generation : GraphIndexGeneration)
    (readSequence : StorageSequence) : Option EdgeKey :=
  if entry.seq ≤ generation.baseSequence ∨ entry.seq > readSequence ∨
      entry.cellId ≠ generation.cellId ∨ entry.edgeType ≠ generation.edgeType then none
  else some ⟨entry.edgeType, entry.src, entry.dst⟩

/-- `GraphTopologyTail`. -/
inductive GraphTopologyTail where
  | complete (overlay : GraphTopologyOverlay)
  | unavailable

/-- The loop that collects the affected edges, under the scan limit. -/
def collectAffected (limits : GraphLimits) (generation : GraphIndexGeneration)
    (readSequence : StorageSequence) (affected : OrdMap EdgeKey Unit) (entry : WalTopologyEntry) :
    Except GraphError (OrdMap EdgeKey Unit) :=
  match entry.affectedEdgeFor generation readSequence with
  | none => .ok affected
  | some k => do
    ensureLimit "graph_index_wal_affected_edges" (affected.put k ()).entries.length
      limits.maxQueryScanEdges
    return affected.put k ()

/-- `edge_exists_in_storage_snapshot` (`shard/query.rs`). -/
def edgeExistsInStorageSnapshot (t : Topology) (k : EdgeKey) (sequence : StorageSequence) : Bool :=
  t.outEdges.contains k || (t.outSegmentEdgeRecordAt k sequence).isSome

/-- `topology_tail_since`, at the snapshot `t` with sequence `snapshotSequence`. A log file that
cannot be read is `none`. -/
def topologyTailSince (limits : GraphLimits) (generation : GraphIndexGeneration)
    (snapshotSequence : StorageSequence) (t : Topology) (readSequence : StorageSequence)
    (lastDurableWalId : Nat) (wal : Nat → Option (List WalRecord)) :
    Except GraphError GraphTopologyTail :=
  if snapshotSequence ≠ readSequence then .ok .unavailable
  else if generation.baseSequence ≥ readSequence then .ok (.complete .empty)
  else if generation.lastWalId.toNat ≥ lastDurableWalId then .ok (.complete .empty)
  else if lastDurableWalId - generation.lastWalId.toNat > limits.maxWalTailFiles then
    .ok .unavailable
  else
    match (range' (generation.lastWalId.toNat + 1)
        (lastDurableWalId - generation.lastWalId.toNat)).mapM wal with
    | none => .ok .unavailable
    | some files => do
      let affected ← (files.flatten.flatMap collectWalTopologyEntry).foldlM
        (collectAffected limits generation readSequence) ∅
      return .complete (affected.keys.foldl (fun overlay k =>
        overlay.set k.src k.dst (edgeExistsInStorageSnapshot t k readSequence)) .empty)

section

variable {limits : GraphLimits} {generation : GraphIndexGeneration} {t : Topology}
  {readSequence : StorageSequence} {lastDurableWalId : Nat} {wal : Nat → Option (List WalRecord)}
  {overlay : GraphTopologyOverlay}

theorem edgeExistsInStorageSnapshot_iff (bounded : t.Bounded readSequence) :
    edgeExistsInStorageSnapshot t k readSequence = true ↔ t.Visible k := by
  rw [edgeExistsInStorageSnapshot, Bool.or_eq_true, Topology.isSome_outSegmentEdgeRecordAt bounded]
  rfl

/-- Reading a list of edges of one type leaves the answer for each of them. -/
theorem state_foldl_set_edges (f : EdgeKey → Bool) (edgeType : EdgeType) (ks : List EdgeKey)
    (hks : ∀ k ∈ ks, k.edgeType = edgeType) (o : GraphTopologyOverlay) (src dst : VertexId) :
    (ks.foldl (fun o k => o.set k.src k.dst (f k)) o).state src dst =
      if ⟨edgeType, src, dst⟩ ∈ ks then some (f ⟨edgeType, src, dst⟩)
      else o.state src dst := by
  induction ks generalizing o with
  | nil => rfl
  | cons k ks ih =>
    rw [foldl_cons, ih (fun x hx => hks x (mem_cons_of_mem _ hx)), GraphTopologyOverlay.state_set]
    have hty := hks k mem_cons_self
    obtain ⟨ty, s, d⟩ := k
    obtain rfl : ty = edgeType := hty
    by_cases hin : ⟨ty, src, dst⟩ ∈ ks
    · rw [if_pos hin, if_pos (mem_cons_of_mem _ hin)]
    rw [if_neg hin]
    by_cases hk : src = s ∧ dst = d
    · obtain ⟨rfl, rfl⟩ := hk
      rw [if_pos ⟨rfl, rfl⟩, if_pos mem_cons_self]
    · rw [if_neg hk, if_neg]
      simp only [mem_cons, EdgeKey.mk.injEq, true_and, not_or]
      exact ⟨hk, hin⟩

theorem contains_collectAffected
    (h : collectAffected limits generation readSequence affected entry = .ok affected')
    (k : EdgeKey) :
    affected'.contains k = true ↔
      entry.affectedEdgeFor generation readSequence = some k ∨ affected.contains k = true := by
  unfold collectAffected at h
  split at h
  · next hnone =>
    cases h
    simp [hnone]
  next k' hsome =>
  replace h := seq_ok h
  cases h
  rw [contains_put, hsome, Option.some.injEq, eq_comm]

/-- A total read of a list finds something at each of its elements. -/
theorem exists_of_mapM {l : List α} {l' : List β} (h : l.mapM f = some l') (ha : a ∈ l) :
    ∃ b ∈ l', f a = some b := by
  induction l generalizing l' with
  | nil => cases ha
  | cons x l ih =>
    rw [mapM_cons] at h
    obtain ⟨y, hy, h⟩ := Option.bind_eq_some_iff.1 h
    obtain ⟨ys, hys, h⟩ := Option.bind_eq_some_iff.1 h
    cases h
    rcases mem_cons.1 ha with rfl | ha
    · exact ⟨y, mem_cons_self, hy⟩
    · obtain ⟨b, hb, hab⟩ := ih hys ha
      exact ⟨b, mem_cons_of_mem _ hb, hab⟩

/-- What a complete tail says: of an edge in the overlay whether it is visible at the snapshot, and
every edge that an entry of the range names, in a file that holds it if it can be read, is in the
overlay. -/
theorem topologyTailSince_ok (bounded : t.Bounded readSequence)
    (h : topologyTailSince limits generation readSequence t readSequence lastDurableWalId wal =
      .ok (.complete overlay)) :
    (∀ src dst present, overlay.state src dst = some present →
      (present = true ↔ t.Visible ⟨generation.edgeType, src, dst⟩)) ∧
    ∀ id r, generation.lastWalId.toNat < id → id ≤ lastDurableWalId →
      (∀ file, wal id = some file → r ∈ file) →
      generation.baseSequence < r.seq → r.seq ≤ readSequence →
      r.cellId = generation.cellId → ∀ k ∈ r.write.edges, k.edgeType = generation.edgeType →
      overlay.state k.src k.dst ≠ none := by
  unfold topologyTailSince at h
  rw [if_neg (not_not.2 rfl)] at h
  split at h
  · next hbase =>
    cases h
    refine ⟨nofun, fun id r _ _ _ hlt hle => ?_⟩
    exact absurd (hlt.trans_le (hle.trans hbase)) (lt_irrefl _)
  split at h
  · next hwal =>
    cases h
    refine ⟨nofun, fun id r hlt hle => ?_⟩
    exact absurd (hlt.trans_le (hle.trans hwal)) (lt_irrefl _)
  replace h := rest_of_ne h nofun
  split at h
  · cases h
  next files hfiles =>
  obtain ⟨affected, haffected, h⟩ := bind_ok h
  cases h
  have hcontains := fun k => foldlM_ok_collects haffected
    (fun entry _ _ _ hstep => contains_collectAffected hstep) k
  have htype : ∀ k ∈ affected.keys, k.edgeType = generation.edgeType := by
    intro k hk
    rcases (hcontains k).1 (mem_keys_iff_contains.1 hk) with ⟨entry, -, hentry⟩ | hk
    · obtain ⟨hnot, hentry⟩ := else_of_ne hentry nofun
      cases hentry
      simp only [not_or, not_not] at hnot
      exact hnot.2.2.2
    · cases hk
  have hstate := state_foldl_set_edges
    (fun k => edgeExistsInStorageSnapshot t k readSequence) generation.edgeType
    affected.keys htype .empty
  refine ⟨fun src dst present hpresent => ?_, ?_⟩
  · rw [hstate] at hpresent
    replace hpresent := (then_of_ne hpresent nofun).2
    cases hpresent
    exact edgeExistsInStorageSnapshot_iff bounded
  intro id r hlt hle hr hseq hseq' hcell k hk hty
  have hid : id ∈ range' (generation.lastWalId.toNat + 1)
      (lastDurableWalId - generation.lastWalId.toNat) := by
    rw [mem_range'_1]
    omega
  obtain ⟨file, hmem, hfile⟩ := exists_of_mapM hfiles hid
  have hentry : ⟨r.cellId, k.edgeType, r.seq, k.src, k.dst⟩ ∈
      files.flatten.flatMap collectWalTopologyEntry :=
    mem_flatMap.2 ⟨r, mem_flatten.2 ⟨file, hmem, hr file hfile⟩, mem_map.2 ⟨k, hk, rfl⟩⟩
  have hkey : k ∈ affected.keys := by
    refine mem_keys_iff_contains.2 ((hcontains k).2 (.inl ⟨_, hentry, ?_⟩))
    rw [WalTopologyEntry.affectedEdgeFor, if_neg]
    simp only [not_or, not_not, hcell, hty, and_true]
    exact ⟨Nat.not_le.2 hseq, Nat.not_lt.2 hseq'⟩
  rw [hstate, if_pos (by rwa [← hty])]
  exact Option.some_ne_none _

end

/-! ## Runs of batches -/

/-- The writes of a batch to the keys of a cell. -/
def batchOf (cellId : CellId) (batch : List (CellId × TopologyWrite)) : List TopologyWrite :=
  (batch.filter fun w => w.1 = cellId).map Prod.snd

/-- The adjacency of a cell along a run of committed batches, numbered by their sequences. -/
structure BatchRun (cellId : CellId) (base read : StorageSequence)
    (batches : StorageSequence → List (CellId × TopologyWrite))
    (history : StorageSequence → Topology) : Prop where
  le : base ≤ read
  bounded : (history base).Bounded base
  step : ∀ n, base ≤ n → n < read →
    history (n + 1) = (history n).writeAll (batchOf cellId (batches (n + 1)))
  stamped : ∀ n, base ≤ n → n < read → ∀ w ∈ batchOf cellId (batches (n + 1)), w.Stamped (n + 1)

namespace BatchRun

variable {cellId : CellId} {base read : StorageSequence}
  {batches : StorageSequence → List (CellId × TopologyWrite)}
  {history : StorageSequence → Topology}

theorem bounded_at (h : BatchRun cellId base read batches history) (hbase : base ≤ n)
    (hread : n ≤ read) : (history n).Bounded n := by
  induction n, hbase using Nat.le_induction with
  | base => exact h.bounded
  | succ n hbase ih =>
    rw [h.step n hbase hread]
    exact ((ih (Nat.le_of_succ_le hread)).mono (Nat.le_succ n)).writeAll (h.stamped n hbase hread)

/-- Along a run of covering batches, an edge is as it was at the base, or some batch names it. -/
theorem visible_at (h : BatchRun cellId base read batches history)
    (covers : ∀ n, base ≤ n → n < read → (history n).Covers (batchOf cellId (batches (n + 1))))
    (hbase : base ≤ n) (hread : n ≤ read) :
    ((history n).Visible k ↔ (history base).Visible k) ∨
      ∃ m, base < m ∧ m ≤ n ∧ Topology.Named (batchOf cellId (batches m)) k := by
  induction n, hbase using Nat.le_induction with
  | base => exact .inl Iff.rfl
  | succ n hbase ih =>
    rcases ih (Nat.le_of_succ_le hread) with hsame | ⟨m, hm, hle, hnamed⟩
    · rw [h.step n hbase hread]
      rcases Topology.visible_writeAll (covers n hbase hread) with hstep | hnamed
      · exact .inl (hstep.trans hsame)
      · exact .inr ⟨n + 1, Nat.lt_succ_of_le hbase, le_refl _, hnamed⟩
    · exact .inr ⟨m, hm, hle.trans (Nat.le_succ n), hnamed⟩

end BatchRun

/-- The overlay of the log's tail is complete along every run whose batches cover: an edge whose
visibility differs from that at the base of the generation is in the overlay, and the adjacency at
the base, patched by the overlay, is the adjacency at the snapshot. -/
theorem patch_topologyTail_eq {limits : GraphLimits} {generation : GraphIndexGeneration}
    {readSequence : StorageSequence} {lastDurableWalId : Nat}
    {wal : Nat → Option (List WalRecord)} {overlay : GraphTopologyOverlay}
    {batches : StorageSequence → List (CellId × TopologyWrite)}
    {history : StorageSequence → Topology}
    (run : BatchRun generation.cellId generation.baseSequence readSequence batches history)
    (covers : ∀ n, generation.baseSequence ≤ n → n < readSequence →
      (history n).Covers (batchOf generation.cellId (batches (n + 1))))
    (logged : ∀ n, generation.baseSequence < n → n ≤ readSequence → ∀ w ∈ batches n,
      ∃ id file, generation.lastWalId.toNat < id ∧ id ≤ lastDurableWalId ∧ wal id = some file ∧
        ⟨w.1, n, w.2⟩ ∈ file)
    (h : topologyTailSince limits generation readSequence (history readSequence) readSequence
      lastDurableWalId wal = .ok (.complete overlay)) :
    (∀ k : EdgeKey, k.edgeType = generation.edgeType →
      ¬ ((history readSequence).Visible k ↔ (history generation.baseSequence).Visible k) →
      overlay.state k.src k.dst ≠ none) ∧
    ∀ limits limits' a a',
      canonicalAdjacencyAt limits (history generation.baseSequence) generation.edgeType
        generation.baseSequence = .ok a →
      canonicalAdjacencyAt limits' (history readSequence) generation.edgeType readSequence =
        .ok a' →
      a.patch overlay = a' := by
  have bounded := run.bounded_at run.le (le_refl _)
  obtain ⟨hstate, hnamed⟩ := topologyTailSince_ok bounded h
  have affected : ∀ k, k.edgeType = generation.edgeType →
      ¬ ((history readSequence).Visible k ↔ (history generation.baseSequence).Visible k) →
      overlay.state k.src k.dst ≠ none := by
    intro k hty hchanged
    obtain ⟨m, hm, hle, w, hw, hk⟩ :=
      (run.visible_at covers run.le (le_refl _)).resolve_left hchanged
    obtain ⟨⟨cellId, w⟩, hfilter, rfl⟩ := mem_map.1 hw
    obtain ⟨hbatch, hcell⟩ := mem_filter.1 hfilter
    obtain ⟨id, file, hlt, hid, hfile, hr⟩ := logged m hm hle _ hbatch
    refine hnamed id ⟨cellId, m, w⟩ hlt hid (fun file' hfile' => ?_) hm hle
      (of_decide_eq_true hcell) k hk hty
    exact Option.some.inj (hfile.symm.trans hfile') ▸ hr
  refine ⟨affected, fun limits limits' a a' ha ha' => ?_⟩
  obtain ⟨hcompact, hedges⟩ := canonicalAdjacencyAt_ok run.bounded ha
  obtain ⟨hcompact', hedges'⟩ := canonicalAdjacencyAt_ok bounded ha'
  refine MatrixAdjacency.ext_hasEdge (MatrixAdjacency.compact_patch hcompact) hcompact' ?_
  intro src dst
  rw [MatrixAdjacency.hasEdge_patch, hedges, hedges']
  cases hsd : overlay.state src dst with
  | some present => exact hstate src dst present hsd
  | none =>
    by_contra hchanged
    exact affected ⟨generation.edgeType, src, dst⟩ rfl (fun hsame => hchanged hsame.symm) hsd

/-! ## One batch -/

/-- A segment at the base of a generation. -/
def tailBase : Topology := Topology.empty.writeAll [.putSegment ⟨"T", 1, 1, "s"⟩ [2]]

def tailGeneration : GraphIndexGeneration := ⟨"c", "T", 1, 0, 1, 0, "g"⟩

/-- One write, committed at sequence 2. -/
def oneBatch (w : TopologyWrite) : StorageSequence → List (CellId × TopologyWrite) :=
  fun n => if n = 2 then [("c", w)] else []

def oneHistory (w : TopologyWrite) : StorageSequence → Topology :=
  fun n => if n ≤ 1 then tailBase else tailBase.write w

def oneFile (w : TopologyWrite) : Nat → Option (List WalRecord) :=
  fun id => if id = 1 then some [⟨"c", 2, w⟩] else none

theorem batchRun_oneBatch (h : w.Stamped 2) : BatchRun "c" 1 2 (oneBatch w) (oneHistory w) where
  le := by decide
  bounded := Topology.Bounded.writeAll ⟨nofun, nofun⟩ fun w hw => mem_singleton.1 hw ▸ le_refl 1
  step n hbase hread := by
    obtain rfl : n = 1 := le_antisymm (Nat.le_of_lt_succ hread) hbase
    rfl
  stamped n hbase hread w' hw' := by
    obtain rfl : n = 1 := le_antisymm (Nat.le_of_lt_succ hread) hbase
    rwa [mem_singleton.1 hw']

theorem logged_oneBatch : ∀ n, 1 < n → n ≤ 2 → ∀ w' ∈ oneBatch w n,
    ∃ id file, 0 < id ∧ id ≤ 1 ∧ oneFile w id = some file ∧ ⟨w'.1, n, w'.2⟩ ∈ file := by
  intro n hlt hle w' hw'
  obtain rfl : n = 2 := le_antisymm hle hlt
  rw [mem_singleton.1 hw']
  exact ⟨1, _, Nat.one_pos, le_refl 1, rfl, mem_singleton_self _⟩

theorem patch_topologyTail_eq_tombstone :
    topologyTailSince .default tailGeneration 2 (oneHistory (.putTombstone ⟨"T", 1, 2⟩ 2) 2) 2 1
        (oneFile (.putTombstone ⟨"T", 1, 2⟩ 2)) =
          .ok (.complete (GraphTopologyOverlay.empty.set 1 2 false)) ∧
      MatrixAdjacency.patch ((∅ : MatrixAdjacency).put 1 (addAll ∅ [2]))
        (GraphTopologyOverlay.empty.set 1 2 false) = ∅ := by
  have run : BatchRun tailGeneration.cellId tailGeneration.baseSequence 2
      (oneBatch (.putTombstone ⟨"T", 1, 2⟩ 2)) (oneHistory (.putTombstone ⟨"T", 1, 2⟩ 2)) :=
    batchRun_oneBatch (le_refl 2)
  have covers : ∀ n, 1 ≤ n → n < 2 → (oneHistory (.putTombstone ⟨"T", 1, 2⟩ 2) n).Covers
      (batchOf "c" (oneBatch (.putTombstone ⟨"T", 1, 2⟩ 2) (n + 1))) := by
    intro n hbase hread w hw s hs
    obtain rfl : n = 1 := le_antisymm (Nat.le_of_lt_succ hread) hbase
    rw [mem_singleton.1 hw] at hs
    cases hs
  have tail : topologyTailSince .default tailGeneration 2
      (oneHistory (.putTombstone ⟨"T", 1, 2⟩ 2) 2) 2 1 (oneFile (.putTombstone ⟨"T", 1, 2⟩ 2)) =
        .ok (.complete (GraphTopologyOverlay.empty.set 1 2 false)) := rfl
  have hbase : canonicalAdjacencyAt .default (oneHistory (.putTombstone ⟨"T", 1, 2⟩ 2) 1) "T" 1 =
      .ok ((∅ : MatrixAdjacency).put 1 (addAll ∅ [2])) := by decide +kernel
  have hread : canonicalAdjacencyAt .default (oneHistory (.putTombstone ⟨"T", 1, 2⟩ 2) 2) "T" 2 =
      .ok ∅ := by decide +kernel
  exact ⟨tail, (patch_topologyTail_eq run covers logged_oneBatch tail).2 _ _ _ _ hbase hread⟩

/-- A batch that only deletes a segment names no edge: the overlay is empty, and the patched
adjacency keeps the edges of the segment. -/
theorem patch_topologyTail_ne_of_segment_delete :
    BatchRun "c" 1 2 (oneBatch (.deleteSegment ⟨"T", 1, 1, "s"⟩))
        (oneHistory (.deleteSegment ⟨"T", 1, 1, "s"⟩)) ∧
      (∀ n, 1 < n → n ≤ 2 → ∀ w ∈ oneBatch (.deleteSegment ⟨"T", 1, 1, "s"⟩) n,
        ∃ id file, 0 < id ∧ id ≤ 1 ∧ oneFile (.deleteSegment ⟨"T", 1, 1, "s"⟩) id = some file ∧
          ⟨w.1, n, w.2⟩ ∈ file) ∧
      ∃ overlay a a', topologyTailSince .default tailGeneration 2
          (oneHistory (.deleteSegment ⟨"T", 1, 1, "s"⟩) 2) 2 1
          (oneFile (.deleteSegment ⟨"T", 1, 1, "s"⟩)) = .ok (.complete overlay) ∧
        canonicalAdjacencyAt .default (oneHistory (.deleteSegment ⟨"T", 1, 1, "s"⟩) 1) "T" 1 =
          .ok a ∧
        canonicalAdjacencyAt .default (oneHistory (.deleteSegment ⟨"T", 1, 1, "s"⟩) 2) "T" 2 =
          .ok a' ∧
        a.patch overlay ≠ a' := by
  refine ⟨batchRun_oneBatch trivial, logged_oneBatch, .empty,
    (∅ : MatrixAdjacency).put 1 (addAll ∅ [2]), ∅, rfl, ?_, ?_, ?_⟩
  · decide +kernel
  · decide +kernel
  · decide +kernel

/-! ## The transactions of the store -/

/-- The keys that decide which edges are visible. -/
def Topology.SameAdjacency (t t' : Topology) : Prop :=
  t.outEdges = t'.outEdges ∧ t.outSegments = t'.outSegments ∧ t.tombstones = t'.tombstones

instance : Decidable (Topology.SameAdjacency t t') := instDecidableAnd

section

variable {t t' : Topology} {ws : List TopologyWrite}

theorem Topology.SameAdjacency.visible (h : t.SameAdjacency t') (k : EdgeKey) :
    t.Visible k ↔ t'.Visible k := by
  rw [Visible, Visible, Direct, Direct, SegVisible, SegVisible, h.1, h.2.1, h.2.2]

/-- A transaction hides an edge of a segment only by a tombstone stamped with its own sequence. -/
theorem Step.segVisible_or_hidden (h : Step F g e d d')
    (hk : d.cell.topology.SegVisible k ∨ d.cell.topology.tombstones.get k = some e) :
    d'.cell.topology.SegVisible k ∨ d'.cell.topology.tombstones.get k = some e := by
  cases h with
  | hideEdge k' =>
    by_cases heq : k = k'
    · exact .inr (heq ▸ get_put_self)
    · have hget : (d.cell.topology.tombstones.put k' e).get k = d.cell.topology.tombstones.get k :=
        get_put_of_ne heq
      refine hk.imp ?_ hget.trans
      rintro ⟨s, ds, hs, hty, hsrc, hdst, hvis⟩
      exact ⟨s, ds, hs, hty, hsrc, hdst, (congrArg (segmentEdgeVisible _) hget).trans hvis⟩
  | appendSegment s ds ensured policy current fresh =>
    set new := ds.map fun dst => (⟨s.edgeType, s.src, dst⟩ : EdgeKey)
    have htombs : (d.cell.topology.tombstones.delAll new).get k = _ := get_delAll
    split at htombs
    · next hnew =>
      obtain ⟨dst, hdst, rfl⟩ := mem_map.1 hnew
      exact .inl ⟨s, ds, get_put_self, rfl, rfl, hdst, congrArg (segmentEdgeVisible _) htombs⟩
    · refine hk.imp ?_ htombs.trans
      rintro ⟨s', ds', hs', hty, hsrc, hdst, hvis⟩
      have hne : s' ≠ s := by
        rintro rfl
        exact absurd (fresh.symm.trans hs') nofun
      exact ⟨s', ds', (get_put_of_ne hne).trans hs', hty, hsrc, hdst,
        (congrArg (segmentEdgeVisible _) htombs).trans hvis⟩
  | resegment segments tombstones bounded policy same earlier =>
    rcases hk with hk | hk
    · exact .inl ((same k).2 hk)
    · exact absurd (earlier k e hk) (lt_irrefl e)
  | insertEdge | removeEdge | countOut | countIn | touch | putVertex | ensureVertex | deleteVertex
  | settle | putEdgeMetadata | insertRelationship | replaceRelationship | deleteRelationship
  | countRelationships | putLastId | putMerges | putIdempotency => exact hk

/-- A transaction names every edge that it hides: whatever batch has its effect covers. -/
theorem Committed.covers (bounded : c.topology.Bounded n) (h : Committed F g (n + 1) c c')
    (effect : (c.topology.writeAll ws).SameAdjacency c'.topology) : c.topology.Covers ws := by
  refine .of_visible fun k hk => or_iff_not_imp_right.2 fun hunnamed => ?_
  obtain ⟨hdirect, htomb⟩ := Topology.get_writeAll_of_not_named hunnamed
  rcases hk with hk | hk
  · refine .inl ?_
    rwa [Topology.Direct, OrdMap.contains, hdirect]
  · have hkept := Steps.invariant (P := fun d => d.cell.topology.SegVisible k ∨
      d.cell.topology.tombstones.get k = some (n + 1)) h (.inl hk)
      fun hstep ih => hstep.segVisible_or_hidden ih
    rcases hkept with hk' | hk'
    · exact (effect.visible k).2 (.inr hk')
    · -- nothing was stamped with the sequence before, so the key of the tombstone was written
      rw [effect.2.2, hk'] at htomb
      exact absurd (bounded.tombstone_le k _ htomb.symm) (Nat.not_succ_le_self n)

end

end HydraDb
