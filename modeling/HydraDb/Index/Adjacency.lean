import HydraDb.Store.Changelog

/-!
# The canonical adjacency of an edge type

An index is built from the adjacency of one edge type at a snapshot: the destinations of each source
that has one (`canonical_adjacency_at`, `engine/artifact_build.rs`). The scan walks the direct keys
and then the segments, under the artifact-build limit, and sorts each row. An incremental build
starts from an older adjacency and patches it with the changes logged since
(`build_graph_index_incremental`, `engine/index_store.rs`).
-/

namespace HydraDb

open OrdMap

/-! ## Adjacencies -/

/-- The destinations of each source (`MatrixAdjacency`). -/
abbrev MatrixAdjacency := OrdMap VertexId (OrdMap VertexId Unit)

namespace MatrixAdjacency

/-- The edge is in the adjacency. -/
def HasEdge (a : MatrixAdjacency) (src dst : VertexId) : Prop :=
  ∃ destinations, a.get src = some destinations ∧ destinations.contains dst = true

/-- No source has an empty row. -/
def Compact (a : MatrixAdjacency) : Prop :=
  ∀ src destinations, a.get src = some destinations → ∃ dst, destinations.contains dst = true

variable {a : MatrixAdjacency} {src dst : VertexId}

/-- An adjacency without empty rows is determined by its edges. -/
theorem ext_hasEdge (h : a.Compact) (h' : a'.Compact)
    (same : ∀ src dst, a.HasEdge src dst ↔ a'.HasEdge src dst) : a = a' := by
  have rows : ∀ {a a' : MatrixAdjacency}, a.Compact →
      (∀ src dst, a.HasEdge src dst ↔ a'.HasEdge src dst) →
      ∀ src ds, a.get src = some ds → a'.get src = some ds := by
    intro a a' h same src ds hget
    obtain ⟨dst, hdst⟩ := h src ds hget
    obtain ⟨ds', hget', -⟩ := (same src dst).1 ⟨ds, hget, hdst⟩
    have heq : ds = ds' := by
      refine ext_get fun d => ?_
      have hd : ds.contains d = true ↔ ds'.contains d = true := by
        constructor
        · intro hd
          obtain ⟨x, hx, hxd⟩ := (same src d).1 ⟨ds, hget, hd⟩
          rw [hget'] at hx
          cases hx
          exact hxd
        · intro hd
          obtain ⟨x, hx, hxd⟩ := (same src d).2 ⟨ds', hget', hd⟩
          rw [hget] at hx
          cases hx
          exact hxd
      rw [contains, contains] at hd
      cases hds : ds.get d <;> cases hds' : ds'.get d <;> simp_all
    rw [heq, hget']
  refine ext_get fun src => ?_
  ext ds
  exact ⟨rows h same src ds, rows h' (fun s d => (same s d).symm) src ds⟩

/-! ## Patching -/

/-- One change of the loop in `build_graph_index_incremental`: a removal that empties a row drops
its source. -/
def applyChange (a : MatrixAdjacency) (change : VertexId × VertexId × Bool) : MatrixAdjacency :=
  if change.2.2 then a.put change.1 (((a.get change.1).getD ∅).put change.2.1 ())
  else
    match a.get change.1 with
    | some destinations =>
      let destinations := destinations.del change.2.1
      if destinations.entries.isEmpty then a.del change.1 else a.put change.1 destinations
    | none => a

/-- Apply the changes of an overlay. -/
def patch (a : MatrixAdjacency) (overlay : GraphTopologyOverlay) : MatrixAdjacency :=
  overlay.entries.foldl applyChange a

theorem hasEdge_put :
    HasEdge (a.put s row) src dst ↔
      src = s ∧ row.contains dst = true ∨ src ≠ s ∧ a.HasEdge src dst := by
  unfold HasEdge
  rw [get_put]
  by_cases hs : src = s <;> simp [hs]

theorem hasEdge_del : HasEdge (a.del s) src dst ↔ src ≠ s ∧ a.HasEdge src dst := by
  unfold HasEdge
  rw [get_del]
  by_cases hs : src = s <;> simp [hs]

theorem hasEdge_applyChange :
    HasEdge (a.applyChange c) src dst ↔
      if src = c.1 ∧ dst = c.2.1 then c.2.2 = true else a.HasEdge src dst := by
  obtain ⟨s, d, present⟩ := c
  unfold applyChange
  cases present with
  | true =>
    simp only [if_true]
    rw [hasEdge_put, contains_put]
    by_cases hs : src = s
    · subst hs
      cases hget : a.get src <;> by_cases hd : dst = d <;> simp [HasEdge, hget, hd]
    · simp [hs]
  | false =>
    simp only [Bool.false_eq_true, if_false]
    cases hget : a.get s with
    | none =>
      by_cases hs : src = s
      · subst hs
        simp [HasEdge, hget]
      · simp [hs]
    | some ds =>
      have hrow : ∀ d', (ds.del d).contains d' = true ↔ d' ≠ d ∧ ds.contains d' = true :=
        fun _ => contains_del
      have hedge : a.HasEdge s dst ↔ ds.contains dst = true := by simp [HasEdge, hget]
      dsimp only
      split
      · next hempty =>
        have hnone : ¬ (ds.del d).contains dst = true := by
          rw [OrdMap.contains, OrdMap.get, List.isEmpty_iff.1 hempty]
          exact Bool.false_ne_true
        rw [hasEdge_del]
        rw [hrow] at hnone
        by_cases hs : src = s
        · subst hs
          rw [hedge]
          by_cases hd : dst = d <;> simp_all
        · simp [hs]
      · rw [hasEdge_put, hrow]
        by_cases hs : src = s
        · subst hs
          rw [hedge]
          by_cases hd : dst = d <;> simp
        · simp [hs]

theorem compact_applyChange (h : a.Compact) : Compact (a.applyChange c) := by
  obtain ⟨s, d, present⟩ := c
  unfold applyChange
  split
  · exact forall_get_put h ⟨d, contains_put.2 (.inl rfl)⟩
  split
  · next ds _ =>
    dsimp only
    split
    · intro src row hget
      rw [get_del] at hget
      replace hget := rest_of_ne hget nofun
      exact h src row hget
    · next hempty =>
      obtain ⟨⟨d', u⟩, hmem⟩ := List.exists_mem_of_ne_nil _ fun heq =>
        hempty (List.isEmpty_iff.2 heq)
      exact forall_get_put h ⟨d', contains_of_get (mem_entries.1 hmem)⟩
  · exact h

/-- A patched adjacency has the edges the overlay says, and its own where the overlay says
nothing. -/
theorem hasEdge_patch :
    HasEdge (a.patch overlay) src dst ↔
      (overlay.state src dst).elim (a.HasEdge src dst) fun present => present = true := by
  have loop : ∀ (es : List (VertexId × VertexId × Bool)) a,
      (∀ c ∈ es, overlay.state c.1 c.2.1 = some c.2.2) →
      (HasEdge (es.foldl applyChange a) src dst ↔
        if ∃ present, (src, dst, present) ∈ es then overlay.state src dst = some true
        else a.HasEdge src dst) := by
    intro es
    induction es with
    | nil => simp
    | cons c es ih =>
      intro a hes
      rw [List.foldl_cons, ih _ fun x hx => hes x (List.mem_cons_of_mem _ hx), hasEdge_applyChange]
      obtain ⟨s, d, present⟩ := c
      have hc := hes _ List.mem_cons_self
      by_cases hin : ∃ present, (src, dst, present) ∈ es
      · rw [if_pos hin, if_pos (hin.imp fun _ hx => List.mem_cons_of_mem _ hx)]
      rw [if_neg hin]
      by_cases hk : src = s ∧ dst = d
      · obtain ⟨rfl, rfl⟩ := hk
        have hhead : ∃ p, (src, dst, p) ∈ (src, dst, present) :: es :=
          ⟨present, List.mem_cons_self⟩
        rw [if_pos ⟨rfl, rfl⟩, if_pos hhead, hc, Option.some.injEq]
      · rw [if_neg hk, if_neg]
        rintro ⟨p, hp⟩
        rcases List.mem_cons.1 hp with heq | hp
        · cases heq
          exact hk ⟨rfl, rfl⟩
        · exact hin ⟨p, hp⟩
  rw [patch, loop _ a fun c hc => GraphTopologyOverlay.mem_entries.1 hc]
  simp only [GraphTopologyOverlay.mem_entries]
  cases hstate : overlay.state src dst with
  | none | some => simp

theorem compact_patch (h : a.Compact) : Compact (a.patch overlay) :=
  List.foldl_invariant h fun _ _ _ ha => compact_applyChange ha

end MatrixAdjacency

/-! ## The scan of a snapshot -/

/-- `MatrixRows`, without the count of live edges that only the tile build reads. -/
structure MatrixRows where
  rows : OrdMap VertexId (List VertexId)
  rawEdges : Nat

namespace MatrixRows

def empty : MatrixRows := ⟨∅, 0⟩

/-- `MatrixRows::push`. -/
def push (m : MatrixRows) (src dst : VertexId) : MatrixRows where
  rows := m.rows.put src ((m.rows.get src).getD [] ++ [dst])
  rawEdges := saturatingSucc m.rawEdges

/-- A push and the limit check after it. -/
def pushLimited (limits : GraphLimits) (m : MatrixRows) (src dst : VertexId) :
    Except GraphError MatrixRows := do
  ensureLimit "build_matrix_tiles_edges" (m.push src dst).rawEdges limits.maxArtifactBuildEdges
  return m.push src dst

/-- `MatrixRows::normalize`. -/
def normalize (m : MatrixRows) : MatrixRows :=
  { m with
    rows := m.rows.filterMapValues fun destinations =>
      if (sortDedup destinations).isEmpty then none
      else some (sortDedup destinations) }

/-- The destination is in the row of the source. -/
def Holds (m : MatrixRows) (edge : VertexId × VertexId) : Prop :=
  edge.2 ∈ (m.rows.get edge.1).getD []

theorem holds_pushLimited {m : MatrixRows} (h : m.pushLimited limits src dst = .ok m')
    (edge : VertexId × VertexId) : m'.Holds edge ↔ (src, dst) = edge ∨ m.Holds edge := by
  replace h := seq_ok h
  cases h
  obtain ⟨s, d⟩ := edge
  simp only [Holds, push, get_put, Prod.mk.injEq]
  by_cases hs : s = src
  · subst hs
    simp [or_comm, eq_comm]
  · simp [hs, Ne.symm hs]

end MatrixRows

/-- The tombstone that `current_out_segment_tombstones` keeps for an edge. -/
def currentOutSegmentTombstone (t : Topology) (baseEpoch : StorageSequence) (k : EdgeKey) :
    Option StorageSequence :=
  (t.tombstones.get k).filter fun epoch => epoch ≤ baseEpoch

/-- One destination of a segment in `current_matrix_rows`. -/
def pushSegmentEdge (limits : GraphLimits) (t : Topology) (baseEpoch : StorageSequence)
    (segment : SegmentKey) (rows : MatrixRows) (dst : VertexId) : Except GraphError MatrixRows :=
  if segmentEdgeVisible segment.sequence
      (currentOutSegmentTombstone t baseEpoch ⟨segment.edgeType, segment.src, dst⟩) then
    rows.pushLimited limits segment.src dst
  else .ok rows

/-- One segment in `current_matrix_rows`. -/
def pushSegment (limits : GraphLimits) (t : Topology) (baseEpoch : StorageSequence)
    (rows : MatrixRows) (segment : SegmentKey × List VertexId) : Except GraphError MatrixRows :=
  if segment.1.sequence > baseEpoch then .ok rows
  else segment.2.foldlM (pushSegmentEdge limits t baseEpoch segment.1) rows

/-- `current_matrix_rows`: the direct keys of the edge type, then its segments. -/
def currentMatrixRows (limits : GraphLimits) (t : Topology) (edgeType : EdgeType)
    (baseEpoch : StorageSequence) : Except GraphError MatrixRows := do
  let rows ← (t.outEdges.scan fun k => k.edgeType = edgeType).foldlM
    (fun (rows : MatrixRows) e => rows.pushLimited limits e.1.src e.1.dst) .empty
  (t.outSegments.scan fun k => k.edgeType = edgeType).foldlM (pushSegment limits t baseEpoch) rows

/-- `canonical_adjacency_at`. -/
def canonicalAdjacencyAt (limits : GraphLimits) (t : Topology) (edgeType : EdgeType)
    (readEpoch : StorageSequence) : Except GraphError MatrixAdjacency := do
  let rows ← currentMatrixRows limits t edgeType readEpoch
  return rows.normalize.rows.mapValues fun destinations => addAll ∅ destinations

section

variable {limits : GraphLimits} {t : Topology} {e : StorageSequence} {edgeType : EdgeType}

theorem holds_pushSegment {segment} (bounded : t.Bounded e)
    (hs : t.outSegments.contains segment.1 = true)
    (h : pushSegment limits t e rows segment = .ok rows') (edge : VertexId × VertexId) :
    rows'.Holds edge ↔ (segment.1.src = edge.1 ∧ edge.2 ∈ segment.2 ∧
      segmentEdgeVisible segment.1.sequence
        (t.tombstones.get ⟨segment.1.edgeType, edge.1, edge.2⟩) = true) ∨ rows.Holds edge := by
  have htomb : ∀ k, currentOutSegmentTombstone t e k = t.tombstones.get k := by
    intro k
    unfold currentOutSegmentTombstone
    cases hk : t.tombstones.get k with
    | none => rfl
    | some τ => simp [bounded.tombstone_le k τ hk]
  unfold pushSegment at h
  rw [if_neg (Nat.not_lt.2 (bounded.segment_le _ hs))] at h
  rw [List.foldlM_ok_collects (R := MatrixRows.Holds) (Q := fun dst edge =>
    segment.1.src = edge.1 ∧ dst = edge.2 ∧ segmentEdgeVisible segment.1.sequence
      (t.tombstones.get ⟨segment.1.edgeType, edge.1, edge.2⟩) = true) h ?_ edge]
  · refine or_congr_left ⟨?_, ?_⟩
    · rintro ⟨dst, hmem, hsrc, rfl, hvis⟩
      exact ⟨hsrc, hmem, hvis⟩
    · rintro ⟨hsrc, hmem, hvis⟩
      exact ⟨edge.2, hmem, hsrc, rfl, hvis⟩
  rintro dst - rows rows' hrow ⟨src', dst'⟩
  unfold pushSegmentEdge at hrow
  rw [htomb] at hrow
  split at hrow
  · next hvis =>
    rw [MatrixRows.holds_pushLimited hrow, Prod.mk.injEq]
    refine or_congr_left ⟨?_, fun hx => ⟨hx.1, hx.2.1⟩⟩
    rintro ⟨rfl, rfl⟩
    exact ⟨rfl, rfl, hvis⟩
  · next hvis =>
    cases hrow
    refine (or_iff_right ?_).symm
    rintro ⟨hsrc, rfl, hx⟩
    exact hvis (hsrc ▸ hx)

/-- The direct keys of an edge type are its direct edges. -/
theorem exists_scan_direct :
    (∃ x ∈ t.outEdges.scan fun k => k.edgeType = edgeType, (x.1.src, x.1.dst) = edge) ↔
      t.Direct ⟨edgeType, edge.1, edge.2⟩ := by
  simp only [Prod.exists, mem_scan, decide_eq_true_eq, Topology.Direct,
    contains_iff, Option.isSome_iff_exists]
  constructor
  · rintro ⟨⟨_, _, _⟩, u, ⟨hget, rfl⟩, rfl⟩
    exact ⟨u, hget⟩
  · rintro ⟨u, hget⟩
    exact ⟨_, u, ⟨hget, rfl⟩, rfl⟩

/-- The visible positions of the segments of an edge type are its segment edges. -/
theorem exists_scan_segment {edge : VertexId × VertexId} :
    (∃ s ∈ t.outSegments.scan fun k => k.edgeType = edgeType, s.1.src = edge.1 ∧ edge.2 ∈ s.2 ∧
      segmentEdgeVisible s.1.sequence (t.tombstones.get ⟨s.1.edgeType, edge.1, edge.2⟩) = true) ↔
      t.SegVisible ⟨edgeType, edge.1, edge.2⟩ := by
  simp only [Prod.exists, mem_scan, decide_eq_true_eq, Topology.SegVisible]
  constructor
  · rintro ⟨s, ds, ⟨hget, rfl⟩, hsrc, hmem, hvis⟩
    exact ⟨s, ds, hget, rfl, hsrc, hmem, hvis⟩
  · rintro ⟨s, ds, hget, rfl, hsrc, hmem, hvis⟩
    exact ⟨s, ds, ⟨hget, rfl⟩, hsrc, hmem, hvis⟩

/-- The scan of a snapshot collects the visible edges of its type. -/
theorem holds_currentMatrixRows (bounded : t.Bounded e)
    (h : currentMatrixRows limits t edgeType e = .ok rows) (edge : VertexId × VertexId) :
    rows.Holds edge ↔ t.Visible ⟨edgeType, edge.1, edge.2⟩ := by
  obtain ⟨direct, hdirect, hsegments⟩ := bind_ok h
  rw [List.foldlM_ok_collects hsegments (fun s hs _ _ hstep =>
      holds_pushSegment bounded (contains_of_get (mem_scan.1 hs).1) hstep) edge,
    List.foldlM_ok_collects hdirect (fun _ _ _ _ hstep => MatrixRows.holds_pushLimited hstep) edge]
  have hempty : ¬ MatrixRows.empty.Holds edge := List.not_mem_nil
  rw [exists_scan_direct, exists_scan_segment, or_iff_left hempty, or_comm, Topology.Visible]

/-- The canonical adjacency of a snapshot has exactly the visible edges, and no empty row. -/
theorem canonicalAdjacencyAt_ok (bounded : t.Bounded e)
    (h : canonicalAdjacencyAt limits t edgeType e = .ok a) :
    a.Compact ∧ ∀ src dst, a.HasEdge src dst ↔ t.Visible ⟨edgeType, src, dst⟩ := by
  obtain ⟨rows, hrows, h⟩ := bind_ok h
  cases h
  have hrow : ∀ src ds, (rows.normalize.rows.mapValues fun destinations =>
        addAll ∅ destinations).get src = some ds ↔
      ∃ dsts, rows.rows.get src = some dsts ∧ dsts ≠ [] ∧ addAll ∅ (sortDedup dsts) = ds := by
    intro src ds
    have hempty : ∀ {l : List VertexId}, sortDedup l = [] ↔ l = [] := by
      intro l
      simp [List.eq_nil_iff_forall_not_mem, mem_sortDedup]
    rw [get_mapValues, MatrixRows.normalize, get_filterMapValues]
    cases hget : rows.rows.get src with
    | none => simp
    | some dsts => by_cases hnil : dsts = [] <;> simp [hempty]
  refine ⟨fun src ds hget => ?_, fun src dst => ?_⟩
  · obtain ⟨dsts, -, hne, rfl⟩ := (hrow src ds).1 hget
    obtain ⟨dst, hdst⟩ := List.exists_mem_of_ne_nil dsts hne
    exact ⟨dst, contains_addAll.2 (.inl (mem_sortDedup.2 hdst))⟩
  rw [← holds_currentMatrixRows bounded hrows (src, dst), MatrixAdjacency.HasEdge, MatrixRows.Holds]
  constructor
  · rintro ⟨ds, hget, hdst⟩
    obtain ⟨dsts, hdsts, -, rfl⟩ := (hrow src ds).1 hget
    rw [contains_addAll, mem_sortDedup] at hdst
    simpa [hdsts] using hdst
  · intro hmem
    cases hget : rows.rows.get src with
    | none => simp [hget] at hmem
    | some dsts =>
      have hdst : dst ∈ dsts := by simpa [hget] using hmem
      refine ⟨_, (hrow src _).2 ⟨dsts, hget, List.ne_nil_of_mem hdst, rfl⟩, ?_⟩
      exact contains_addAll.2 (.inl (mem_sortDedup.2 hdst))

end

end HydraDb
