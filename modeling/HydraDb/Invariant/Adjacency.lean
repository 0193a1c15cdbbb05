import HydraDb.Invariant.Draft

/-!
# The adjacency invariant

Direct keys, segments and tombstones, reverse keys and degree counters agree: no edge is stored in
both forms, the reverse keys mirror the direct keys under the policy that keeps them, and every
counter is the number of edges it counts. In the middle of a transaction the counters agree up to
what the ledger says is still owed.
-/

namespace HydraDb

open OrdMap

/-- The adjacency of a draft. `out` and `inn` are the degrees that are still owed. -/
structure AdjacencyOk (g : Regime) (e : StorageSequence) (t : Topology)
    (out inn : DegreeKey → Int) : Prop where
  /-- Nothing is newer than the commit. -/
  bounded : t.Bounded e
  /-- Segments are kept only without a reverse index. -/
  noSegments : g.reverseIndex = true → ∀ s, t.outSegments.get s = none
  /-- The reverse keys mirror the direct keys, or there are none. -/
  mirror : ∀ k : EdgeKey, t.inEdges.contains k.mirror = true ↔ g.reverseIndex = true ∧ t.Direct k
  /-- No edge is stored in both forms. -/
  disjoint : g.trusted = true → ∀ k, t.Direct k → ¬ t.SegVisible k
  /-- The out-degree is the number of visible destinations. -/
  outDegree : g.trusted = true → ∀ k : DegreeKey,
    ((t.destinations k.edgeType k.vertex).card : Int) = t.degreeOut.count k + out k
  /-- The in-degree is the number of reverse keys. -/
  inDegree : g.trusted = true → ∀ k : DegreeKey,
    ((t.sources k.edgeType k.vertex).card : Int) = t.degreeIn.count k + inn k

namespace Topology

variable {t t' : Topology} {k : EdgeKey}

/-- The source of an edge, as a key of the out-degree counters. -/
theorem degreeKey_out_iff {i : DegreeKey} :
    ⟨i.edgeType, i.vertex, dst⟩ = k ↔ i = ⟨k.edgeType, k.src⟩ ∧ dst = k.dst := by
  obtain ⟨ty, v⟩ := i
  obtain ⟨ty', s, d⟩ := k
  simp [and_assoc]

/-- The destination of an edge, as a key of the in-degree counters. -/
theorem degreeKey_in_iff {i : DegreeKey} :
    ⟨i.edgeType, src, i.vertex⟩ = k ↔ i = ⟨k.edgeType, k.dst⟩ ∧ src = k.src := by
  obtain ⟨ty, v⟩ := i
  obtain ⟨ty', s, d⟩ := k
  simp [and_assoc, and_comm (a := v = d)]

/-- Edges of one source that become visible are counted there. -/
theorem card_destinations_add {ds : List VertexId}
    (h : ∀ k', t'.Visible k' ↔ k'.edgeType = edgeType ∧ k'.src = src ∧ k'.dst ∈ ds ∨ t.Visible k')
    (hnew : ∀ d ∈ ds, ¬ t.Visible ⟨edgeType, src, d⟩) (hds : ds.Nodup) (i : DegreeKey) :
    ((t'.destinations i.edgeType i.vertex).card : Int) =
      (t.destinations i.edgeType i.vertex).card +
        if i = ⟨edgeType, src⟩ then (ds.length : Int) else 0 := by
  refine Finset.card_family_add (fun i : DegreeKey => t.destinations i.edgeType i.vertex)
    (fun i => t'.destinations i.edgeType i.vertex) ?_ ?_ hds i
  · rintro ⟨ty, v⟩ x
    rw [mem_destinations, mem_destinations, h, DegreeKey.mk.injEq, and_assoc]
  · intro x hx
    rw [mem_destinations]
    exact hnew x hx

/-- An edge that is no longer visible is taken from the count of its source. -/
theorem card_destinations_remove (h : ∀ k', t'.Visible k' ↔ k' ≠ k ∧ t.Visible k')
    (hold : t.Visible k) (i : DegreeKey) :
    ((t'.destinations i.edgeType i.vertex).card : Int) =
      (t.destinations i.edgeType i.vertex).card +
        if i = ⟨k.edgeType, k.src⟩ then -1 else 0 := by
  refine Finset.card_family_remove (fun i : DegreeKey => t.destinations i.edgeType i.vertex)
    (fun i => t'.destinations i.edgeType i.vertex) ?_ (mem_destinations.2 hold) i
  intro i x
  rw [mem_destinations, mem_destinations, h, ne_eq, degreeKey_out_iff]

/-- A reverse key that is written is counted at its destination. -/
theorem card_sources_add
    (h : ∀ k' : EdgeKey, t'.inEdges.contains k'.mirror = true ↔
      k' = k ∨ t.inEdges.contains k'.mirror = true)
    (hnew : ¬ t.inEdges.contains k.mirror = true) (i : DegreeKey) :
    ((t'.sources i.edgeType i.vertex).card : Int) =
      (t.sources i.edgeType i.vertex).card + if i = ⟨k.edgeType, k.dst⟩ then 1 else 0 := by
  refine Finset.card_family_add (fun i : DegreeKey => t.sources i.edgeType i.vertex)
    (fun i => t'.sources i.edgeType i.vertex) ?_ ?_ (List.nodup_singleton k.src) i
  · intro i x
    rw [mem_sources, mem_sources, List.mem_singleton, ← degreeKey_in_iff]
    exact h ⟨i.edgeType, x, i.vertex⟩
  · intro x hx
    rw [List.mem_singleton.1 hx, mem_sources]
    exact hnew

/-- A reverse key that is deleted is taken from the count of its destination. -/
theorem card_sources_remove
    (h : ∀ k' : EdgeKey, t'.inEdges.contains k'.mirror = true ↔
      k' ≠ k ∧ t.inEdges.contains k'.mirror = true)
    (hold : t.inEdges.contains k.mirror = true) (i : DegreeKey) :
    ((t'.sources i.edgeType i.vertex).card : Int) =
      (t.sources i.edgeType i.vertex).card + if i = ⟨k.edgeType, k.dst⟩ then -1 else 0 := by
  refine Finset.card_family_remove (fun i : DegreeKey => t.sources i.edgeType i.vertex)
    (fun i => t'.sources i.edgeType i.vertex) ?_ (mem_sources.2 hold) i
  intro i x
  rw [mem_sources, mem_sources, ← degreeKey_in_iff]
  exact h ⟨i.edgeType, x, i.vertex⟩

/-- Counts of sources depend only on the reverse keys. -/
theorem sources_congr (h : t'.inEdges = t.inEdges) :
    t'.sources edgeType dst = t.sources edgeType dst := by
  rw [sources, sources, h]

/-- Counts of destinations depend only on what is visible. -/
theorem destinations_congr (h : ∀ k, t'.Visible k ↔ t.Visible k)
    : t'.destinations edgeType src = t.destinations edgeType src := by
  ext dst
  rw [mem_destinations, mem_destinations, h]

end Topology

namespace AdjacencyOk

variable {g : Regime} {e : StorageSequence} {t : Topology} {out inn : DegreeKey → Int}
  {k : EdgeKey}

open HydraDb.Topology

section

variable (h : AdjacencyOk g e t out inn)

include h

theorem not_segVisible (hr : g.reverseIndex = true) : ¬ t.SegVisible k :=
  fun ⟨s, _, hs, _⟩ => Option.some_ne_none _ (hs.symm.trans (h.noSegments hr s))

theorem insertDirect (absent : g.trusted = true → ¬ t.Visible k) :
    AdjacencyOk g e (t.insertDirect g.reverseIndex k)
      (fun i => out i + if i = ⟨k.edgeType, k.src⟩ then 1 else 0)
      (fun i => inn i + if i = ⟨k.edgeType, k.dst⟩ then (if g.reverseIndex then 1 else 0) else 0)
    where
  bounded := ⟨h.bounded.segment_le, h.bounded.tombstone_le⟩
  noSegments := h.noSegments
  mirror k' := by
    rw [direct_insertDirect, Topology.insertDirect]
    cases hr : g.reverseIndex with
    | true =>
      simp [contains_put, mirror_inj, h.mirror, hr]
    | false =>
      simp [h.mirror, hr]
  disjoint ht k' hd hs := by
    rw [segVisible_insertDirect] at hs
    rcases direct_insertDirect.1 hd with rfl | hd
    · exact absent ht (.inr hs)
    · exact h.disjoint ht k' hd hs
  outDegree ht i := by
    have hvisible : ∀ k', (t.insertDirect g.reverseIndex k).Visible k' ↔
        k'.edgeType = k.edgeType ∧ k'.src = k.src ∧ k'.dst ∈ [k.dst] ∨ t.Visible k' := by
      intro k'
      rw [visible_insertDirect, List.mem_singleton]
      obtain ⟨_, _, _⟩ := k
      obtain ⟨_, _, _⟩ := k'
      rw [EdgeKey.mk.injEq]
    have hnew : ∀ d ∈ [k.dst], ¬ t.Visible ⟨k.edgeType, k.src, d⟩ := by
      intro d hd
      rw [List.mem_singleton.1 hd]
      exact absent ht
    rw [card_destinations_add hvisible hnew (List.nodup_singleton _) i, h.outDegree ht i,
      Int.add_assoc]
    rfl
  inDegree ht i := by
    have hdeg := h.inDegree ht i
    cases hr : g.reverseIndex with
    | true =>
      have hkeys : ∀ k', (t.insertDirect true k).inEdges.contains k'.mirror = true ↔
          k' = k ∨ t.inEdges.contains k'.mirror = true := by
        intro k'
        simp [Topology.insertDirect, contains_put, mirror_inj]
      have hnew : ¬ t.inEdges.contains k.mirror = true := fun hc =>
        absent ht (.inl ((h.mirror k).1 hc).2)
      rw [card_sources_add hkeys hnew i, hdeg, Int.add_assoc]
      rfl
    | false =>
      have hsame : (t.insertDirect false k).inEdges = t.inEdges := rfl
      rw [sources_congr hsame]
      simp only [Topology.insertDirect, Bool.false_eq_true, if_false, ite_self, Int.add_zero]
      exact hdeg

theorem removeDirect {mirror : Bool} (direct : t.Direct k)
    (reverse : g.reverseIndex = true → mirror = true) :
    AdjacencyOk g e (t.removeDirect mirror k)
      (fun i => out i + if i = ⟨k.edgeType, k.src⟩ then -1 else 0)
      (fun i => inn i + if i = ⟨k.edgeType, k.dst⟩ then (if g.reverseIndex then -1 else 0) else 0)
    where
  bounded := ⟨h.bounded.segment_le, h.bounded.tombstone_le⟩
  noSegments := h.noSegments
  mirror k' := by
    rw [direct_removeDirect, Topology.removeDirect]
    cases hm : mirror with
    | true =>
      simp only [if_true, contains_del, ne_eq, mirror_inj, h.mirror]
      tauto
    | false =>
      have hr : g.reverseIndex = false := by
        cases hr : g.reverseIndex with
        | true => rw [reverse hr] at hm; cases hm
        | false => rfl
      simp [h.mirror, hr]
  disjoint ht k' hd hs := h.disjoint ht k' (direct_removeDirect.1 hd).2 hs
  outDegree ht i := by
    have hvisible : ∀ k', (t.removeDirect mirror k).Visible k' ↔ k' ≠ k ∧ t.Visible k' :=
      fun k' => visible_removeDirect (h.disjoint ht k direct)
    rw [card_destinations_remove hvisible (.inl direct) i, h.outDegree ht i, Int.add_assoc]
    rfl
  inDegree ht i := by
    have hdeg := h.inDegree ht i
    cases hr : g.reverseIndex with
    | true =>
      have hkeys : ∀ k', (t.removeDirect mirror k).inEdges.contains k'.mirror = true ↔
          k' ≠ k ∧ t.inEdges.contains k'.mirror = true := by
        intro k'
        simp [Topology.removeDirect, reverse hr, contains_del, mirror_inj]
      rw [card_sources_remove hkeys ((h.mirror k).2 ⟨hr, direct⟩) i, hdeg, Int.add_assoc]
      rfl
    | false =>
      -- there are no reverse keys to delete
      have hnone : ∀ k' : EdgeKey, ¬ t.inEdges.contains k'.mirror = true := fun k' hc => by
        rw [((h.mirror k').1 hc).1] at hr; cases hr
      have hsame : (t.removeDirect mirror k).sources i.edgeType i.vertex =
          t.sources i.edgeType i.vertex := by
        ext src
        rw [mem_sources, mem_sources]
        refine iff_of_false ?_ (hnone ⟨i.edgeType, src, i.vertex⟩)
        rw [Topology.removeDirect]
        split
        · rw [contains_del]
          exact fun hc => hnone ⟨i.edgeType, src, i.vertex⟩ hc.2
        · exact hnone ⟨i.edgeType, src, i.vertex⟩
      rw [hsame]
      simp only [Topology.removeDirect, Bool.false_eq_true, if_false, ite_self, Int.add_zero]
      exact hdeg

theorem putTombstone (hidden : ¬ t.Direct k) (shown : t.SegVisible k) :
    AdjacencyOk g e (t.putTombstone k e)
      (fun i => out i + if i = ⟨k.edgeType, k.src⟩ then -1 else 0) inn :=
  { h with
    bounded :=
      { segment_le := h.bounded.segment_le
        tombstone_le := forall_get_put h.bounded.tombstone_le le_rfl }
    disjoint ht k' hd hs :=
      h.disjoint ht k' hd ((segVisible_putTombstone h.bounded).1 hs).2
    outDegree ht i := by
      have hvisible : ∀ k', (t.putTombstone k e).Visible k' ↔ k' ≠ k ∧ t.Visible k' :=
        fun k' => visible_putTombstone h.bounded hidden
      rw [card_destinations_remove hvisible (.inr shown) i, h.outDegree ht i, Int.add_assoc]
      rfl }

theorem appendSegment (policy : g.reverseIndex = false)
    (current : s.sequence = e) (fresh : t.outSegments.get s = none) (distinct : ds.Nodup)
    (absent : ∀ dst ∈ ds, ¬ t.Visible ⟨s.edgeType, s.src, dst⟩) :
    AdjacencyOk g e (t.appendSegment s ds)
      (fun i => out i + if i = ⟨s.edgeType, s.src⟩ then (ds.length : Int) else 0) inn where
  bounded :=
    { segment_le := fun s' hs' => by
        rcases contains_put.1 hs' with rfl | hs'
        · exact current.le
        · exact h.bounded.segment_le s' hs'
      tombstone_le := fun k' τ hk' => by
        rw [Topology.appendSegment, get_delAll] at hk'
        replace hk' := rest_of_ne hk' (by simp)
        exact h.bounded.tombstone_le k' τ hk' }
  noSegments hr := by rw [policy] at hr; cases hr
  mirror := h.mirror
  disjoint ht k' hd hs := by
    rcases (segVisible_appendSegment fresh).1 hs with ⟨hty, hsrc, hmem⟩ | hs
    · refine absent k'.dst hmem (.inl ?_)
      rw [← hty, ← hsrc]
      exact hd
    · exact h.disjoint ht k' hd hs
  outDegree ht i := by
    have hvisible : ∀ k', (t.appendSegment s ds).Visible k' ↔
        k'.edgeType = s.edgeType ∧ k'.src = s.src ∧ k'.dst ∈ ds ∨ t.Visible k' :=
      fun k' => visible_appendSegment fresh
    rw [card_destinations_add hvisible absent distinct i, h.outDegree ht i, Int.add_assoc]
    rfl
  inDegree := h.inDegree

theorem resegment {tombstones : OrdMap EdgeKey StorageSequence}
    (bounded : Bounded { t with outSegments := segments, tombstones := tombstones } e)
    (policy : g.reverseIndex = true → ∀ s, segments.get s = none)
    (same : ∀ k, SegVisible { t with outSegments := segments, tombstones := tombstones } k ↔
      t.SegVisible k) :
    AdjacencyOk g e { t with outSegments := segments, tombstones := tombstones } out inn where
  bounded := bounded
  noSegments := policy
  mirror := h.mirror
  disjoint ht k' hd hs := h.disjoint ht k' hd ((same k').1 hs)
  outDegree ht i := by
    have hvisible : ∀ k, Visible { t with outSegments := segments, tombstones := tombstones } k ↔
        t.Visible k := fun k => or_congr_right (same k)
    rw [destinations_congr hvisible]
    exact h.outDegree ht i
  inDegree := h.inDegree

theorem setDegreeOut
    (owed : g.trusted = true → ∀ i, counters.count i + out' i = t.degreeOut.count i + out i) :
    AdjacencyOk g e { t with degreeOut := counters } out' inn :=
  { h with
    bounded := ⟨h.bounded.segment_le, h.bounded.tombstone_le⟩
    outDegree ht i := by
      rw [owed ht i]
      exact h.outDegree ht i }

theorem setDegreeIn
    (owed : g.trusted = true → ∀ i, counters.count i + inn' i = t.degreeIn.count i + inn i) :
    AdjacencyOk g e { t with degreeIn := counters } out inn' :=
  { h with
    bounded := ⟨h.bounded.segment_le, h.bounded.tombstone_le⟩
    inDegree ht i := by
      rw [owed ht i]
      exact h.inDegree ht i }

end

end AdjacencyOk

/-- Every write of a transaction keeps the adjacency invariant. -/
theorem Step.adjacencyOk (h : Step F g e d d')
    (ok : AdjacencyOk g e d.cell.topology d.ledger.out d.ledger.inn) :
    AdjacencyOk g e d'.cell.topology d'.ledger.out d'.ledger.inn := by
  cases h with
  | insertEdge k ensured absent => exact ok.insertDirect absent
  | removeEdge k ensured mirror direct bare reverse => exact ok.removeDirect direct reverse
  | hideEdge k ensured hidden shown => exact ok.putTombstone hidden shown
  | appendSegment s ds ensured policy current fresh distinct nonempty absent =>
    exact ok.appendSegment policy current fresh distinct absent
  | resegment segments tombstones bounded policy same _ => exact ok.resegment bounded policy same
  | countOut counters out owed => exact ok.setDegreeOut owed
  | countIn counters inn owed => exact ok.setDegreeIn owed
  | touch | putVertex | ensureVertex | deleteVertex | settle | putEdgeMetadata
  | insertRelationship | replaceRelationship | deleteRelationship | countRelationships
  | putLastId | putMerges | putIdempotency => exact ok

end HydraDb
