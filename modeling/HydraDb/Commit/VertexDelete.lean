import HydraDb.Commit.Basic
import HydraDb.Invariant.History
import HydraDb.Write.VertexDelete

/-!
# Vertex deletes as steps

A vertex delete removes the edges at the vertices it detaches, and then the records of its
vertices. The step that deletes a record asks that no visible edge is left at the vertex. That
rests on the discovery: it has found every visible edge at a detached vertex, and for a candidate
that has an edge no detached vertex takes away it has found one such edge (`Discovered`). A
discovery made ahead of the transaction is still good when the changelog shows no change at a
requested vertex.
-/

namespace HydraDb

open PendingVertexDelete
open List hiding contains_iff
open OrdMap hiding entries

variable {F : VertexMetadata → Prop} {g : Regime} {n : StorageSequence} {c c₀ c' : Cell}
  {env : WriteEnv}

variable {mode : VertexDeleteBatchMode} {deletions : List VertexDeletion}
  {vertices : OrdMap VertexId Unit} {edges : OrdMap EdgeKey Unit} {cellId : CellId}
  {isolation : Option (OrdMap VertexId Unit)}
  {v : VertexId} {k : EdgeKey} {pending : List PendingVertexDelete}

/-- What a discovery knows of the edges at the requested vertices. `isolation` is given in the modes
with candidates: the detached vertices. -/
structure Discovered (t : Topology) (vertices : OrdMap VertexId Unit)
    (isolation : Option (OrdMap VertexId Unit)) (edges : OrdMap EdgeKey Unit) : Prop where
  /-- Every edge at a vertex that is not a candidate is found. -/
  complete : ∀ v, vertices.contains v = true →
    (∀ detach, isolation = some detach → detach.contains v = true) →
    ∀ k : EdgeKey, t.Visible k → k.Meets v → edges.contains k = true
  /-- A candidate that keeps an edge has one among those found. -/
  witness : ∀ v detach, vertices.contains v = true → isolation = some detach →
    ∀ k : EdgeKey, t.Visible k → k.Meets v → k.touches detach = false →
    ∃ k' : EdgeKey, edges.contains k' = true ∧ k'.Meets v ∧ k'.touches detach = false

/-- A discovery that has found nothing else. -/
structure SoundDiscovery (t : Topology) (vertices : OrdMap VertexId Unit)
    (isolation : Option (OrdMap VertexId Unit)) (edges : OrdMap EdgeKey Unit) : Prop
    extends Discovered t vertices isolation edges where
  sound : ∀ k, edges.contains k = true → t.Visible k ∧ k.touches vertices = true

theorem EdgeKey.touches_iff :
    k.touches vertices = true ↔ ∃ v, vertices.contains v = true ∧ k.Meets v := by
  rw [touches, Bool.or_eq_true]
  constructor
  · rintro (h | h)
    · exact ⟨k.src, h, .inl rfl⟩
    · exact ⟨k.dst, h, .inr rfl⟩
  · rintro ⟨v, hv, rfl | rfl⟩
    · exact .inl hv
    · exact .inr hv

/-- Only the edges at the requested vertices matter. -/
theorem SoundDiscovery.congr (h : SoundDiscovery t vertices isolation edges)
    (hsame : ∀ k v, vertices.contains v = true → EdgeKey.Meets k v →
      (t'.Visible k ↔ t.Visible k)) : SoundDiscovery t' vertices isolation edges where
  complete v hv hdetach k hk hm := h.complete v hv hdetach k ((hsame k v hv hm).1 hk) hm
  witness v detach hv hiso k hk hm := h.witness v detach hv hiso k ((hsame k v hv hm).1 hk) hm
  sound k hk := by
    obtain ⟨hvisible, htouch⟩ := h.sound k hk
    obtain ⟨v, hv, hm⟩ := EdgeKey.touches_iff.1 htouch
    exact ⟨(hsame k v hv hm).2 hvisible, htouch⟩

/-! ## Discovery through the indexes -/

theorem Topology.mem_incidentEdges {t : Topology} :
    k ∈ t.incidentEdges edgeTypes v ↔ k.edgeType ∈ edgeTypes ∧
      (t.Direct k ∧ k.src = v ∨ t.inEdges.contains k.mirror = true ∧ k.dst = v) := by
  obtain ⟨ty, src, dst⟩ := k
  simp only [incidentEdges, mem_flatMap, mem_append, mem_map, Prod.exists,
    mem_scan, decide_eq_true_eq, Direct, contains_iff, Option.isSome_iff_exists,
    EdgeKey.mirror, EdgeKey.mk.injEq]
  constructor
  · rintro ⟨ty', hty, ⟨k, u, ⟨hget, rfl, rfl⟩, rfl⟩ |
      ⟨⟨_, _, _⟩, u, ⟨hget, rfl, rfl⟩, rfl, rfl, rfl⟩⟩
    · exact ⟨hty, .inl ⟨⟨u, hget⟩, rfl⟩⟩
    · exact ⟨hty, .inr ⟨⟨u, hget⟩, rfl⟩⟩
  · rintro ⟨hty, ⟨⟨u, hget⟩, rfl⟩ | ⟨⟨u, hget⟩, rfl⟩⟩
    · exact ⟨ty, hty, .inl ⟨_, u, ⟨hget, rfl, rfl⟩, rfl⟩⟩
    · exact ⟨ty, hty, .inr ⟨_, u, ⟨hget, rfl, rfl⟩, rfl, rfl, rfl⟩⟩

namespace IncidentScan

variable {s s' : IncidentScan} {k : EdgeKey}

theorem read_ok (h : s.read limits = .ok s') : s'.edges = s.edges := by
  replace h := seq_ok h
  cases h
  rfl

theorem retain_ok (h : s.retain preparing bytes = .ok s') : s'.edges = s.edges := by
  unfold retain at h
  split at h
  · replace h := seq_ok h
    cases h
    rfl
  · cases h
    rfl

theorem catalogEntry_ok
    (h : s.catalogEntry limits preparing cellId e = .ok s') : s'.edges = s.edges := by
  obtain ⟨s₁, hs₁, h⟩ := bind_ok h
  split at h
  · cases h
  · replace h := seq_ok h
    rw [retain_ok h, read_ok hs₁]

theorem addEdge_ok (h : s.addEdge limits preparing k = .ok s') (k' : EdgeKey) :
    s'.edges.contains k' = true ↔ k' = k ∨ s.edges.contains k' = true := by
  have hkept : ∀ {s₁ : IncidentScan}, s₁.edges = s.edges →
      (do
        let edges := s₁.edges.put k ()
        ensureLimit "delete_vertex_incident_edges" edges.entries.length
          limits.maxQueryIntermediateRows
        return { s₁ with edges } : Except GraphError IncidentScan) = .ok s' →
      (s'.edges.contains k' = true ↔ k' = k ∨ s.edges.contains k' = true) := by
    intro s₁ hs₁ h
    replace h := seq_ok h
    cases h
    rw [← hs₁]
    exact contains_put
  unfold addEdge at h
  split at h
  · exact hkept rfl h
  · obtain ⟨s₁, hs₁, h⟩ := bind_ok h
    exact hkept (retain_ok hs₁) h

/-- The scan of a vertex keeps what was found and adds only edges that it reads. Without candidates
it finds every edge; for a candidate it finds an edge that no detached vertex takes away, if there
is one. -/
theorem scanVertex_ok (h : scanVertex limits preparing candidate ks s = .ok s') :
    (∀ k, s.edges.contains k = true → s'.edges.contains k = true) ∧
    (∀ k, s'.edges.contains k = true → k ∈ ks ∨ s.edges.contains k = true) ∧
    (candidate = none → ∀ k ∈ ks, s'.edges.contains k = true) ∧
    ∀ detach, candidate = some detach → ∀ k ∈ ks, k.touches detach = false →
      ∃ k' ∈ ks, s'.edges.contains k' = true ∧ k'.touches detach = false := by
  induction ks generalizing s with
  | nil =>
    cases h
    exact ⟨fun _ hk => hk, fun _ => .inr, nofun, nofun⟩
  | cons k ks ih =>
    obtain ⟨s₁, hs₁, h⟩ := bind_ok h
    rw [← read_ok hs₁]
    split at h
    · obtain ⟨s₂, hs₂, h⟩ := bind_ok h
      obtain ⟨hkept, hread, hall, -⟩ := ih h
      have hadd := addEdge_ok hs₂
      refine ⟨fun k' hk' => hkept k' ((hadd k').2 (.inr hk')), fun k' hk' => ?_,
        fun _ k' hk' => ?_, nofun⟩
      · rcases hread k' hk' with hmem | hk'
        · exact .inl (mem_cons_of_mem _ hmem)
        · exact ((hadd k').1 hk').imp_left fun h => mem_cons.2 (.inl h)
      · rcases mem_cons.1 hk' with rfl | hk'
        · exact hkept _ ((hadd _).2 (.inl rfl))
        · exact hall rfl k' hk'
    · split at h
      · next hskip =>
        obtain ⟨hkept, hread, -, hfirst⟩ := ih h
        refine ⟨hkept, fun k' hk' => (hread k' hk').imp_left (mem_cons_of_mem _), nofun, ?_⟩
        rintro _ ⟨⟩ k' hk' htouch
        rcases mem_cons.1 hk' with rfl | hk'
        · cases hskip.symm.trans htouch
        · obtain ⟨k'', hmem, hfound⟩ := hfirst _ rfl k' hk' htouch
          exact ⟨k'', mem_cons_of_mem _ hmem, hfound⟩
      · next hkeep =>
        have hadd := addEdge_ok h
        refine ⟨fun k' hk' => (hadd k').2 (.inr hk'), fun k' hk' => ?_, nofun, ?_⟩
        · exact ((hadd k').1 hk').imp_left fun h => mem_cons.2 (.inl h)
        · rintro _ ⟨⟩ - - -
          exact ⟨k, mem_cons_self, (hadd k).2 (.inl rfl), Bool.not_eq_true _ ▸ hkeep⟩

end IncidentScan

/-- Under the policy that keeps a reverse index every visible edge at a vertex is found in the
indexes of its type, and every type with an edge is in the catalog. -/
theorem CellOk.mem_incidentEdges (ok : CellOk g n c) (hr : g.reverseIndex = true) :
    k ∈ c.topology.incidentEdges c.changelog.matrixDirty.keys v ↔
      c.topology.Visible k ∧ k.Meets v := by
  have hvisible : c.topology.Visible k ↔ c.topology.Direct k :=
    or_iff_left (ok.adjacency.not_segVisible hr)
  rw [Topology.mem_incidentEdges, ok.adjacency.mirror, hr, hvisible]
  simp only [true_and, ← and_or_left]
  refine and_iff_right_of_imp fun h => mem_keys_iff_contains.2 ?_
  exact ok.catalog k (.inl h.1)

theorem indexedVertexDeleteDiscovery_ok (ok : CellOk g n c) (hr : g.reverseIndex = true)
    (h : indexedVertexDeleteDiscovery limits preparing cellId c vertices isolation = .ok discovery)
    :
    discovery.catalog = c.changelog.matrixDirty ∧
      SoundDiscovery c.topology vertices isolation discovery.edges := by
  obtain ⟨s, hcatalog, h⟩ := bind_ok h
  obtain ⟨s', hloop, h⟩ := bind_ok h
  replace h := seq_ok h
  cases h
  have hempty : s.edges = ∅ := foldlM_ok_invariant (P := fun s => s.edges = ∅)
    hcatalog rfl fun e _ s₁ s₂ hs₁ hs₂ => (IncidentScan.catalogEntry_ok hs₂).trans hs₁
  -- what is found at a vertex stays found
  have key := foldlM_ok_induction (P := fun done s =>
    (∀ k, s.edges.contains k = true → c.topology.Visible k ∧ k.touches vertices = true) ∧
    ∀ v ∈ done, ((∀ detach, isolation = some detach → detach.contains v = true) →
      ∀ k, c.topology.Visible k → k.Meets v → s.edges.contains k = true) ∧
    ∀ detach, isolation = some detach →
      ∀ k, c.topology.Visible k → k.Meets v → k.touches detach = false →
      ∃ k', s.edges.contains k' = true ∧ k'.Meets v ∧ k'.touches detach = false)
    hloop ?_ ?_
  · exact ⟨rfl, ⟨fun v hv => (key.2 v (mem_keys_iff_contains.2 hv)).1,
      fun v detach hv => (key.2 v (mem_keys_iff_contains.2 hv)).2 detach⟩, key.1⟩
  · rw [hempty]
    exact ⟨nofun, nofun⟩
  rintro done v rest s s' hl ⟨hsound, hP⟩ hstep
  obtain ⟨hkept, hread, hall, hfirst⟩ := IncidentScan.scanVertex_ok hstep
  refine ⟨fun k hk => ?_, fun w hw => ?_⟩
  · rcases hread k hk with hmem | hk
    · obtain ⟨hvisible, hm⟩ := (ok.mem_incidentEdges hr).1 hmem
      exact ⟨hvisible, EdgeKey.touches_iff.2 ⟨v, mem_keys_iff_contains.1 (mem_of_next hl), hm⟩⟩
    · exact hsound k hk
  rcases mem_snoc.1 hw with hw | rfl
  · obtain ⟨hcomplete, hwitness⟩ := hP w hw
    refine ⟨fun hdetach k hk hm => hkept k (hcomplete hdetach k hk hm), ?_⟩
    intro detach hiso k hk hm htouch
    obtain ⟨k', hfound, hrest⟩ := hwitness detach hiso k hk hm htouch
    exact ⟨k', hkept k' hfound, hrest⟩
  refine ⟨fun hdetach k hk hm => hall ?_ k ((ok.mem_incidentEdges hr).2 ⟨hk, hm⟩),
    fun detach hiso k hk hm htouch => ?_⟩
  · cases isolation with
    | none => rfl
    | some detach => rw [Option.filter_some, hdetach detach rfl]; rfl
  have hcontains : detach.contains w = false := Bool.eq_false_iff.2 fun hw => by
    cases htouch.symm.trans (EdgeKey.touches_iff.2 ⟨w, hw, hm⟩)
  have hcandidate : (isolation.filter fun detach => !detach.contains w) = some detach := by
    rw [hiso, Option.filter_some, hcontains]
    rfl
  obtain ⟨k', hmem, hfound, htouch'⟩ := hfirst detach hcandidate k
    ((ok.mem_incidentEdges hr).2 ⟨hk, hm⟩) htouch
  exact ⟨k', hfound, ((ok.mem_incidentEdges hr).1 hmem).2, htouch'⟩

/-! ## Discovery by a full scan -/

/-- A loop of a full scan adds the edges of each item that touch a requested vertex. -/
theorem scanLoop_ok {f : α → List EdgeKey} {items : List α}
    (h : items.foldlM (fun (acc : OrdMap EdgeKey Unit × Nat) a => do
      let scanned ← countScanned limits operation acc.2
      return (addTouching vertices acc.1 (f a), scanned)) acc = .ok acc') :
    acc'.1.contains k = true ↔
      (∃ a ∈ items, k ∈ f a) ∧ k.touches vertices = true ∨ acc.1.contains k = true := by
  induction items generalizing acc with
  | nil =>
    cases h
    simp
  | cons a items ih =>
    obtain ⟨acc₁, hstep, h⟩ := bind_ok h
    obtain ⟨_, -, hstep⟩ := bind_ok hstep
    cases hstep
    rw [ih h, addTouching, contains_addAll, mem_filter, or_left_comm]
    simp only [mem_cons, exists_eq_or_imp]
    rw [or_and_right, or_assoc]

theorem fullScanIncidentEdgesForVertices_ok (ok : CellOk g n c)
    (h : fullScanIncidentEdgesForVertices limits c vertices n = .ok edges) :
    SoundDiscovery c.topology vertices isolation edges := by
  obtain ⟨⟨edges₁, scanned₁⟩, hdirect, h⟩ := bind_ok h
  obtain ⟨⟨edges₂, scanned₂⟩, hrelationships, h⟩ := bind_ok h
  obtain ⟨⟨edges₃, scanned₃⟩, hsegments, h⟩ := bind_ok h
  replace h := seq_ok h
  cases h
  have hexact : ∀ k, edges.contains k = true ↔
      c.topology.Visible k ∧ k.touches vertices = true := by
    intro k
    rw [scanLoop_ok hsegments, scanLoop_ok hrelationships, scanLoop_ok hdirect]
    constructor
    · rintro (⟨⟨⟨s, ds⟩, hs, hk⟩, htouch⟩ | ⟨⟨r, hr, hk⟩, htouch⟩ | ⟨⟨k', hk', hk⟩, htouch⟩ | hk)
      · unfold Topology.visibleSegmentEdges at hk
        split at hk
        · cases hk
        · obtain ⟨hk, hvisible⟩ := mem_filter.1 hk
          obtain ⟨dst, hdst, rfl⟩ := mem_map.1 hk
          exact ⟨.inr ⟨s, ds, mem_entries.1 hs, rfl, rfl, hdst, hvisible⟩, htouch⟩
      · obtain rfl := mem_singleton.1 hk
        exact ⟨ok.relationships.visible r (mem_keys_iff_contains.1 hr), htouch⟩
      · obtain rfl := mem_singleton.1 hk
        exact ⟨.inl (mem_keys_iff_contains.1 hk'), htouch⟩
      · cases hk
    · rintro ⟨hk | ⟨s, ds, hget, hty, hsrc, hmem, hvis⟩, htouch⟩
      · exact .inr (.inr (.inl ⟨⟨k, mem_keys_iff_contains.2 hk, mem_singleton_self k⟩, htouch⟩))
      refine .inl ⟨⟨(s, ds), mem_entries.2 hget, ?_⟩, htouch⟩
      have hle : ¬ s.sequence > n :=
        Nat.not_lt.2 (ok.adjacency.bounded.segment_le s (contains_of_get hget))
      rw [Topology.visibleSegmentEdges, if_neg hle, mem_filter, mem_map]
      exact ⟨⟨k.dst, hmem, by rw [hty, hsrc]⟩, hvis⟩
  have hfound : ∀ v, vertices.contains v = true → ∀ k, c.topology.Visible k →
      k.Meets v → edges.contains k = true := fun v hv k hk hm =>
    (hexact k).2 ⟨hk, EdgeKey.touches_iff.2 ⟨v, hv, hm⟩⟩
  exact ⟨⟨fun v hv _ => hfound v hv, fun v _ hv _ k hk hm htouch =>
    ⟨k, hfound v hv k hk hm, hm, htouch⟩⟩, fun k => (hexact k).1⟩

/-! ## Preparation -/

theorem prepareVertexDelete_ok (ok : CellOk g n c) (policy : env.reverseIndex = g.reverseIndex)
    (h : prepareVertexDelete env cellId deletions mode n c = .ok (some p)) :
    p.vertices = deletionVertices (pendingDeletions c mode deletions) ∧ p.epoch = n ∧
      p.discovery.catalog = c.changelog.matrixDirty ∧
      SoundDiscovery c.topology p.vertices
        (isolationDetachSet mode (pendingDeletions c mode deletions)) p.discovery.edges := by
  obtain ⟨hpolicy, h⟩ := else_of_ne h nofun
  have hr : g.reverseIndex = true := by
    rw [Bool.or_eq_true, not_or, Bool.not_eq_true', Bool.not_eq_false] at hpolicy
    exact policy.symm.trans hpolicy.1
  replace h := rest_of_ne h nofun
  split at h
  · next discovery hdiscovery =>
    cases h
    exact ⟨rfl, rfl, indexedVertexDeleteDiscovery_ok ok hr hdiscovery⟩
  · split at h <;> cases h
  · cases h

/-- The changes that the currency check of an edge type has read are not at a requested vertex, and
none is missing. -/
theorem unchangedSince_isSome
    (h : (unchangedSince l vertices epoch n scanLimit scanned edgeType).isSome = true) :
    (∃ low, l.lowWater.get edgeType = some low ∧ low ≤ saturatingSucc epoch) ∧
      ∀ change ∈ l.changesIn edgeType (saturatingSucc epoch) (saturatingSucc n),
        vertices.contains change.1 = false ∧ vertices.contains change.2.1 = false := by
  unfold unchangedSince at h
  split at h
  · cases h
  next low hlow =>
  split at h
  · cases h
  next hle =>
  refine ⟨⟨low, hlow, Nat.not_lt.1 hle⟩, fun change hchange => ?_⟩
  obtain ⟨scanned', hsome⟩ := isSome_of_foldlM_isSome h change hchange
  split at hsome
  · cases hsome
  split at hsome
  · cases hsome
  · next htouch =>
    rwa [Bool.or_eq_true, not_or, Bool.not_eq_true, Bool.not_eq_true] at htouch

/-- An entry of the changelog is read by a range that holds its sequence. -/
theorem Changelog.mem_changesIn {l : Changelog}
    (h : l.entries.contains (k.entry s) = true) (hstart : start ≤ s) (hstop : s < stop) :
    ∃ present, (k.src, k.dst, present) ∈ l.changesIn k.edgeType start stop := by
  obtain ⟨present, hget⟩ := get_of_contains h
  refine ⟨present, mem_map.2 ⟨(k.entry s, present), mem_scan.2 ⟨hget, ?_⟩, rfl⟩⟩
  exact decide_eq_true ⟨rfl, hstart, hstop⟩

/-- No edge at a requested vertex changed since a preparation that passes the currency check: a
change would have a newer dirty marker for its type, and then an entry that the check reads or a
low-water mark that it refuses. -/
theorem visible_iff_of_current (hn : n + 1 < u64Bound)
    (ok₀ : CellOk g p.epoch c₀) (since : Since p.epoch c₀ n c)
    (hcatalog : p.discovery.catalog = c₀.changelog.matrixDirty)
    (h : vertexDeletePreparationIsCurrent limits n c.changelog p = true)
    (hv : p.vertices.contains v = true) (hm : k.Meets v) :
    c.topology.Visible k ↔ c₀.topology.Visible k := by
  have hepoch : saturatingSucc p.epoch = p.epoch + 1 :=
    saturatingSucc_of_lt ((Nat.succ_le_succ since.le).trans_lt hn)
  unfold vertexDeletePreparationIsCurrent at h
  split at h
  · next heq => rw [since.same heq]
  split at h
  · cases h
  next edgeTypes hchanged =>
  rcases since.dirtied k with hsame | ⟨s, hs, hnewer⟩
  · exact hsame
  have hmem : k.edgeType ∈ edgeTypes := by
    replace hchanged := (then_of_ne hchanged nofun).2
    cases hchanged
    refine mem_map.2 ⟨(k.edgeType, s), mem_filter.2
      ⟨mem_entries.2 hs, decide_eq_true fun hold => ?_⟩, rfl⟩
    rw [hcatalog] at hold
    exact absurd (ok₀.dirty_le _ _ hold) (Nat.not_le.2 hnewer)
  obtain ⟨scanned, hsome⟩ := isSome_of_foldlM_isSome h k.edgeType hmem
  obtain ⟨⟨low, hlow, hle⟩, hchanges⟩ := unchangedSince_isSome hsome
  rw [hepoch] at hle hchanges
  rw [saturatingSucc_of_lt hn] at hchanges
  rcases since.logged k with hsame | ⟨s, hs, hsn, hentry⟩ | ⟨low', hlow', hlt⟩
  · exact hsame
  · obtain ⟨present, hread⟩ :=
      Changelog.mem_changesIn hentry (Nat.succ_le_of_lt hs) (Nat.lt_succ_of_le hsn)
    obtain ⟨hsrc, hdst⟩ := hchanges _ hread
    rcases hm with rfl | rfl
    · cases hv.symm.trans hsrc
    · cases hv.symm.trans hdst
  · rw [hlow] at hlow'
    cases hlow'
    exact absurd hlt (Nat.not_lt.2 hle)

/-! ## The loop over the incident edges -/

namespace VertexDeleteBatch

/-- The cell in the middle of the loop, with what is still owed. -/
def draft (b : VertexDeleteBatch) : Draft :=
  ⟨b.cell, .decrements b.outDecrements b.inDecrements⟩

/-- What the loop of a batch keeps. Edges only go, and those visited are gone. The segment positions
of the others are as they were, which is what the cached read answers. -/
structure Reached (F : VertexMetadata → Prop) (g : Regime) (n : StorageSequence) (c : Cell)
    (done : List EdgeKey) (b : VertexDeleteBatch) : Prop where
  steps : Steps F g (n + 1) ⟨c, .zero⟩ b.draft
  vertices : b.cell.vertices = c.vertices
  segments : ∀ k, k ∉ done → (b.cell.topology.SegVisible k ↔ c.topology.SegVisible k)
  shrinks : ∀ k, b.cell.topology.Visible k → c.topology.Visible k
  gone : g.trusted = true → ∀ k ∈ done, ¬ b.cell.topology.Visible k

theorem Reached.start (c : Cell) : (start c).Reached F g n c [] where
  steps := .refl
  vertices := rfl
  segments _ _ := Iff.rfl
  shrinks _ h := h
  gone _ _ h := absurd h not_mem_nil

variable {b b' : VertexDeleteBatch} {done : List EdgeKey} {cellId : CellId} {k : EdgeKey}

/-- What remains to be shown of a round once its steps are known: what it does to visibility. -/
theorem Reached.extend (hb : b.Reached F g n c done) (steps : Steps F g (n + 1) b.draft b'.draft)
    (vertices : b'.cell.vertices = b.cell.vertices)
    (segments : ∀ k', k' ≠ k → (b'.cell.topology.SegVisible k' ↔ b.cell.topology.SegVisible k'))
    (shrinks : ∀ k', b'.cell.topology.Visible k' → b.cell.topology.Visible k')
    (gone : g.trusted = true → ¬ b'.cell.topology.Visible k) :
    b'.Reached F g n c (done ++ [k]) where
  steps := hb.steps.trans steps
  vertices := vertices.trans hb.vertices
  segments k' hk' := by
    rw [mem_snoc, not_or] at hk'
    exact (segments k' hk'.2).trans (hb.segments k' hk'.1)
  shrinks k' hk' := hb.shrinks k' (shrinks k' hk')
  gone ht k' hk' hv := by
    rcases mem_snoc.1 hk' with hk' | rfl
    · exact hb.gone ht k' hk' (shrinks k' hv)
    · exact gone ht hv

section

variable (ok : CellOk g n c) (hb : b.Reached F g n c done)

include ok hb

theorem Reached.deleteDirect {segment}
    (policy : env.reverseIndex = g.reverseIndex) (direct : b.cell.topology.Direct k)
    (h : b.deleteEdge env cellId (n + 1) k true segment = .ok b') :
    b'.Reached F g n c (done ++ [k]) := by
  obtain ⟨c₁, hunlink, h⟩ := bind_ok h
  cases h
  have draft := ok.steps hb.steps
  have hsteps := Steps.unlinkDirect (F := F) draft rfl direct (fun hr => policy.trans hr) hunlink
  rw [← Ledger.decrements_edge policy] at hsteps
  obtain ⟨edgeMetadata, -, rfl⟩ := Cell.unlinkEdge_ok hunlink
  refine hb.extend hsteps rfl (fun k' _ => Topology.segVisible_removeDirect) ?_ ?_
  · exact fun k' => Or.imp_left fun hd => (Topology.direct_removeDirect.1 hd).2
  · exact fun ht hv =>
      ((Topology.visible_removeDirect (draft.adjacency.disjoint ht k direct)).1 hv).1 rfl

theorem Reached.deleteSegment
    (hidden : ¬ b.cell.topology.Direct k) (shown : b.cell.topology.SegVisible k)
    (h : b.deleteEdge env cellId (n + 1) k false true = .ok b') :
    b'.Reached F g n c (done ++ [k]) := by
  obtain ⟨c₁, hunlink, h⟩ := bind_ok h
  cases h
  have draft := ok.steps hb.steps
  have hsteps := Steps.unlinkSegment (F := F) draft rfl hidden shown hunlink
  rw [← Ledger.decrements_bumpOut] at hsteps
  obtain ⟨edgeMetadata, -, rfl⟩ := Cell.unlinkEdge_ok hunlink
  have hsegments : ∀ k', (b.cell.topology.putTombstone k (n + 1)).SegVisible k' ↔
      k' ≠ k ∧ b.cell.topology.SegVisible k' := fun k' =>
    Topology.segVisible_putTombstone draft.adjacency.bounded
  refine hb.extend hsteps rfl (fun k' hk' => (hsegments k').trans (and_iff_right hk')) ?_ ?_
  · exact fun k' => Or.imp_right fun hs => ((hsegments k').1 hs).2
  · exact fun _ hv =>
      ((Topology.visible_putTombstone draft.adjacency.bounded hidden).1 hv).1 rfl

/-- An incident edge that is not there may still have had relationships when it was found. -/
theorem Reached.deleteRemains (hidden : ¬ b.cell.topology.Visible k)
    (h : b.deleteEdge env cellId (n + 1) k false false = .ok b') :
    b'.Reached F g n c (done ++ [k]) := by
  cases h
  have draft := ok.steps hb.steps
  exact hb.extend (Steps.deleteForEdge draft.relationships rfl).1 rfl (fun _ _ => Iff.rfl)
    (fun _ hv => hv) fun _ => hidden

theorem Reached.step (policy : env.reverseIndex = g.reverseIndex)
    (hnew : k ∉ done) (h : b.step env cellId c pending detach n (n + 1) k = .ok b') :
    b'.Reached F g n c (done ++ [k]) := by
  replace h := seq_ok h
  split at h
  · cases h
  obtain ⟨b₁, hdelete, h⟩ := bind_ok h
  cases h
  suffices hreached : b₁.Reached F g n c (done ++ [k]) from
    ⟨hreached.steps, hreached.vertices, hreached.segments, hreached.shrinks, hreached.gone⟩
  generalize hs : (!env.reverseIndex && (c.topology.outSegmentEdgesForSrc k.edgeType k.src
    n).contains k.dst) = segment at hdelete
  have hsegment : segment = true ↔ b.cell.topology.SegVisible k := by
    rw [← hs, hb.segments k hnew, policy, Bool.and_eq_true, contains_iff,
      Topology.isSome_get_outSegmentEdgesForSrc ok.adjacency.bounded, Bool.not_eq_true']
    refine and_iff_right_of_imp fun hk => Bool.eq_false_iff.2 fun hr => ?_
    exact ok.adjacency.not_segVisible hr hk
  cases hdirect : b.cell.topology.outEdges.contains k with
  | true =>
    rw [hdirect] at hdelete
    exact hb.deleteDirect ok policy hdirect hdelete
  | false =>
    have hnot : ¬ b.cell.topology.Direct k := by
      rw [Topology.Direct, hdirect]
      exact Bool.false_ne_true
    rw [hdirect] at hdelete
    cases segment with
    | true => exact hb.deleteSegment ok hnot (hsegment.1 rfl) hdelete
    | false =>
      refine hb.deleteRemains ok (fun hv => ?_) hdelete
      cases hsegment.2 (hv.resolve_left hnot)

/-- Subtracting the decrements settles what the loop owes. -/
theorem Reached.counters : Committed F g (n + 1) c b.counters := by
  have hout := hb.steps.tail (.subtractOut (ok.steps hb.steps))
  exact hout.tail (Step.to (.subtractIn (ok.steps hout)) rfl
    (Ledger.decrements_zero (fun _ => rfl) fun _ => rfl).symm)

end

end VertexDeleteBatch

/-! ## The vertices that are deleted -/

theorem contains_deletionVertices :
    (deletionVertices deletions).contains v = true ↔ ∃ d ∈ deletions, d.vertex = v := by
  rw [deletionVertices, contains_addAll, contains_empty, mem_map]
  simp

theorem contains_detachVertices :
    (detachVertices deletions).contains v = true ↔
      ∃ d ∈ deletions, d.detach = true ∧ d.vertex = v := by
  rw [detachVertices, contains_deletionVertices]
  simp [and_assoc]

theorem contains_connectedVertices (hv : vertices.contains v = true)
    (hk : edges.contains k = true) (hm : k.Meets v) (htouch : k.touches detach = false) :
    (connectedVertices vertices detach edges).contains v = true := by
  refine contains_addAll.2 (.inl (mem_filter.2 ⟨mem_flatMap.2 ⟨k, ?_, ?_⟩, hv⟩))
  · refine mem_filter.2 ⟨mem_keys_iff_contains.2 hk, ?_⟩
    rw [htouch]
    rfl
  · rcases hm with rfl | rfl
    · exact mem_cons_self
    · exact mem_cons_of_mem _ (mem_singleton_self _)

/-- A candidate that is deleted is not among the connected vertices. -/
theorem VertexDeleteBatch.not_connected
    (h : deletesVertex env mode connected p = true) (hdetach : p.deletion.detach = false)
    (hmode : mode.isolates = true) : connected.contains p.deletion.vertex = false := by
  unfold deletesVertex at h
  cases hpattern : p.matchesPattern env <;> cases hconnected : connected.contains p.deletion.vertex
  all_goals simp_all

/-- After the loop no visible edge is left at a vertex that is deleted. -/
theorem Discovered.isolated {b : VertexDeleteBatch}
    (found : Discovered c.topology (deletionVertices deletions)
      (isolationDetachSet mode deletions) edges)
    (hdetach : mode = .detach → ∀ d ∈ deletions, d.detach = true)
    (hcheck : checkConnected env mode pending edges connected = .ok u)
    (hb : b.Reached F g n c (edges.keys.filter fun k => k.touches (detachVertices deletions)))
    (ht : g.trusted = true) (hp : p.deletion ∈ deletions)
    (hdeletes : VertexDeleteBatch.deletesVertex env mode
      (connectedVertices (deletionVertices deletions) (detachVertices deletions) edges) p = true)
    (hm : k.Meets p.deletion.vertex) : ¬ b.cell.topology.Visible k := by
  intro hv
  have hc : c.topology.Visible k := hb.shrinks k hv
  have hvertex : (deletionVertices deletions).contains p.deletion.vertex = true :=
    contains_deletionVertices.2 ⟨p.deletion, hp, rfl⟩
  -- an edge that is found and touches a detached vertex was deleted
  have hdetached : ∀ v, (detachVertices deletions).contains v = true → k.Meets v → False := by
    intro v hdetached hm
    obtain ⟨d, hd, -, hdv⟩ := contains_detachVertices.1 hdetached
    have hk := found.complete v (contains_deletionVertices.2 ⟨d, hd, hdv⟩) (fun detach hiso => by
      cases (Option.ite_none_right_eq_some.1 hiso).2
      exact hdetached) k hc hm
    exact hb.gone ht k (mem_filter.2 ⟨mem_keys_iff_contains.2 hk,
      EdgeKey.touches_iff.2 ⟨v, hdetached, hm⟩⟩) hv
  cases hdet : p.deletion.detach with
  | true => exact hdetached _ (contains_detachVertices.2 ⟨p.deletion, hp, hdet, rfl⟩) hm
  | false =>
    cases hisolates : mode.isolates with
    | false =>
      have hk := found.complete _ hvertex (fun detach hiso => by
        cases hisolates.symm.trans (Option.ite_none_right_eq_some.1 hiso).1) k hc hm
      cases mode with
      | detach => cases (hdetach rfl _ hp).symm.trans hdet
      | rejectConnected =>
        obtain ⟨hempty, hcheck⟩ := else_of_ne hcheck nofun
        rw [not_and, not_not, List.isEmpty_iff] at hempty
        obtain ⟨_, hget⟩ := get_of_contains hk
        have := mem_entries.2 hget
        rw [hempty rfl] at this
        cases this
      | isolatedOnly | detachAndIsolated => cases hisolates
    | true =>
      have hnot := VertexDeleteBatch.not_connected hdeletes hdet hisolates
      cases htouch : k.touches (detachVertices deletions) with
      | false =>
        obtain ⟨k', hk', hm', htouch'⟩ :=
          found.witness _ _ hvertex (if_pos hisolates) k hc hm htouch
        cases (contains_connectedVertices hvertex hk' hm' htouch').symm.trans hnot
      | true =>
        obtain ⟨v, hv, hm⟩ := EdgeKey.touches_iff.1 htouch
        exact hdetached v hv hm

/-! ## The records of the vertices -/

/-- The loop that deletes the vertex records. A vertex not yet visited has the record it had. -/
theorem Steps.settleVertices (distinct : (pending.map fun p => p.deletion.vertex).Nodup)
    (previous : ∀ p ∈ pending, p.previous = b.counters.vertices.records.get p.deletion.vertex)
    (isolated : g.trusted = true → g.uncapped = true → ∀ p ∈ pending,
      VertexDeleteBatch.deletesVertex env mode connected p = true →
      ∀ k : EdgeKey, k.Meets p.deletion.vertex → ¬ b.counters.topology.Visible k) :
    Steps F g (n + 1) ⟨b.counters, .zero⟩
      ⟨(pending.zipIdx.foldl (VertexDeleteBatch.settle env cellId mode n (n + 1) connected b)
        (b.counters, [])).1, .zero⟩ := by
  have hfst : pending.zipIdx.map Prod.fst = pending := zipIdx_map_fst 0 pending
  have key := foldl_induction
    (f := VertexDeleteBatch.settle env cellId mode n (n + 1) connected b) (l := pending.zipIdx)
    (b := (b.counters, []))
    (P := fun done acc => Steps F g (n + 1) ⟨b.counters, .zero⟩ ⟨acc.1, .zero⟩ ∧
      acc.1.topology = b.counters.topology ∧
      ∀ v, v ∉ done.map (fun p => p.1.deletion.vertex) →
        acc.1.vertices.records.get v = b.counters.vertices.records.get v)
    ⟨.refl, rfl, fun _ _ => rfl⟩ ?_
  · exact key.1
  rintro done ⟨p, index⟩ rest acc hl ⟨hsteps, htopology, hsame⟩
  have hp : p ∈ pending := by
    rw [← hfst, ← hl, map_append]
    exact mem_append_right _ mem_cons_self
  have hnew : p.deletion.vertex ∉ done.map fun p => p.1.deletion.vertex := fun hmem => by
    rw [← hfst, ← hl, map_map, map_append, nodup_append] at distinct
    exact distinct.2.2 _ hmem _ mem_cons_self rfl
  unfold VertexDeleteBatch.settle
  dsimp only
  split
  · next hdeletes =>
    have hsome : p.previous.isSome = true := by
      unfold VertexDeleteBatch.deletesVertex at hdeletes
      rw [Bool.and_eq_true, Bool.and_eq_true] at hdeletes
      exact hdeletes.1.1
    obtain ⟨metadata, hmetadata⟩ := Option.isSome_iff_exists.1 hsome
    have hpresent : acc.1.vertices.records.get p.deletion.vertex = some metadata := by
      rw [hsame _ hnew, ← previous p hp, hmetadata]
    rw [hmetadata]
    refine ⟨(hsteps.tail (.deleteVertex p.deletion.vertex metadata hpresent ?_)).tail
      (.putIdempotency _ _ _), htopology, fun v hv => ?_⟩
    · intro ht hu k hm
      rw [htopology]
      exact isolated ht hu p hp hdeletes k hm
    · rw [not_mem_map_snoc] at hv
      exact (get_del_of_ne hv.2).trans (hsame v hv.1)
  · refine ⟨hsteps.tail (.putIdempotency _ _ _), htopology, fun v hv => hsame v fun hmem => ?_⟩
    exact hv (by rw [map_append]; exact mem_append_left _ hmem)

/-! ## The transaction -/

theorem splitReplays_ok (h : splitReplays cellId c mode deletions = .ok entries) :
    entries.filterMap Sum.getRight? = (pendingDeletions c mode deletions).map fun d =>
      ⟨d, c.vertices.records.get d.vertex⟩ := by
  have hentries := mapM_ok h
  clear h
  induction hentries with
  | nil => rfl
  | @cons d entry deletions entries hentry _ ih =>
    split at hentry
    · next record hrecord =>
      obtain ⟨result, -, hentry⟩ := bind_ok hentry
      cases hentry
      rw [pendingDeletions, filter_cons_of_neg, filterMap_cons_none rfl, ih]
      · rfl
      · rw [contains_of_get hrecord]
        exact Bool.false_ne_true
    · next hnone =>
      cases hentry
      rw [pendingDeletions, filter_cons_of_pos]
      · exact congrArg (List.cons _) ih
      · rw [OrdMap.contains, hnone]
        rfl

/-- The deletions of a request that wait are determined by their vertices. -/
theorem pendingDeletions_congr (distinct : (deletions.map VertexDeletion.vertex).Nodup)
    (h : deletionVertices (pendingDeletions c mode deletions) =
      deletionVertices (pendingDeletions c₀ mode deletions)) :
    pendingDeletions c mode deletions = pendingDeletions c₀ mode deletions := by
  have key : ∀ {c c₀ : Cell}, deletionVertices (pendingDeletions c mode deletions) =
      deletionVertices (pendingDeletions c₀ mode deletions) →
      ∀ d ∈ pendingDeletions c mode deletions, d ∈ pendingDeletions c₀ mode deletions := by
    intro c c₀ h d hd
    obtain ⟨d', hd', hvertex⟩ :=
      contains_deletionVertices.1 (h ▸ contains_deletionVertices.2 ⟨d, hd, rfl⟩)
    obtain rfl := inj_on_of_nodup_map distinct (mem_filter.1 hd').1 (mem_filter.1 hd).1 hvertex
    exact hd'
  refine filter_congr fun d hd => Bool.eq_iff_iff.2 ⟨fun hpend => ?_, fun hpend => ?_⟩
  · exact (mem_filter.1 (key h d (mem_filter.2 ⟨hd, hpend⟩))).2
  · exact (mem_filter.1 (key h.symm d (mem_filter.2 ⟨hd, hpend⟩))).2

/-- A preparation made for a request on the same cell at an earlier sequence. -/
def Prepared (g : Regime) (mode : VertexDeleteBatchMode) (deletions : List VertexDeletion)
    (n : StorageSequence) (c : Cell) (p : PreparedVertexDelete) : Prop :=
  ∃ (env₀ : WriteEnv) (cellId : CellId) (c₀ : Cell), env₀.reverseIndex = g.reverseIndex ∧
    CellOk g p.epoch c₀ ∧ Since p.epoch c₀ n c ∧
    prepareVertexDelete env₀ cellId deletions mode p.epoch c₀ = .ok (some p)

section

variable (ok : CellOk g n c) (policy : env.reverseIndex = g.reverseIndex)

include ok policy

/-- What a transaction discovers itself. -/
theorem vertexDeleteIncidentEdges_none
    (h : vertexDeleteIncidentEdges env cellId mode deletions none n c = .ok edges) :
    SoundDiscovery c.topology (deletionVertices deletions) (isolationDetachSet mode deletions)
      edges := by
  unfold vertexDeleteIncidentEdges at h
  dsimp only at h
  split at h
  · next hr =>
    obtain ⟨discovery, hdiscovery, h⟩ := bind_ok h
    cases h
    exact (indexedVertexDeleteDiscovery_ok ok (policy.symm.trans hr) hdiscovery).2
  · exact fullScanIncidentEdgesForVertices_ok ok h

/-- Whichever way the incident edges were found, they are those of the cell. -/
theorem vertexDeleteIncidentEdges_ok (hn : n + 1 < u64Bound)
    (distinct : (deletions.map VertexDeletion.vertex).Nodup)
    (hprepared : ∀ p, prepared = some p → Prepared g mode deletions n c p)
    (h : vertexDeleteIncidentEdges env cellId mode (pendingDeletions c mode deletions) prepared n
      c = .ok edges) :
    Discovered c.topology (deletionVertices (pendingDeletions c mode deletions))
      (isolationDetachSet mode (pendingDeletions c mode deletions)) edges := by
  cases prepared with
  | some p =>
    obtain ⟨hcurrent, h⟩ := then_of_ne h nofun
    cases h
    obtain ⟨env₀, cellId₀, c₀, policy₀, ok₀, since, hprepare⟩ := hprepared p rfl
    obtain ⟨hvertices, -, hcatalog, hfound⟩ := prepareVertexDelete_ok ok₀ policy₀ hprepare
    have hsame := pendingDeletions_congr distinct (hcurrent.1.trans hvertices)
    rw [hcurrent.1, hsame]
    refine (hfound.congr fun k v hv hm => ?_).toDiscovered
    exact visible_iff_of_current hn ok₀ since hcatalog hcurrent.2 hv hm
  | none => exact (vertexDeleteIncidentEdges_none ok policy h).toDiscovered

theorem deleteVertexMutationsBatchTxn_committed
    (distinct : (deletions.map VertexDeletion.vertex).Nodup)
    (hdetach : mode = .detach → ∀ d ∈ deletions, d.detach = true)
    (hprepared : g.uncapped = true → ∀ p, prepared = some p → Prepared g mode deletions n c p)
    (h : deleteVertexMutationsBatchTxn env cellId deletions mode prepared n c = .ok (.commit c' r))
    : Committed F g (n + 1) c c' := by
  replace h := seq_ok h
  obtain ⟨e, he, h⟩ := bind_ok h
  cases nextSequence_ok he
  obtain ⟨entries, hentries, h⟩ := bind_ok h
  have hpending := splitReplays_ok hentries
  dsimp only at h
  generalize entries.filterMap Sum.getRight? = pending at h hpending
  have hrequested : pending.map deletion = pendingDeletions c mode deletions := by
    rw [hpending, map_map]
    exact map_id _
  have hsublist : (pendingDeletions c mode deletions).Sublist deletions := filter_sublist
  rw [hrequested] at h
  replace h := rest_of_ne h nofun
  obtain ⟨edges, hedges, h⟩ := bind_ok h
  obtain ⟨_, hcheck, h⟩ := bind_ok h
  obtain ⟨b, hloop, h⟩ := bind_ok h
  cases commitTxn_ok h
  have hb : b.Reached F g n c (edges.keys.filter fun k =>
      k.touches (detachVertices (pendingDeletions c mode deletions))) := by
    refine foldlM_ok_induction hloop (.start c) ?_
    intro done k rest b b' hl hb hstep
    exact hb.step ok policy (not_mem_done (nodup_keys.filter _) hl) hstep
  refine (hb.counters ok).trans (Steps.settleVertices ?_ (fun p hp => ?_) ?_)
  · have hvertices := hsublist.map VertexDeletion.vertex
    rw [← hrequested, map_map] at hvertices
    exact distinct.sublist hvertices
  · rw [hpending] at hp
    obtain ⟨d, -, rfl⟩ := mem_map.1 hp
    exact congrArg (fun vertices => vertices.records.get d.vertex) hb.vertices.symm
  intro ht hu p hp hdeletes k hm
  have found := vertexDeleteIncidentEdges_ok ok policy (nextSequence_lt he) distinct
    (hprepared hu) hedges
  refine found.isolated (fun hmode d hd => hdetach hmode d (hsublist.subset hd)) hcheck hb ht ?_
    hdeletes hm
  rw [← hrequested]
  exact mem_map_of_mem hp

end

/-! ## Requests -/

theorem nodup_retainFirst (seen : OrdMap VertexId Unit) (deletions : List VertexDeletion) :
    ((retainFirst seen deletions).map VertexDeletion.vertex).Nodup ∧
      ∀ d ∈ retainFirst seen deletions, seen.contains d.vertex = false := by
  induction deletions generalizing seen with
  | nil => exact ⟨nodup_nil, nofun⟩
  | cons d deletions ih =>
    unfold retainFirst
    split
    · exact ih seen
    next hnew =>
    obtain ⟨hnodup, hseen⟩ := ih (seen.put d.vertex ())
    have hother : ∀ d' ∈ retainFirst (seen.put d.vertex ()) deletions,
        d'.vertex ≠ d.vertex ∧ seen.contains d'.vertex = false := by
      intro d' hd'
      have h := Bool.eq_false_iff.1 (hseen d' hd')
      rw [ne_eq, contains_put, not_or] at h
      exact ⟨h.1, Bool.eq_false_iff.2 h.2⟩
    refine ⟨nodup_cons.2 ⟨fun hmem => ?_, hnodup⟩, fun d' hd' => ?_⟩
    · obtain ⟨d', hd', heq⟩ := mem_map.1 hmem
      exact (hother d' hd').1 heq
    · rcases mem_cons.1 hd' with rfl | hd'
      · exact Bool.eq_false_iff.2 hnew
      · exact (hother d' hd').2

theorem retainFirst_sublist (seen : OrdMap VertexId Unit) (deletions : List VertexDeletion) :
    (retainFirst seen deletions).Sublist deletions := by
  induction deletions generalizing seen with
  | nil => exact .refl _
  | cons d deletions ih =>
    unfold retainFirst
    split
    · exact (ih _).cons _
    · exact (ih _).cons_cons _

theorem deleteVertexMutationRequestsBatchWithMode_committed (ok : CellOk g n c)
    (policy : env.reverseIndex = g.reverseIndex)
    (hdetach : mode = .detach → ∀ d ∈ deletions, d.detach = true)
    (hprepared : g.uncapped = true → ∀ p, prepared = some p →
      Prepared g mode (retainFirst ∅ deletions) n c p)
    (h : deleteVertexMutationRequestsBatchWithMode env cellId deletions mode prepared n c =
      .ok (.commit c' r)) : Committed F g (n + 1) c c' := by
  replace h := seq_ok₃ h
  split at h
  · cases h
  · exact deleteVertexMutationsBatchTxn_committed ok policy (nodup_retainFirst ∅ deletions).1
      (fun hmode d hd => hdetach hmode d ((retainFirst_sublist ∅ deletions).subset hd)) hprepared h

end HydraDb
