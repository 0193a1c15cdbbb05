import HydraDb.Index.KernelWalks

/-!
# Reachability

A reachability request is served in one of several ways (`matrix_reachable_with_kernel`,
`engine/traversal.rs`): by the compiled matrix of the index, by that matrix with the overlay of the
changes since (`expand_range_with_overlay`, `shard/topology_tail.rs`), hop by hop from storage
(`reachable_from_storage_frontier`, `shard/query.rs`), or by a search of the canonical adjacency.

The overlay search asks the compiled matrix for the successors of a frontier, and the matrix leaves
out those in the frontier itself. So its frontiers are `Walk.maskedLayer`, not the layers of the
patched graph: what it answers for a range is exact just when no frontier has an inner edge that the
overlay does not add (`expandRangeWithOverlay_iff`). For reachability, where the starts are left out
and only the shortest walk to a vertex counts, nothing is lost.
-/

namespace HydraDb

open OrdMap List
open GraphBlasCsc (Mxv)
open Walk hiding next

variable {r : SparseTraversal} {starts : List VertexId}

/-! ## Compiled matrices -/

/-- `CompiledGraphBlasMatrix`: a matrix that passed its validation, and the kernel it was compiled
for. -/
structure CompiledGraphBlasMatrix where
  csc : GraphBlasCsc
  kernel : SparseKernelBackend
  valid : csc.validate = .ok ()

/-- `compiled_kernel`. -/
def compiledKernel : SparseKernelBackend → SparseKernelBackend
  | .suiteSparse => .suiteSparse
  | .adjacency | .compactCsc => .compactCsc

namespace CompiledGraphBlasMatrix

/-- `new_from_csc`. -/
def newFromCsc (csc : GraphBlasCsc) (kernel : SparseKernelBackend) :
    Except GraphError CompiledGraphBlasMatrix :=
  match h : csc.validate with
  | .error err => .error err
  | .ok () => .ok ⟨csc, compiledKernel kernel, h⟩

/-- `expand`. -/
def expand (m : CompiledGraphBlasMatrix) (mxv : Mxv) (starts : List VertexId) (hops : UInt8) :
    Except GraphError SparseTraversal :=
  if m.kernel = .compactCsc then m.csc.expand starts hops
  else m.csc.expandCompiled mxv starts hops

/-- `expand_range`. -/
def expandRange (m : CompiledGraphBlasMatrix) (mxv : Mxv) (starts : List VertexId)
    (minHops maxHops : UInt8) : Except GraphError SparseTraversal :=
  if m.kernel = .compactCsc then m.csc.expandRange starts minHops maxHops
  else m.csc.expandRangeCompiled mxv starts minHops maxHops

section

variable (m : CompiledGraphBlasMatrix) {mxv : Mxv} (standard : mxv.Standard)

include m

theorem wellFormed : m.csc.WellFormed :=
  GraphBlasCsc.wellFormed_of_validate m.valid

include standard

theorem expand_lists (h : m.expand mxv starts hops = .ok r) :
    Lists r.vertices (between m.csc.Edge (startSet starts) 1 hops.toNat \ startSet starts) := by
  unfold expand at h
  split at h
  · exact GraphBlasCsc.expand_lists m.wellFormed h
  · exact GraphBlasCsc.expandCompiled_lists standard m.wellFormed h

theorem expand_isOk : ∃ r, m.expand mxv starts hops = .ok r := by
  unfold expand
  split
  · exact GraphBlasCsc.expand_isOk starts hops
  · exact GraphBlasCsc.expandCompiled_isOk standard m.wellFormed

theorem expandRange_lists
    (hmin : 1 ≤ minHops.toNat) (h : m.expandRange mxv starts minHops maxHops = .ok r) :
    Lists r.vertices (between m.csc.Edge (startSet starts) minHops.toNat maxHops.toNat) := by
  rw [GraphBlasCsc.WellFormed.between_startSet hmin]
  unfold expandRange at h
  split at h
  · exact GraphBlasCsc.expandRange_present m.wellFormed h
  · exact GraphBlasCsc.expandRangeCompiled_present standard m.wellFormed h

end

end CompiledGraphBlasMatrix

/-! ## The overlay search -/

/-- The state of `expand_range_with_overlay`, and of the search from storage. -/
structure RangeSearch where
  frontier : OrdMap VertexId Unit
  reachable : OrdMap VertexId Unit
  edgeVisits : Nat

/-- An edge of the matrix patched by the overlay. -/
def patchedEdge (m : CompiledGraphBlasMatrix) (overlay : GraphTopologyOverlay)
    (src dst : VertexId) : Bool :=
  (overlay.state src dst).getD (m.csc.containsEdge src dst)

/-- A change of the overlay at a source of the frontier. -/
def overlayChange (m : CompiledGraphBlasMatrix) (overlay : GraphTopologyOverlay)
    (frontier next : OrdMap VertexId Unit) (change : VertexId × Bool) : OrdMap VertexId Unit :=
  if change.2 then next.put change.1 ()
  else if next.contains change.1 &&
      !(frontier.keys.any fun candidate => patchedEdge m overlay candidate change.1) then
    next.del change.1
  else next

/-- The changes of the overlay at a source of the frontier. -/
def overlaySource (m : CompiledGraphBlasMatrix) (overlay : GraphTopologyOverlay)
    (frontier : OrdMap VertexId Unit) (state : OrdMap VertexId Unit × Nat) (src : VertexId) :
    OrdMap VertexId Unit × Nat :=
  match overlay.states.get src with
  | none => state
  | some changes =>
    (changes.entries.foldl (overlayChange m overlay frontier) state.1,
      saturatingAdd state.2 changes.entries.length)

/-- One hop of `expand_range_with_overlay`. -/
def overlayHop (mxv : Mxv) (m : CompiledGraphBlasMatrix) (overlay : GraphTopologyOverlay)
    (minHops : Nat) (hop : Nat) (s : RangeSearch) : Except GraphError (RangeSearch × Bool) :=
  if s.frontier.keys.isEmpty then .ok (s, true)
  else do
    let base ← m.expand mxv s.frontier.keys 1
    let (next, edgeVisits) := s.frontier.keys.foldl (overlaySource m overlay s.frontier)
      (OrdMap.addAll ∅ base.vertices, saturatingAdd s.edgeVisits base.edgeVisits)
    return (⟨next, if minHops ≤ hop then s.reachable.addAll next.keys else s.reachable,
      edgeVisits⟩, false)

/-- `expand_range_with_overlay`. -/
def expandRangeWithOverlay (mxv : Mxv) (m : CompiledGraphBlasMatrix)
    (overlay : GraphTopologyOverlay) (starts : List VertexId) (minHops maxHops : UInt8) :
    Except GraphError SparseTraversal := do
  let s ← rounds (overlayHop mxv m overlay minHops.toNat) maxHops.toNat 0
    ⟨OrdMap.addAll ∅ starts, ∅, 0⟩
  return ⟨s.reachable.keys, s.edgeVisits, m.kernel⟩

/-! ## The search from storage -/

/-- The limits of a traversal. -/
structure TraversalLimits extends GraphLimits where
  maxTraversalHops : Nat
  maxQueryResultVertices : Nat

/-- A source in `reachable_from_storage_frontier`. -/
def storageSource (limits : TraversalLimits) (t : Topology) (edgeType : EdgeType)
    (readEpoch : StorageSequence) (state : OrdMap VertexId Unit × Nat) (source : VertexId) :
    Except GraphError (OrdMap VertexId Unit × Nat) := do
  let neighbors := t.outNeighborsForSrc edgeType source readEpoch
  let edgeVisits := saturatingAdd state.2 neighbors.keys.length
  ensureLimit "graph_storage_frontier_edges" edgeVisits limits.maxQueryScanEdges
  return (state.1.addAll neighbors.keys, edgeVisits)

/-- One hop of `reachable_from_storage_frontier`. -/
def storageHop (limits : TraversalLimits) (t : Topology) (edgeType : EdgeType)
    (readEpoch : StorageSequence) (minHops : Nat) (hop : Nat) (s : RangeSearch) :
    Except GraphError (RangeSearch × Bool) :=
  if s.frontier.keys.isEmpty then .ok (s, true)
  else do
    let (next, edgeVisits) ← s.frontier.keys.foldlM (storageSource limits t edgeType readEpoch)
      (∅, s.edgeVisits)
    ensureLimit "graph_storage_frontier_vertices" next.keys.length limits.maxQueryIntermediateRows
    let reachable := if minHops ≤ hop then s.reachable.addAll next.keys else s.reachable
    if minHops ≤ hop then
      ensureLimit "graph_storage_reachable_vertices" reachable.keys.length
        limits.maxQueryResultVertices
    return (⟨next, reachable, edgeVisits⟩, false)

/-- `reachable_from_storage_frontier`, at the snapshot `t`. -/
def reachableFromStorageFrontier (limits : TraversalLimits) (t : Topology) (edgeType : EdgeType)
    (src : VertexId) (minHops maxHops : UInt8) (readEpoch : StorageSequence) :
    Except GraphError SparseTraversal := do
  let s ← rounds (storageHop limits t edgeType readEpoch minHops.toNat) maxHops.toNat 0
    ⟨OrdMap.addAll ∅ [src], ∅, 0⟩
  return ⟨s.reachable.keys, s.edgeVisits, .adjacency⟩

/-! ## What the overlay search finds -/

section

variable {m : CompiledGraphBlasMatrix} {overlay : GraphTopologyOverlay} {s : RangeSearch}

/-- An edge of the patched graph. -/
def Patched (m : CompiledGraphBlasMatrix) (overlay : GraphTopologyOverlay) (src dst : VertexId) :
    Prop := patchedEdge m overlay src dst = true

/-- An edge that the overlay adds. -/
def Added (overlay : GraphTopologyOverlay) (src dst : VertexId) : Prop :=
  overlay.state src dst = some true

theorem Added.patched (h : Added overlay src dst) : Patched m overlay src dst := by
  rw [Patched, patchedEdge, h]
  rfl

/-- After some changes of the frontier's sources: a destination is found if a change adds it, or if
the matrix found it and no change took it away for good. -/
def Changed (m : CompiledGraphBlasMatrix) (overlay : GraphTopologyOverlay)
    (frontier base : Set VertexId) (seen : VertexId → Bool → Prop) (next : OrdMap VertexId Unit) :
    Prop :=
  ∀ v, next.contains v = true ↔
    seen v true ∨ (v ∈ base ∧ (seen v false → v ∈ Walk.next (Patched m overlay) frontier))

theorem Changed.overlayChange {frontier} (h : Changed m overlay (members frontier) base seen next')
    (added : ∀ v, seen v true → v ∈ Walk.next (Patched m overlay) (members frontier)) :
    Changed m overlay (members frontier) base (fun v b => seen v b ∨ (v, b) = change)
      (overlayChange m overlay frontier next' change) := by
  obtain ⟨dst, present⟩ := change
  intro v
  have hcandidate : (frontier.keys.any fun candidate => patchedEdge m overlay candidate dst) =
      true ↔ dst ∈ Walk.next (Patched m overlay) (members frontier) := by
    rw [any_eq_true]
    simp only [mem_keys_iff_contains]
    rfl
  cases present with
  | true =>
    rw [HydraDb.overlayChange, if_pos rfl, contains_put, h v]
    simp only [Prod.mk.injEq, and_true, Bool.false_eq_true, and_false, or_false]
    tauto
  | false =>
    simp only [HydraDb.overlayChange, Bool.false_eq_true, if_false, Prod.mk.injEq, and_true,
      Bool.true_eq_false, and_false, or_false]
    split
    · next hgone =>
      rw [Bool.and_eq_true, Bool.not_eq_true', Bool.eq_false_iff, ne_eq, hcandidate] at hgone
      rw [contains_del, h v]
      by_cases hv : v = dst
      · subst hv
        have hnot : ¬ seen v true := fun hs => hgone.2 (added v hs)
        tauto
      · tauto
    · next hkeep =>
      rw [Bool.and_eq_true, Bool.not_eq_true', Bool.eq_false_iff, ne_eq, hcandidate] at hkeep
      by_cases hv : v = dst
      · subst hv
        have hv := h v
        tauto
      · rw [h v]
        tauto

theorem Changed.congr {frontier} (h : Changed m overlay frontier base seen next')
    (heq : ∀ v b, seen v b ↔ seen' v b) : Changed m overlay frontier base seen' next' := by
  obtain rfl : seen = seen' := funext fun v => funext fun b => propext (heq v b)
  exact h

/-- The changes of all sources of the frontier. -/
theorem foldl_overlaySource (m : CompiledGraphBlasMatrix) (overlay : GraphTopologyOverlay)
    (frontier next : OrdMap VertexId Unit) (edgeVisits : Nat) :
    Changed m overlay (members frontier) (members next)
      (fun v b => ∃ u ∈ frontier.keys, overlay.state u v = some b)
      (frontier.keys.foldl (overlaySource m overlay frontier) (next, edgeVisits)).1 := by
  refine foldl_induction (P := fun done (state : OrdMap VertexId Unit × Nat) =>
    Changed m overlay (members frontier) (members next)
      (fun v b => ∃ u ∈ done, overlay.state u v = some b) state.1) (fun v => ?_) ?_
  · simp only [not_mem_nil, false_and, exists_false, false_or, false_implies, and_true]
    rfl
  intro done src rest state hsplit ih
  have hsrc : ∀ u ∈ done ++ [src], u ∈ members frontier := by
    intro u hu
    refine mem_keys_iff_contains.1 ?_
    rw [← hsplit, append_cons]
    exact mem_append_left rest hu
  have hdone : ∀ v b, (∃ u ∈ done ++ [src], overlay.state u v = some b) ↔
      (∃ u ∈ done, overlay.state u v = some b) ∨ overlay.state src v = some b := by
    intro v b
    rw [exists_mem_snoc]
  unfold overlaySource
  split
  · next hget =>
    refine ih.congr fun v b => ?_
    have hnone : overlay.state src v = none := by
      rw [GraphTopologyOverlay.state, hget]
      rfl
    rw [hdone, hnone]
    exact (or_iff_left (Option.some_ne_none b).symm).symm
  next changes hget =>
  have hstate : ∀ v b, overlay.state src v = some b ↔ (v, b) ∈ changes.entries := by
    intro v b
    rw [GraphTopologyOverlay.state, hget, mem_entries]
    rfl
  have hchanges := foldl_induction (f := HydraDb.overlayChange m overlay frontier)
    (l := changes.entries) (b := state.1)
    (P := fun row next' => Changed m overlay (members frontier) (members next)
      (fun v b => (∃ u ∈ done, overlay.state u v = some b) ∨ (v, b) ∈ row) next')
    (ih.congr fun v b => by simp) fun row change rest' next' hrow hnext' => by
      refine (hnext'.overlayChange (fun v hv => ?_)).congr fun v b => ?_
      · rcases hv with ⟨u, hu, hv⟩ | hv
        · exact ⟨u, hsrc u (mem_append_left _ hu), Added.patched hv⟩
        refine ⟨src, hsrc src (mem_append_right _ (mem_singleton_self src)),
          Added.patched ((hstate v true).2 ?_)⟩
        rw [← hrow]
        exact mem_append_left _ hv
      · rw [mem_snoc, or_assoc]
  exact hchanges.congr fun v b => by rw [hdone, hstate]

/-- The successors of a frontier, without those in the frontier that no change adds. -/
def overlayNext (m : CompiledGraphBlasMatrix) (overlay : GraphTopologyOverlay)
    (frontier : Set VertexId) : Set VertexId :=
  {v | v ∈ Walk.next (Patched m overlay) frontier ∧
    (v ∉ frontier ∨ v ∈ Walk.next (Added overlay) frontier)}

/-- A search that stops at an empty frontier. -/
theorem round_of_empty (h : new = ∅) :
    Walk.Round new {v | p ∧ v ∈ new} (members s.reachable) (members s.reachable)
      (members s.frontier) true :=
  ⟨by simp [h], nofun, fun _ => h⟩

/-- One hop of the overlay search. -/
theorem overlayHop_ok {mxv : Mxv} (standard : mxv.Standard)
    (h : overlayHop mxv m overlay minHops hop s = .ok (s', stop)) :
    Walk.Round (overlayNext m overlay (members s.frontier))
      {v | minHops ≤ hop ∧ v ∈ overlayNext m overlay (members s.frontier)} (members s.reachable)
      (members s'.reachable) (members s'.frontier) stop := by
  unfold overlayHop at h
  split at h
  · next hempty =>
    cases h
    refine round_of_empty (Set.eq_empty_of_forall_notMem ?_)
    rw [members_of_isEmpty hempty]
    rintro v ⟨⟨u, hu, -⟩, -⟩
    exact hu
  obtain ⟨base, hbase, h⟩ := bind_ok h
  cases h
  have hfrontier : startSet s.frontier.keys = members s.frontier :=
    Set.ext fun v => mem_keys_iff_contains
  have hmatrix : members (OrdMap.addAll ∅ base.vertices) =
      Walk.next m.csc.Edge (members s.frontier) \ members s.frontier := by
    have hone : between m.csc.Edge (members s.frontier) 1 1 =
        Walk.next m.csc.Edge (members s.frontier) := Walk.window_self
    have hlists := (m.expand_lists standard hbase).2
    rw [hfrontier] at hlists
    rw [members_addAll, members_empty, Set.empty_union, ← hone]
    exact Set.ext hlists
  have hchanged := foldl_overlaySource m overlay s.frontier (OrdMap.addAll ∅ base.vertices)
    (saturatingAdd s.edgeVisits base.edgeVisits)
  rw [hmatrix] at hchanged
  suffices hnext : ∀ v, _ ↔ v ∈ overlayNext m overlay (members s.frontier) from
    ⟨members_addAll_if fun v => mem_keys_iff_contains.trans (hnext v),
      fun _ => Set.ext hnext, nofun⟩
  · refine fun v => (hchanged v).trans ?_
    constructor
    · rintro (⟨u, hu, hadd⟩ | ⟨⟨⟨u, hu, hedge⟩, hnot⟩, hkeep⟩)
      · have hu := mem_keys_iff_contains.1 hu
        exact ⟨⟨u, hu, Added.patched hadd⟩, .inr ⟨u, hu, hadd⟩⟩
      refine ⟨?_, .inl hnot⟩
      cases hstate : overlay.state u v with
      | none =>
        refine ⟨u, hu, ?_⟩
        rw [Patched, patchedEdge, hstate]
        exact hedge
      | some b =>
        cases b with
        | true => exact ⟨u, hu, Added.patched hstate⟩
        | false => exact hkeep ⟨u, mem_keys_iff_contains.2 hu, hstate⟩
    · rintro ⟨hnext, hmask⟩
      by_cases hadd : v ∈ Walk.next (Added overlay) (members s.frontier)
      · obtain ⟨u, hu, hadd⟩ := hadd
        exact .inl ⟨u, mem_keys_iff_contains.2 hu, hadd⟩
      refine .inr ⟨⟨?_, hmask.resolve_right hadd⟩, fun _ => hnext⟩
      obtain ⟨u, hu, hpatched⟩ := hnext
      rw [Patched, patchedEdge] at hpatched
      cases hstate : overlay.state u v with
      | none =>
        rw [hstate] at hpatched
        exact ⟨u, hu, hpatched⟩
      | some b =>
        rw [hstate] at hpatched
        cases b with
        | true => exact absurd ⟨u, hu, hstate⟩ hadd
        | false => cases hpatched

theorem lists_reachable (h : members s.reachable = S) : Lists s.reachable.keys S :=
  ⟨pairwise_keys, fun _ => h ▸ mem_keys_iff_contains⟩

/-- Before the range, nothing is found. -/
theorem window_zero (hmin : 1 ≤ minHops) :
    members (∅ : OrdMap VertexId Unit) = window L minHops 0 := by
  rw [members_empty]
  refine (Set.eq_empty_of_forall_notMem ?_).symm
  rintro v ⟨k, hk, hzero, -⟩
  omega

/-- What the overlay search answers: its frontiers of the range. -/
theorem expandRangeWithOverlay_lists {mxv : Mxv} (standard : mxv.Standard)
    (hmin : 1 ≤ minHops.toNat)
    (h : expandRangeWithOverlay mxv m overlay starts minHops maxHops = .ok r) :
    Lists r.vertices (window (maskedLayer (Patched m overlay) (Added overlay) (startSet starts))
      minHops.toNat maxHops.toNat) := by
  obtain ⟨s, hs, h⟩ := bind_ok h
  cases h
  refine lists_reachable (rounds_window (fun s => members s.frontier)
    (fun s => members s.reachable) (I := fun _ _ => True) maskedLayer_eq_empty hs trivial
    (members_starts starts) (window_zero hmin) fun k s s' stop _ hfrontier hbody => ⟨trivial, ?_⟩)
  rw [maskedLayer, ← hfrontier]
  exact overlayHop_ok standard hbody

/-- The overlay search does not fail. -/
theorem expandRangeWithOverlay_isOk {mxv : Mxv} (standard : mxv.Standard) (starts : List VertexId)
    (minHops maxHops : UInt8) :
    ∃ r, expandRangeWithOverlay mxv m overlay starts minHops maxHops = .ok r := by
  refine bind_isOk (rounds_isOk (fun i s => ?_) _ _ _) fun s _ => ⟨_, rfl⟩
  unfold overlayHop
  split
  · exact ⟨_, rfl⟩
  · exact bind_isOk (m.expand_isOk standard) fun base _ => ⟨_, rfl⟩

end

/-! ## What the search from storage finds -/

section

variable {limits : TraversalLimits} {t : Topology} {edgeType : EdgeType} {e : StorageSequence}

/-- The visible edges of a type. -/
def VisibleEdge (t : Topology) (edgeType : EdgeType) (src dst : VertexId) : Prop :=
  t.Visible ⟨edgeType, src, dst⟩

/-- One hop of the search from storage. -/
theorem storageHop_ok (bounded : t.Bounded e)
    (h : storageHop limits t edgeType e minHops hop s = .ok (s', stop)) :
    Walk.Round (Walk.next (VisibleEdge t edgeType) (members s.frontier))
      {v | minHops ≤ hop ∧ v ∈ Walk.next (VisibleEdge t edgeType) (members s.frontier)}
      (members s.reachable) (members s'.reachable) (members s'.frontier) stop := by
  unfold storageHop at h
  split at h
  · next hempty =>
    cases h
    refine round_of_empty ?_
    rw [members_of_isEmpty hempty, next_empty]
  obtain ⟨⟨next, edgeVisits⟩, hnext, h⟩ := bind_ok h
  replace h := seq_ok h
  have hfrontier : members next = Walk.next (VisibleEdge t edgeType) (members s.frontier) := by
    have hcollects := foldlM_ok_collects
      (R := fun state v => state.1.contains v = true)
      (Q := fun source v => VisibleEdge t edgeType source v) hnext
      (fun source _ state state' hstep v => by
        replace hstep := seq_ok hstep
        cases hstep
        rw [contains_addAll, mem_keys_iff_contains, Topology.contains_outNeighborsForSrc bounded]
        rfl)
    ext v
    refine (hcollects v).trans ?_
    simp only [contains_empty, Bool.false_eq_true, or_false, mem_keys_iff_contains]
    rfl
  have hresult : s' = ⟨next, if minHops ≤ hop then s.reachable.addAll next.keys
      else s.reachable, edgeVisits⟩ ∧ stop = false := by
    split at h
    · next hle =>
      replace h := seq_ok h
      cases h
      rw [if_pos hle]
      exact ⟨rfl, rfl⟩
    · next hle =>
      cases h
      rw [if_neg hle]
      exact ⟨rfl, rfl⟩
  obtain ⟨rfl, rfl⟩ := hresult
  rw [← hfrontier]
  exact ⟨members_addAll_if fun v => mem_keys_iff_contains, fun _ => rfl, nofun⟩

/-- The search from storage answers what the walks of a length in the range lead to. -/
theorem reachableFromStorageFrontier_lists (bounded : t.Bounded e) (hmin : 1 ≤ minHops.toNat)
    (h : reachableFromStorageFrontier limits t edgeType src minHops maxHops e = .ok r) :
    Lists r.vertices (between (VisibleEdge t edgeType) (startSet [src])
      minHops.toNat maxHops.toNat) := by
  obtain ⟨s, hs, h⟩ := bind_ok h
  cases h
  refine lists_reachable (rounds_window (fun s => members s.frontier)
    (fun s => members s.reachable) (I := fun _ _ => True) layer_eq_empty hs trivial
    (members_starts [src]) (window_zero hmin) fun k s s' stop _ hfrontier hbody => ⟨trivial, ?_⟩)
  rw [layer, ← hfrontier]
  exact storageHop_ok bounded hbody

end

/-- The overlay search is exact for every range up to a length, and agrees with the range kernel on
a matrix of the patched graph and with the search from storage, exactly when each member of a
shorter layer that is one step from its layer is reached there by an edge that the overlay adds. -/
theorem expandRangeWithOverlay_iff {mxv : Mxv} (standard : mxv.Standard)
    {m patched : CompiledGraphBlasMatrix} {overlay : GraphTopologyOverlay} {t : Topology}
    {edgeType : EdgeType} {e : StorageSequence} (bounded : t.Bounded e)
    (hpatched : ∀ u v, patched.csc.Edge u v ↔ Patched m overlay u v)
    (hstored : ∀ u v, VisibleEdge t edgeType u v ↔ Patched m overlay u v) (src : VertexId)
    (limit : UInt8) :
    (∀ minHops maxHops : UInt8, 1 ≤ minHops → minHops ≤ maxHops → maxHops ≤ limit →
      ∃ r, expandRangeWithOverlay mxv m overlay [src] minHops maxHops = .ok r ∧
        Lists r.vertices {v | ∃ k, minHops.toNat ≤ k ∧ k ≤ maxHops.toNat ∧
          Walk.Path (Patched m overlay) k src v} ∧
        (∀ r', patched.expandRange mxv [src] minHops maxHops = .ok r' → r'.vertices = r.vertices) ∧
        ∀ limits r', reachableFromStorageFrontier limits t edgeType src minHops maxHops e = .ok r' →
          r'.vertices = r.vertices) ↔
    ∀ k < limit.toNat, ∀ u v, Walk.Path (Patched m overlay) k src u →
      Walk.Path (Patched m overlay) k src v → Patched m overlay u v →
      ∃ w, Walk.Path (Patched m overlay) k src w ∧ Added overlay w v := by
  have hlayer : ∀ {k v}, v ∈ layer (Patched m overlay) (startSet [src]) k ↔
      Walk.Path (Patched m overlay) k src v := mem_layer_singleton
  have hwalks : ∀ {i j : ℕ}, {v | ∃ k, i ≤ k ∧ k ≤ j ∧ Walk.Path (Patched m overlay) k src v} =
      between (Patched m overlay) (startSet [src]) i j := fun {i j} =>
    Set.ext fun v => exists_congr fun k => and_congr_right fun _ => and_congr_right fun _ =>
      hlayer.symm
  have hcondition : (∀ k < limit.toNat, ∀ u v, Walk.Path (Patched m overlay) k src u →
      Walk.Path (Patched m overlay) k src v → Patched m overlay u v →
        ∃ w, Walk.Path (Patched m overlay) k src w ∧ Added overlay w v) ↔
      ∀ k ≤ limit.toNat, maskedLayer (Patched m overlay) (Added overlay) (startSet [src]) k =
        layer (Patched m overlay) (startSet [src]) k := by
    rw [maskedLayer_eq_iff]
    constructor
    · rintro h k hk v hv ⟨u, hu, huv⟩
      obtain ⟨w, hw, hadd⟩ := h k hk u v (hlayer.1 hu) (hlayer.1 hv) huv
      exact ⟨w, hlayer.2 hw, hadd⟩
    · intro h k hk u v hu hv huv
      obtain ⟨w, hw, hadd⟩ := h k hk v (hlayer.2 hv) ⟨u, hlayer.2 hu, huv⟩
      exact ⟨w, hlayer.1 hw, hadd⟩
  rw [hcondition]
  constructor
  · intro h k hk
    rcases k with _ | k
    · rfl
    have hsize : (UInt8.ofNat (k + 1)).toNat = k + 1 :=
      UInt8.toNat_ofNat_of_lt (hk.trans_lt limit.toNat_lt)
    have hone : 1 ≤ UInt8.ofNat (k + 1) := by
      rw [UInt8.le_iff_toNat_le, hsize]
      exact Nat.succ_le_succ (Nat.zero_le k)
    have hle : UInt8.ofNat (k + 1) ≤ limit := by
      rwa [UInt8.le_iff_toNat_le, hsize]
    obtain ⟨r, hr, hlists, -⟩ := h (UInt8.ofNat (k + 1)) (UInt8.ofNat (k + 1)) hone
      (UInt8.le_refl _) hle
    have hmasked := expandRangeWithOverlay_lists standard (UInt8.le_iff_toNat_le.1 hone) hr
    rw [hwalks] at hlists
    have hset := hmasked.set_eq hlists
    rwa [between, window_self, window_self, hsize] at hset
  · intro h minHops maxHops hmin _ hmax
    have hmin' : 1 ≤ minHops.toNat := UInt8.le_iff_toNat_le.1 hmin
    obtain ⟨r, hr⟩ := expandRangeWithOverlay_isOk standard [src] minHops maxHops
    have hlists : Lists r.vertices (between (Patched m overlay) (startSet [src])
        minHops.toNat maxHops.toNat) := by
      have hmasked := expandRangeWithOverlay_lists standard hmin' hr
      rwa [window_congr fun k hk => h k (hk.trans (UInt8.le_iff_toNat_le.1 hmax))] at hmasked
    refine ⟨r, hr, hwalks ▸ hlists, fun r' hr' => ?_, fun limits r' hr' => ?_⟩
    · have hlists' := patched.expandRange_lists standard hmin' hr'
      rw [funext fun u => funext fun v => propext (hpatched u v)] at hlists'
      exact hlists'.unique hlists
    · have hlists' := reachableFromStorageFrontier_lists bounded hmin' hr'
      rw [funext fun u => funext fun v => propext (hstored u v)] at hlists'
      exact hlists'.unique hlists

/-- A product that does what the standard says. -/
def setMxv : Mxv := fun csc mask input =>
  OrdMap.addAll ∅ ((input.keys.flatMap csc.neighbors).filter fun dst =>
    !(mask.any fun mask => mask.contains dst))

theorem standard_setMxv : Mxv.Standard setMxv := by
  intro csc mask input dst _
  rw [setMxv, contains_addAll, contains_empty, mem_filter, mem_flatMap]
  cases mask <;> simp [mem_keys_iff_contains]

/-- The matrix and the store of one edge. -/
def oneEdgeMatrix : CompiledGraphBlasMatrix := ⟨⟨[1, 2], [0, 1, 1], [1]⟩, .suiteSparse, by decide⟩

def oneEdgeStore : Topology := Topology.empty.insertDirect false ⟨"T", 1, 2⟩

theorem bounded_oneEdgeStore : oneEdgeStore.Bounded 1 :=
  ⟨nofun, nofun⟩

theorem visibleEdge_oneEdgeStore : VisibleEdge oneEdgeStore "T" u v ↔ u = 1 ∧ v = 2 := by
  rw [VisibleEdge, oneEdgeStore, Topology.visible_insertDirect]
  have hempty : ¬ Topology.empty.Visible ⟨"T", u, v⟩ := by
    rintro (h | ⟨_, _, h, _⟩)
    · cases h
    · cases h
  simp [hempty]

theorem patched_oneEdgeMatrix : Patched oneEdgeMatrix .empty u v ↔ u = 1 ∧ v = 2 := by
  rw [Patched, patchedEdge, GraphTopologyOverlay.state_empty, Option.getD_none]
  constructor
  · intro h
    obtain ⟨i, hi, j, hj, hij⟩ : ∃ i, oneEdgeMatrix.csc.ordinal u = some i ∧
        ∃ j, oneEdgeMatrix.csc.ordinal v = some j ∧ j ∈ oneEdgeMatrix.csc.neighbors i := by
      rw [GraphBlasCsc.containsEdge] at h
      split at h
      · next i j hi hj => exact ⟨i, hi, j, hj, contains_iff_mem.1 h⟩
      · cases h
    obtain ⟨hlt, rfl⟩ := oneEdgeMatrix.wellFormed.ordinal_eq_some.1 hi
    obtain ⟨-, rfl⟩ := oneEdgeMatrix.wellFormed.ordinal_eq_some.1 hj
    cases i with
    | zero =>
      obtain rfl := mem_singleton.1 hij
      exact ⟨rfl, rfl⟩
    | succ =>
      obtain rfl := Nat.lt_one_iff.1 (Nat.lt_of_succ_lt_succ hlt)
      cases hij
  · rintro ⟨rfl, rfl⟩
    decide

theorem expandRangeWithOverlay_iff_oneEdge :
    ∃ r, expandRangeWithOverlay setMxv oneEdgeMatrix .empty [1] 1 2 = .ok r ∧
      Lists r.vertices {v | ∃ k, 1 ≤ k ∧ k ≤ 2 ∧
        Walk.Path (Patched oneEdgeMatrix .empty) k 1 v} := by
  have hstored : ∀ u v, VisibleEdge oneEdgeStore "T" u v ↔ Patched oneEdgeMatrix .empty u v :=
    fun u v => visibleEdge_oneEdgeStore.trans patched_oneEdgeMatrix.symm
  have hnone : ∀ k < (2 : UInt8).toNat, ∀ u v, Walk.Path (Patched oneEdgeMatrix .empty) k 1 u →
      Walk.Path (Patched oneEdgeMatrix .empty) k 1 v → Patched oneEdgeMatrix .empty u v →
      ∃ w, Walk.Path (Patched oneEdgeMatrix .empty) k 1 w ∧ Added .empty w v := by
    intro k _ u v hu hv huv
    obtain ⟨rfl, rfl⟩ := patched_oneEdgeMatrix.1 huv
    cases hv with
    | step _ =>
      cases hu with
      | step _ hstep' => exact absurd (patched_oneEdgeMatrix.1 hstep').2 (by decide)
  have hpatched : ∀ u v, oneEdgeMatrix.csc.Edge u v ↔ Patched oneEdgeMatrix .empty u v :=
    fun u v => Iff.rfl
  obtain ⟨r, hr, hlists, -⟩ :=
    (expandRangeWithOverlay_iff standard_setMxv bounded_oneEdgeStore hpatched hstored 1 2).2 hnone
      1 2 (by decide) (by decide) (by decide)
  exact ⟨r, hr, hlists⟩

/-- A vertex with an edge to itself. -/
def selfLoopMatrix : CompiledGraphBlasMatrix := ⟨⟨[1], [0, 1], [0]⟩, .suiteSparse, by decide⟩

def selfLoopStore : Topology := Topology.empty.insertDirect false ⟨"T", 1, 1⟩

def generousLimits : TraversalLimits :=
  { GraphLimits.default with maxTraversalHops := 16, maxQueryResultVertices := 100000 }

/-- With no change at all, the overlay search does not find that a self loop leads back to its
start; the range kernel and the search from storage do. -/
theorem expandRangeWithOverlay_ne_of_self_loop :
    Walk.Path (Patched selfLoopMatrix .empty) 1 1 1 ∧
      (∃ r, expandRangeWithOverlay setMxv selfLoopMatrix .empty [1] 1 1 = .ok r ∧
        r.vertices = []) ∧
      (∃ r, selfLoopMatrix.expandRange setMxv [1] 1 1 = .ok r ∧ r.vertices = [1]) ∧
      ∃ r, reachableFromStorageFrontier generousLimits selfLoopStore "T" 1 1 1 1 = .ok r ∧
        r.vertices = [1] := by
  refine ⟨.step (.refl 1) ?_, ⟨⟨[], 1, .suiteSparse⟩, ?_, rfl⟩, ⟨⟨[1], 1, .suiteSparse⟩, ?_, rfl⟩,
    ⟨[1], 1, .adjacency⟩, ?_, rfl⟩
  · exact (by decide : patchedEdge selfLoopMatrix .empty 1 1 = true)
  · decide +kernel
  · decide +kernel
  · decide +kernel

end HydraDb
