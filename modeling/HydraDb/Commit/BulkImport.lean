import HydraDb.Commit.Basic
import HydraDb.Write.BulkImport

/-!
# Bulk imports as steps

The transactions of `Write/BulkImport.lean`, read as sequences of steps that end with nothing
owed. An import that trusts its caller makes steps of a trusted regime only when the caller keeps
the contract.
-/

namespace HydraDb

open OrdMap List

variable {g : Regime}

variable {edges : List (VertexId × VertexId)} {edgeType : EdgeType}
  {policy : BulkImportDuplicatePolicy}

/-! ## Counters -/

theorem degreeIncrements_concat :
    degreeIncrements edgeType (ends ++ [v]) =
      (degreeIncrements edgeType ends).bump ⟨edgeType, v⟩ := by
  rw [degreeIncrements, foldl_append]
  rfl

/-- In a store nothing was committed to, counters are zero, so that taking them as zero is reading
them. -/
theorem count_addCounters [LinearOrder K] {counters increments : OrdMap K Nat}
    (hfresh : fresh = true → ∀ k, counters.count k = 0) (k : K) :
    (addCounters fresh counters increments).count k = counters.count k + increments.count k := by
  cases fresh with
  | false => exact count_addAllCounts
  | true =>
    have key : ∀ (es : List (K × Nat)) (m : OrdMap K Nat),
        es.Pairwise (fun a b => a.1 < b.1) → (∀ x ∈ es, m.count x.1 = 0) →
        es.foldl (fun m x => m.put x.1 ((if true then 0 else m.count x.1) + x.2)) m =
          es.foldl (fun m x => m.put x.1 (m.count x.1 + x.2)) m := by
      intro es
      induction es with
      | nil => exact fun _ _ _ => rfl
      | cons x es ih =>
        intro m hes hm
        obtain ⟨hx, hes⟩ := pairwise_cons.1 hes
        rw [foldl_cons, foldl_cons, if_pos rfl, hm x mem_cons_self]
        refine ih _ hes fun y hy => ?_
        rw [count_put, if_neg (hx y hy).ne', hm y (mem_cons_of_mem _ hy)]
    rw [addCounters, key _ _ increments.sorted fun x _ => hfresh rfl x.1]
    exact count_addAllCounts

/-! ## Import -/

/-- The contract of an import that makes no existence check. -/
def TrustKept (policy : BulkImportDuplicatePolicy) (t : Topology) (edgeType : EdgeType)
    (edges : List (VertexId × VertexId)) : Prop :=
  policy.checks = false → ∀ x ∈ edges, ¬ t.Visible ⟨edgeType, x.1, x.2⟩

/-- What an import inserts does not exist. -/
theorem not_visible_of_mem_absentEdges (ok : CellOk g n c)
    (trust : TrustKept policy c.topology edgeType edges) :
    ∀ x ∈ absentEdges c.topology edgeType edges policy n,
      ¬ c.topology.Visible ⟨edgeType, x.1, x.2⟩ := by
  intro x hx
  obtain ⟨hmem, htest⟩ := mem_filter.1 hx
  by_cases hn : n = 0
  · rw [ok.fresh hn]
    exact Topology.not_visible_empty
  cases hchecks : policy.checks with
  | false => exact trust hchecks x hmem
  | true =>
    rw [← Topology.isSome_edgeEpochAt ok.adjacency.bounded]
    simpa [hchecks, hn] using htest

/-- Inserting edges one by one is logging them at once and writing their keys. -/
theorem foldl_importEdge (env : WriteEnv) (cellId : CellId) (edgeType : EdgeType)
    (epoch : StorageSequence) (hedges : edges ≠ []) (c : Cell) :
    edges.foldl (fun c x => c.importEdge env cellId edgeType epoch x) c =
      edges.foldl (fun c x => c.insertDirect env.reverseIndex ⟨edgeType, x.1, x.2⟩)
        (c.markTopologyChange env cellId edgeType epoch (edges.map fun x => (x.1, x.2, true))) := by
  induction edges generalizing c with
  | nil => exact absurd rfl hedges
  | cons x edges ih =>
    cases edges with
    | nil => rfl
    | cons y edges =>
      have hmark : (c.importEdge env cellId edgeType epoch x).markTopologyChange env cellId edgeType
          epoch ((y :: edges).map fun x => (x.1, x.2, true)) =
          (c.markTopologyChange env cellId edgeType epoch
            ((x :: y :: edges).map fun x => (x.1, x.2, true))).insertDirect env.reverseIndex
              ⟨edgeType, x.1, x.2⟩ := by
        unfold Cell.importEdge Cell.markTopologyChange Cell.insertDirect
        rw [Changelog.markTopologyChange_cons _ _ _ _ _ rfl]
        rfl
      rw [foldl_cons, ih (cons_ne_nil y edges), hmark]
      rfl

/-- What inserting the edges of an import leaves to be done. -/
structure ImportLedger (g : Regime) (edgeType : EdgeType) (edges : List (VertexId × VertexId))
    (l : Ledger) : Prop where
  out : ∀ i, l.out i = (degreeIncrements edgeType (edges.map Prod.fst)).count i
  inn : ∀ i, l.inn i =
    if g.reverseIndex then ((degreeIncrements edgeType (edges.map Prod.snd)).count i : Int) else 0
  lacking : ∀ v, l.lacking v → v ∈ edges.flatMap fun x => [x.1, x.2]
  uncounted : l.uncounted = fun _ => 0

/-- Inserting the edges of an import, which are distinct and not visible. -/
theorem Steps.importEdges (policy : env.reverseIndex = g.reverseIndex) (cellId : CellId)
    (hepoch : edges ≠ [] → epoch = e) (distinct : edges.Nodup)
    (absent : g.trusted = true → ∀ x ∈ edges, ¬ c.topology.Visible ⟨edgeType, x.1, x.2⟩) :
    (∃ l, Steps F g e ⟨c, .zero⟩
        ⟨edges.foldl (fun c x => c.importEdge env cellId edgeType epoch x) c, l⟩ ∧
      ImportLedger g edgeType edges l) ∧
    ∀ k, (edges.foldl (fun c x => c.importEdge env cellId edgeType epoch x) c).topology.Visible k ↔
      (∃ x ∈ edges, k = ⟨edgeType, x.1, x.2⟩) ∨ c.topology.Visible k := by
  refine foldl_induction
    (P := fun done c₁ => (∃ l, Steps F g e ⟨c, .zero⟩ ⟨c₁, l⟩ ∧ ImportLedger g edgeType done l) ∧
      ∀ k, c₁.topology.Visible k ↔
        (∃ x ∈ done, k = ⟨edgeType, x.1, x.2⟩) ∨ c.topology.Visible k) ?_ ?_
  · refine ⟨⟨.zero, .refl, fun _ => rfl, fun i => ?_, fun v hv => hv.elim, rfl⟩, fun k => ?_⟩
    · split <;> rfl
    · simp
  rintro done x rest c₁ hl ⟨⟨l, hsteps, hledger⟩, hvisible⟩
  obtain rfl := hepoch (hl ▸ append_ne_nil_of_right_ne_nil done (cons_ne_nil x rest))
  have hnew : g.trusted = true → ¬ c₁.topology.Visible ⟨edgeType, x.1, x.2⟩ := by
    intro ht hv
    rcases (hvisible _).1 hv with ⟨y, hy, heq⟩ | hv
    · have hxy : x = y := Prod.ext (congrArg EdgeKey.src heq) (congrArg EdgeKey.dst heq)
      exact not_mem_done distinct hl (hxy ▸ hy)
    · exact absent ht x (mem_of_next hl) hv
  have hstep := Step.insertEdge (F := F) (e := epoch) (d := ⟨c₁, l⟩) ⟨edgeType, x.1, x.2⟩
    (env.floorEnsured cellId edgeType) hnew
  refine ⟨⟨_, hsteps.tail (hstep.to ?_ rfl), ?_, fun i => ?_, ?_, hledger.uncounted⟩, fun k => ?_⟩
  · rw [← policy]
    rfl
  · intro i
    rw [map_append, map_singleton, degreeIncrements_concat, natCast_count_bump, ← hledger.out i]
    rfl
  · have hin := hledger.inn i
    simp only [Ledger.addLacking, Ledger.addEdge, Ledger.addIn, Ledger.addOut, map_append,
      map_singleton, degreeIncrements_concat, natCast_count_bump, hin]
    cases g.reverseIndex <;> simp
  · rintro v (hv | hv)
    · rw [flatMap_append]
      exact mem_append_left _ (hledger.lacking v hv)
    · rw [flatMap_append]
      exact mem_append_right _ (by simpa using hv)
  · change (c₁.topology.insertDirect env.reverseIndex ⟨edgeType, x.1, x.2⟩).Visible k ↔ _
    rw [Topology.visible_insertDirect, hvisible k, ← or_assoc]
    rw [exists_mem_snoc]
    rw [or_comm (a := k = _)]

/-- Inserting the edges of an import leaves records and counters. -/
theorem importEdges_frame (env : WriteEnv) (cellId : CellId) (edgeType : EdgeType)
    (epoch : StorageSequence) (edges : List (VertexId × VertexId)) (c : Cell) :
    let c₁ := edges.foldl (fun c x => c.importEdge env cellId edgeType epoch x) c
    c₁.vertices = c.vertices ∧ c₁.topology.degreeOut = c.topology.degreeOut ∧
      c₁.topology.degreeIn = c.topology.degreeIn ∧ c₁.relationships = c.relationships :=
  foldl_invariant (P := fun c₁ : Cell => c₁.vertices = c.vertices ∧
    c₁.topology.degreeOut = c.topology.degreeOut ∧ c₁.topology.degreeIn = c.topology.degreeIn ∧
    c₁.relationships = c.relationships) ⟨rfl, rfl, rfl, rfl⟩ fun _ _ _ h => h

theorem nodup_sortDedupEdges (edges : List (VertexId × VertexId)) : (sortDedupEdges edges).Nodup :=
  nodup_sortDedup.map ofLex.injective

/-- The counters an import writes after its loop settle the degrees it owes. -/
theorem ImportLedger.degrees (hl : ImportLedger g edgeType edges l) (ok : CellOk g n c)
    (t : Topology) (hout : t.degreeOut = c.topology.degreeOut)
    (hin : t.degreeIn = c.topology.degreeIn) :
    (∀ i, ((addCounters (decide (n = 0)) t.degreeOut
        (degreeIncrements edgeType (edges.map Prod.fst))).count i : Int) =
      t.degreeOut.count i + l.out i) ∧
    (g.reverseIndex = true → ∀ i, ((addCounters (decide (n = 0)) t.degreeIn
        (degreeIncrements edgeType (edges.map Prod.snd))).count i : Int) =
      t.degreeIn.count i + l.inn i) ∧
    (g.reverseIndex = false → ∀ i, l.inn i = 0) := by
  have hempty : decide (n = 0) = true → c = .empty := fun h => ok.fresh (of_decide_eq_true h)
  refine ⟨fun i => ?_, fun hr i => ?_, fun hr i => ?_⟩
  · rw [count_addCounters, Int.natCast_add, hl.out]
    intro hfresh k
    rw [hout, hempty hfresh]
    rfl
  · rw [count_addCounters, Int.natCast_add, hl.inn, if_pos hr]
    intro hfresh k
    rw [hin, hempty hfresh]
    rfl
  · rw [hl.inn, if_neg (by rw [hr]; exact Bool.false_ne_true)]

theorem bulkImportEdgesTxn_committed (ok : CellOk g n c)
    (hreverse : env.reverseIndex = g.reverseIndex) (distinct : edges.Nodup)
    (trust : g.trusted = true → TrustKept policy c.topology edgeType edges)
    (h : bulkImportEdgesTxn env cellId edgeType edges idempotencyKey fingerprint policy n c =
      .ok (.commit c' r)) : Committed F g (n + 1) c c' := by
  replace h := seq_ok h
  replace h := replayOr_commit h
  obtain ⟨epoch, hepoch, h⟩ := bind_ok h
  cases commitTxn_ok h
  set inserted := absentEdges c.topology edgeType edges policy n with hinserted
  have hnext : inserted ≠ [] → epoch = n + 1 := by
    intro hne
    rw [epochIf, if_pos (by simpa using hne)] at hepoch
    exact nextSequence_ok hepoch
  obtain ⟨⟨l, hsteps, hledger⟩, -⟩ := Steps.importEdges hreverse cellId hnext
    (distinct.filter _) fun ht x hx => not_visible_of_mem_absentEdges ok (trust ht) x hx
  obtain ⟨hvertices, hout, hin, -⟩ :=
    importEdges_frame env cellId edgeType epoch inserted c
  refine Committed.putIdempotency (hsteps.trans ?_) _ _ _
  set c₁ := inserted.foldl (fun c x => c.importEdge env cellId edgeType epoch x) c
  obtain ⟨hcountOut, hcountIn, hcountNone⟩ := hledger.degrees ok c₁.topology hout hin
  have hsettle := Steps.settleInserts (F := F) (e := n + 1) hreverse

    (fun _ => hcountOut) (fun _ => hcountIn) hcountNone
    (fun hfresh v => by rw [hvertices, ok.fresh (of_decide_eq_true hfresh)]; rfl)
    (fun v hv => .inl (hledger.lacking v hv))
  rw [hledger.uncounted] at hsettle
  refine hsettle.trans ?_
  by_cases hempty : inserted.isEmpty = true
  · rw [if_pos hempty]
    exact .refl
  · rw [if_neg hempty]
    cases hnext fun h => hempty (isEmpty_iff.2 h)
    exact .single (.touch edgeType (env.floorEnsured cellId edgeType))

/-! ## Segments -/

theorem bulkAppendOutAdjacencySegmentTrustedTxn_committed (ok : CellOk g n c)
    (policy : g.reverseIndex = false) (distinct : dsts.Nodup)
    (h : bulkAppendOutAdjacencySegmentTrustedTxn env cellId edgeType src dsts idempotencyKey
      fingerprint n c = .ok (.commit c' r)) : Committed F g (n + 1) c c' := by
  replace h := seq_ok h
  replace h := replayOr_commit h
  dsimp only at h
  set inserted := dsts.filter fun dst =>
    !(c.topology.outNeighborsForSrc edgeType src n).contains dst with hinserted
  split at h
  · cases commitTxn_ok h
    exact Committed.putIdempotency .refl _ _ _
  next hempty =>
  obtain ⟨epoch, hepoch, h⟩ := bind_ok h
  cases nextSequence_ok hepoch
  cases commitTxn_ok h
  refine Committed.putIdempotency ?_ _ _ _
  have hfresh : decide (n = 0) = true → c = .empty := fun h => ok.fresh (of_decide_eq_true h)
  have absent : ∀ dst ∈ inserted, ¬ c.topology.Visible ⟨edgeType, src, dst⟩ := by
    intro dst hdst
    rw [← Topology.contains_outNeighborsForSrc ok.adjacency.bounded]
    simpa using (mem_filter.1 hdst).2
  have hkey : c.topology.outSegments.get ⟨edgeType, src, n + 1, idempotencyKey⟩ = none := by
    cases hget : c.topology.outSegments.get ⟨edgeType, src, n + 1, idempotencyKey⟩ with
    | none => rfl
    | some =>
      have hle := ok.adjacency.bounded.segment_le _ (contains_of_get hget)
      exact absurd hle (Nat.not_succ_le_self n)
  have hrecords : Steps F g (n + 1) ⟨c, .zero⟩
      ⟨c.setVertices (c.vertices.ensureRecords (src :: inserted) ∅ (decide (n = 0))), .zero⟩ :=
    Steps.ensureRecords fun h v => by rw [hfresh h]; rfl
  have happend := Step.appendSegment (F := F)
    (d := ⟨c.setVertices (c.vertices.ensureRecords (src :: inserted) ∅ (decide (n = 0))), .zero⟩)
    ⟨edgeType, src, n + 1, idempotencyKey⟩ inserted (env.floorEnsured cellId edgeType) policy rfl
    hkey (distinct.filter _) (fun h => hempty (isEmpty_iff.2 h)) absent
  refine (hrecords.tail happend).trans ?_
  refine .head (.payOut (i := ⟨edgeType, src⟩)
    (l := Ledger.zero.addLacking (src :: inserted)) fun _ => ?_)
    (Steps.settleLacking (fun _ => id) fun v hv => ?_)
  · change (((if decide (n = 0) then 0 else c.topology.degreeOut.count ⟨edgeType, src⟩) +
      inserted.length : Nat) : Int) = c.topology.degreeOut.count ⟨edgeType, src⟩ + inserted.length
    split
    · next hzero => rw [hfresh hzero]; rfl
    · rfl
  · exact VertexStore.contains_ensureRecords.2 (.inl ⟨hv, rfl⟩)

/-! ## Requests -/

theorem mem_sortDedupEdges : x ∈ sortDedupEdges edges ↔ x ∈ edges := by
  simp only [sortDedupEdges, mem_map, mem_sortDedup]
  constructor
  · rintro ⟨_, ⟨y, hy, rfl⟩, rfl⟩
    exact hy
  · exact fun hx => ⟨toLex x, ⟨x, hx, rfl⟩, rfl⟩

theorem bulkImportEdgesWithOptions_committed (ok : CellOk g n c)
    (hreverse : env.reverseIndex = g.reverseIndex)
    (trust : g.trusted = true → TrustKept policy c.topology edgeType edges)
    (h : bulkImportEdgesWithOptions env cellId edgeType edges idempotencyKey policy n c =
      .ok (.commit c' r)) : Committed F g (n + 1) c c' := by
  replace h := seq_ok₂ h
  replace h := seq_ok₂ h
  refine bulkImportEdgesTxn_committed ok hreverse (nodup_sortDedupEdges edges) ?_ h
  exact fun ht hchecks x hx => trust ht hchecks x (mem_sortDedupEdges.1 hx)

theorem bulkAppendOutAdjacencySegmentTrusted_committed (ok : CellOk g n c)
    (policy : env.reverseIndex = g.reverseIndex)
    (h : bulkAppendOutAdjacencySegmentTrusted env cellId edgeType src dsts idempotencyKey n c =
      .ok (.commit c' r)) : Committed F g (n + 1) c c' := by
  replace h := seq_ok₃ h
  obtain ⟨hr, h⟩ := else_of_ne h nofun
  replace h := seq_ok h
  exact bulkAppendOutAdjacencySegmentTrustedTxn_committed ok
    (policy.symm.trans (Bool.not_eq_true _ ▸ hr)) nodup_sortDedup h

end HydraDb
