import HydraDb.Commit.Basic

/-!
# Edge deletes as steps

The transactions of `Write/EdgeDelete.lean`, read as sequences of steps that end with nothing
owed.
-/

namespace HydraDb

variable {F : VertexMetadata → Prop} {g : Regime} {n : StorageSequence} {c : Cell}
  {env : WriteEnv} (ok : CellOk g n c) (policy : env.reverseIndex = g.reverseIndex)

include ok policy

/-! ## One edge -/

theorem Cell.deleteDirectEdge_committed (direct : c.topology.Direct k)
    (h : c.deleteDirectEdge env cellId k (n + 1) = .ok c') : Committed F g (n + 1) c c' := by
  obtain ⟨c₁, hunlink, h⟩ := bind_ok h
  cases h
  have hsteps := Steps.unlinkDirect (F := F) ok.draft rfl direct (fun _ => rfl) hunlink
  exact hsteps.trans (Steps.decrementDegrees policy (ok.steps hsteps) (fun _ => rfl) fun _ => rfl)

omit policy in
theorem Cell.deleteSegmentEdge_committed
    (hidden : ¬ c.topology.Direct k) (shown : c.topology.SegVisible k)
    (h : c.deleteSegmentEdge env cellId k (n + 1) = .ok c') : Committed F g (n + 1) c c' := by
  obtain ⟨c₁, hunlink, h⟩ := bind_ok h
  cases h
  have hsteps := Steps.unlinkSegment (F := F) ok.draft rfl hidden shown hunlink
  exact hsteps.tail (.decrementOut (ok.steps hsteps) rfl)

theorem deleteEdgeTxn_committed
    (h : deleteEdgeTxn env mutation n c = .ok (.commit c' r)) : Committed F g (n + 1) c c' := by
  replace h := seq_ok h
  replace h := replayOr_commit h
  dsimp only at h
  split at h
  · next hdirect =>
    obtain ⟨e, he, h⟩ := bind_ok h
    cases nextSequence_ok he
    obtain ⟨c₁, hc₁, h⟩ := bind_ok h
    cases commitTxn_ok h
    exact (Cell.deleteDirectEdge_committed ok policy hdirect hc₁).putIdempotency _ _ _
  next hhidden =>
  split at h
  · cases commitTxn_ok h
    exact Committed.putIdempotency .refl _ _ _
  next segmentSequence hsegment =>
  split at h
  · obtain ⟨e, he, h⟩ := bind_ok h
    cases nextSequence_ok he
    obtain ⟨c₁, hc₁, h⟩ := bind_ok h
    cases commitTxn_ok h
    have hshown : c.topology.SegVisible mutation.edge := by
      refine (Topology.isSome_outSegmentEdgeRecordAt ok.adjacency.bounded).1 ?_
      replace hsegment := rest_of_ne hsegment nofun
      rw [hsegment]; rfl
    exact (Cell.deleteSegmentEdge_committed ok hhidden hshown hc₁).putIdempotency _ _ _
  · cases commitTxn_ok h
    exact Committed.putIdempotency .refl _ _ _

/-! ## A batch of edges -/

namespace EdgeDeleteBatch

variable {done : List EdgeMutation} {b : EdgeDeleteBatch}

/-- What the loop of a batch keeps. The segment positions of edges it has not visited are as they
were, which is what the cached read answers. -/
structure Reached (F : VertexMetadata → Prop) (g : Regime) (n : StorageSequence) (c : Cell)
    (done : List EdgeMutation) (b : EdgeDeleteBatch) : Prop where
  steps : Steps F g (n + 1) ⟨c, .zero⟩ ⟨b.cell, .decrements b.outDecrements b.inDecrements⟩
  inn : g.reverseIndex = false → ∀ i, b.inDecrements.count i = 0
  segments : ∀ k, k ∉ done.map EdgeMutation.edge →
    (b.cell.topology.SegVisible k ↔ c.topology.SegVisible k)

theorem Reached.delete (hb : b.Reached F g n c done)
    (hdirect : b.cell.topology.Direct mutation.edge ↔ direct = true)
    (hshown : direct = false → b.cell.topology.SegVisible mutation.edge)
    (h : b.delete env cellId mutation direct (n + 1) = .ok b') :
    b'.Reached F g n c (done ++ [mutation]) := by
  obtain ⟨c₁, hunlink, h⟩ := bind_ok h
  cases h
  have draft := ok.steps hb.steps
  have htopology : c₁.topology = b.cell.topology := by
    obtain ⟨edgeMetadata, -, rfl⟩ := Cell.unlinkEdge_ok hunlink
    rfl
  have hvisited : ∀ {k : EdgeKey}, k ∉ (done ++ [mutation]).map EdgeMutation.edge →
      k ∉ done.map EdgeMutation.edge ∧ k ≠ mutation.edge := by
    intro k hk
    rwa [List.not_mem_map_snoc] at hk
  cases direct with
  | true =>
    have hsteps := Steps.unlinkDirect (F := F) draft rfl (hdirect.2 rfl)
      (fun hr => policy.trans hr) hunlink
    refine ⟨(hb.steps.trans hsteps).tail (Step.to (.putIdempotency _ _ _) rfl
      (Ledger.decrements_edge policy)), ?_, ?_⟩
    · intro hr i
      simp only [Bool.true_and, policy, hr, Bool.false_eq_true, if_false]
      exact hb.inn hr i
    intro k hk
    refine Iff.trans ?_ (hb.segments k (hvisited hk).1)
    rw [← htopology]
    exact Topology.segVisible_removeDirect
  | false =>
    have hsteps := Steps.unlinkSegment (F := F) draft rfl
      (fun hd => Bool.false_ne_true (hdirect.1 hd)) (hshown rfl) hunlink
    refine ⟨(hb.steps.trans hsteps).tail (Step.to (.putIdempotency _ _ _) rfl
      Ledger.decrements_bumpOut), ?_, ?_⟩
    · exact hb.inn
    intro k hk
    refine Iff.trans ?_ (hb.segments k (hvisited hk).1)
    have hbounded : c₁.topology.Bounded (n + 1) := htopology ▸ draft.adjacency.bounded
    rw [← htopology]
    exact (Topology.segVisible_putTombstone hbounded).trans (and_iff_right (hvisited hk).2)

theorem Reached.step (hb : b.Reached F g n c done)
    (hnew : mutation.edge ∉ done.map EdgeMutation.edge)
    (h : b.step env cellId c n (n + 1) mutation = .ok b') :
    b'.Reached F g n c (done ++ [mutation]) := by
  have hvisited : ∀ k, k ∉ (done ++ [mutation]).map EdgeMutation.edge →
      k ∉ done.map EdgeMutation.edge := fun k hk hmem =>
    hk (by rw [List.map_append]; exact List.mem_append_left _ hmem)
  unfold EdgeDeleteBatch.step at h
  split at h
  · obtain ⟨result, -, h⟩ := bind_ok h
    cases h
    exact ⟨hb.steps, hb.inn, fun k hk => hb.segments k (hvisited k hk)⟩
  dsimp only at h
  split at h
  · next hdirect => exact hb.delete ok policy (iff_of_true hdirect rfl) nofun h
  next hdirect =>
  split at h
  · next hsegment =>
    refine hb.delete ok policy (iff_of_false hdirect Bool.false_ne_true) (fun _ => ?_) h
    rw [Bool.and_eq_true, OrdMap.contains_iff] at hsegment
    rw [hb.segments _ hnew]
    exact (Topology.isSome_get_outSegmentEdgesForSrc ok.adjacency.bounded).1 hsegment.2
  · cases h
    exact ⟨hb.steps.tail (.putIdempotency _ _ _), hb.inn, fun k hk => hb.segments k (hvisited k hk)⟩

/-- What the batch writes after its loop settles what it owes. -/
theorem Reached.finish (hb : b.Reached F g n c done) : Committed F g (n + 1) c (b.finish env) := by
  have hout := Step.subtractOut (F := F) (ok.steps hb.steps)
  have hsteps := hb.steps.tail hout
  unfold EdgeDeleteBatch.finish
  rw [policy]
  cases hr : g.reverseIndex with
  | true =>
    exact hsteps.tail (Step.to (.subtractIn (ok.steps hsteps)) rfl
      (Ledger.decrements_zero (fun _ => rfl) fun _ => rfl).symm)
  | false =>
    rw [Ledger.decrements_zero (fun _ => rfl) (hb.inn hr)] at hsteps
    exact hsteps

end EdgeDeleteBatch

theorem deleteEdgeMutationsBatchTxn_committed (distinct : (mutations.map EdgeMutation.edge).Nodup)
    (h : deleteEdgeMutationsBatchTxn env cellId mutations n c = .ok (.commit c' r)) :
    Committed F g (n + 1) c c' := by
  replace h := seq_ok h
  obtain ⟨e, he, h⟩ := bind_ok h
  cases nextSequence_ok he
  obtain ⟨b, hloop, h⟩ := bind_ok h
  cases commitTxnIf_ok h
  have hend : b.Reached F g n c mutations := by
    refine List.foldlM_ok_induction hloop ⟨.refl, fun _ _ => rfl, fun _ _ => Iff.rfl⟩ ?_
    intro done mutation rest b b' hl hb hstep
    exact hb.step ok policy (List.key_not_mem_done distinct hl) hstep
  exact hend.finish ok policy

omit ok policy in
theorem nodup_validateUniqueDeleteMutationIdentities
    (h : validateUniqueDeleteMutationIdentities mutations = .ok u) :
    (mutations.map EdgeMutation.edge).Nodup := by
  obtain ⟨seen, hloop, -⟩ := bind_ok h
  refine List.nodup_of_foldlM_ok EdgeMutation.edge (fun seen k => seen.contains k = true) hloop ?_
  intro seen mutation seen' hstep
  split at hstep
  · cases hstep
  next hnone =>
  cases hstep
  refine ⟨?_, OrdMap.contains_put.2 (.inl rfl), fun k hk => OrdMap.contains_put.2 (.inr hk)⟩
  rw [OrdMap.contains_iff, hnone]
  exact Bool.false_ne_true

theorem deleteEdgeMutationsBatch_committed
    (h : deleteEdgeMutationsBatch env cellId mutations n c = .ok (.commit c' r)) :
    Committed F g (n + 1) c c' := by
  replace h := seq_ok h
  replace h := rest_of_ne h nofun
  replace h := seq_ok₂ h
  obtain ⟨_, hunique, h⟩ := bind_ok h
  exact deleteEdgeMutationsBatchTxn_committed ok policy
    (nodup_validateUniqueDeleteMutationIdentities hunique) h

end HydraDb
