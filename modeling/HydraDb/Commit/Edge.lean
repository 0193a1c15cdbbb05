import HydraDb.Commit.Basic

/-!
# Edge writes and deletes as steps

The transactions of `Write/Edge.lean` and `Write/EdgeDelete.lean`, read as sequences of steps that
end with nothing owed.
-/

namespace HydraDb

open OrdMap

variable {F : VertexMetadata → Prop} {g : Regime} {n : StorageSequence} {c : Cell}

/-! ## One edge -/

theorem nodup_coalesceVertexMetadataUpdates
    (h : coalesceVertexMetadataUpdates updates = .ok updates') : (updates'.map Prod.fst).Nodup := by
  obtain ⟨byVertex, -, h⟩ := bind_ok h
  cases h
  exact nodup_keys

variable {env : WriteEnv} (ok : CellOk g n c) (policy : env.reverseIndex = g.reverseIndex)

include ok policy

theorem writeEdgeTxn_committed (distinct : (updates.map Prod.fst).Nodup)
    (form : ∀ u ∈ changedMetadata c.vertices updates, F u.2.2)
    (h : writeEdgeTxn env mutation updates edgeMetadata operation n c = .ok (.commit c' r)) :
    Committed F g (n + 1) c c' := by
  replace h := seq_ok h
  replace h := replayOr_commit h
  dsimp only at h
  have hupdates {c₁ : Cell} {l : Ledger}
      h :
      Steps F g (n + 1) ⟨c, l⟩ ⟨c₁, l⟩ :=
    .applyChangedMetadata (distinct.sublist map_fst_changedMetadata)
      previous_of_mem_changedMetadata h form
  split at h
  · -- the edge exists
    split at h
    · cases commitTxn_ok h
      exact Committed.putIdempotency .refl _ _ _
    obtain ⟨e, -, h⟩ := bind_ok h
    obtain ⟨c₁, hc₁, h⟩ := bind_ok h
    obtain ⟨c₂, hc₂, h⟩ := bind_ok h
    cases commitTxn_ok h
    obtain ⟨vertices, rfl, -⟩ := Cell.applyChangedMetadata_ok hc₁
    exact Committed.putIdempotency ((hupdates hc₁).trans (Steps.applyEdgeMetadata hc₂)) _ _ _
  · -- the edge is inserted
    next hnone =>
    obtain ⟨e, he, h⟩ := bind_ok h
    obtain ⟨c₁, hc₁, h⟩ := bind_ok h
    obtain ⟨c₂, hc₂, h⟩ := bind_ok h
    cases commitTxn_ok h
    cases nextSequence_ok he
    obtain ⟨vertices, rfl, hrecords⟩ := Cell.applyChangedMetadata_ok hc₁
    have hmetadata := (hupdates (l := .zero) hc₁).trans (Steps.applyEdgeMetadata hc₂)
    obtain ⟨edgeMetadata', rfl⟩ := Cell.applyEdgeMetadata_ok hc₂
    have absent : ¬ c.topology.Visible mutation.edge :=
      (Topology.edgeEpochAt_eq_none ok.adjacency.bounded).1 hnone
    refine Committed.putIdempotency (hmetadata.trans ?_) _ _ _
    refine Steps.insertEdgeWithEnds policy ?_ ?_ ?_
    · exact fun _ => absent
    · exact fun _ => id
    · intro v hv
      rw [contains_addAll, contains_empty] at hv
      exact hrecords v (.inl (hv.resolve_right Bool.false_ne_true))

/-! ## A batch of edges -/

namespace EdgeBatch

variable {b : EdgeBatch}

/-- What a batch owes in the middle of its loop. -/
def ledger (b : EdgeBatch) : Ledger where
  out k := b.outIncrements.count k
  inn k := b.inIncrements.count k
  lacking v := b.insertedEndpoints.contains v = true
  uncounted _ := 0

/-- What the loop of a batch keeps. -/
structure Reached (F : VertexMetadata → Prop) (g : Regime) (n : StorageSequence) (c : Cell)
    (b : EdgeBatch) : Prop where
  steps : Steps F g (n + 1) ⟨c, .zero⟩ ⟨b.cell, b.ledger⟩
  bounded : b.cell.topology.Bounded n
  vertices : b.cell.vertices = c.vertices
  inn : g.reverseIndex = false → ∀ i, b.inIncrements.count i = 0
  validated : ∀ v, b.validatedEndpoints.contains v = true →
    c.vertices.records.contains v.vertex = true

omit ok policy in
theorem validateEndpoint_ok (h : b.validateEndpoint vertex label = .ok b') :
    ∃ validated, b' = { b with validatedEndpoints := validated } ∧
      (∀ v, validated.contains v = true → b.validatedEndpoints.contains v = true ∨
        b.cell.vertices.records.contains v.vertex = true) ∧
      validated.contains ⟨label, vertex⟩ = true := by
  unfold validateEndpoint at h
  split at h
  · next hc =>
    cases h
    exact ⟨b.validatedEndpoints, rfl, fun v hv => .inl hv, hc⟩
  dsimp only at h
  split at h
  · cases h
  next metadata hget =>
  replace h := (then_of_ne h nofun).2
  cases h
  refine ⟨_, rfl, fun v hv => ?_, contains_put.2 (.inl rfl)⟩
  rcases contains_put.1 hv with rfl | hv
  · exact .inr (contains_of_get hget)
  · exact .inl hv

omit ok policy in
/-- After the labels of an edge are checked, both of its ends have records. -/
theorem Reached.validateEndpoints (hb : b.Reached F g n c)
    (h : b.validateEndpoints mutation labels = .ok b') :
    b'.Reached F g n c ∧ b'.knownEdges = b.knownEdges ∧ b'.cell = b.cell ∧
      (labels.isSome = true → ∀ v ∈ [mutation.src, mutation.dst],
        c.vertices.records.contains v = true) := by
  cases labels with
  | none =>
    cases h
    exact ⟨hb, rfl, rfl, nofun⟩
  | some =>
    obtain ⟨b₁, h₁, h⟩ := bind_ok h
    obtain ⟨validated₁, rfl, hvalid₁, hsrc⟩ := validateEndpoint_ok h₁
    obtain ⟨validated₂, rfl, hvalid₂, hdst⟩ := validateEndpoint_ok h
    have hall : ∀ v, validated₁.contains v = true →
        c.vertices.records.contains v.vertex = true := by
      intro v hv
      rcases hvalid₁ v hv with hv | hv
      · exact hb.validated v hv
      · rwa [hb.vertices] at hv
    have hall₂ : ∀ v, validated₂.contains v = true →
        c.vertices.records.contains v.vertex = true := by
      intro v hv
      rcases hvalid₂ v hv with hv | hv
      · exact hall v hv
      · rwa [hb.vertices] at hv
    refine ⟨⟨hb.steps, hb.bounded, hb.vertices, hb.inn, hall₂⟩, rfl, rfl, fun _ v hv => ?_⟩
    rcases List.mem_pair.1 hv with rfl | rfl
    · exact hall _ hsrc
    · exact hall₂ _ hdst

omit ok in
/-- Inserting an edge that is not visible. -/
theorem Reached.insert (hb : b.Reached F g n c) (absent : ¬ b.cell.topology.Visible mutation.edge)
    (ends : labelled = true → ∀ v ∈ [mutation.src, mutation.dst],
      c.vertices.records.contains v = true) :
    (b.insert env mutation labelled (n + 1)).Reached F g n c where
  steps := by
    refine hb.steps.trans ?_
    refine .head (.insertEdge mutation.edge (env.floorEnsured mutation.cellId mutation.edgeType)
      fun _ => absent) ?_
    refine .head (.settle (b.insert env mutation labelled (n + 1)).ledger.lacking
      fun _ v hv => ?_) ?_
    · cases labelled with
      | false => exact .inr (contains_addAll.2 hv.symm)
      | true =>
        rcases hv with hv | hv
        · exact .inr hv
        · exact .inl (hb.vertices ▸ ends rfl v hv)
    refine .single (Step.to (.putIdempotency "create" mutation.idempotencyKey
      (.commit ⟨n + 1, false⟩ mutation.cellId mutation.edge)) ?_ ?_)
    · rw [← policy]
      rfl
    ext i
    · exact natCast_count_bump
    · simp only [ledger, EdgeBatch.insert, policy]
      cases g.reverseIndex with
      | true => exact natCast_count_bump
      | false => simp [Ledger.addEdge, Ledger.addIn, Ledger.addOut, Ledger.addLacking]
    · rfl
    · rfl
  bounded := ⟨hb.bounded.segment_le, hb.bounded.tombstone_le⟩
  vertices := hb.vertices
  inn hr i := by
    have hpolicy : ¬ env.reverseIndex = true := by rw [policy, hr]; exact Bool.false_ne_true
    simp only [EdgeBatch.insert, if_neg hpolicy]
    exact hb.inn hr i
  validated := hb.validated

omit policy in
theorem Reached.start : (EdgeBatch.start n c).Reached F g n c :=
  ⟨.single (.settle _ fun _ _ h => h.elim), ok.adjacency.bounded, rfl, fun _ _ => rfl, nofun⟩

omit ok in
theorem Reached.step (hb : b.Reached F g n c)
    (h : b.step env cellId labels n (n + 1) mutation = .ok b') : b'.Reached F g n c := by
  have hexisting {b : EdgeBatch} (hb : b.Reached F g n c) epoch :
      (b.existing mutation epoch).Reached F g n c :=
    ⟨hb.steps.tail (.putIdempotency _ _ _), hb.bounded, hb.vertices, hb.inn, hb.validated⟩
  unfold EdgeBatch.step at h
  split at h
  · obtain ⟨result, -, h⟩ := bind_ok h
    cases h
    exact ⟨hb.steps, hb.bounded, hb.vertices, hb.inn, hb.validated⟩
  obtain ⟨b₁, hb₁, h⟩ := bind_ok h
  obtain ⟨hreached, -, -, ends⟩ := hb.validateEndpoints hb₁
  split at h
  · cases h
    exact hexisting hreached _
  split at h
  · cases h
    exact hexisting hreached _
  · next hnone =>
    cases h
    exact hreached.insert policy ((Topology.edgeEpochAt_eq_none hreached.bounded).1 hnone) ends

/-- What the batch writes after its loop settles what it owes. -/
theorem Reached.finish (hb : b.Reached F g n c) :
    Committed F g (n + 1) c (b.finish env (decide (n = 0))) := by
  refine hb.steps.trans (Steps.settleInserts policy

    ?_ ?_ ?_ ?_ ?_)
  · intro _ i
    rw [count_addAllCounts, Int.natCast_add]
    rfl
  · intro _ _ i
    rw [count_addAllCounts, Int.natCast_add]
    rfl
  · exact fun hr i => congrArg Nat.cast (hb.inn hr i)
  · intro hfresh v
    rw [hb.vertices, ok.fresh (of_decide_eq_true hfresh)]
    rfl
  · exact fun v hv => .inl (mem_keys_iff_contains.2 hv)

end EdgeBatch

theorem writeEdgeMutationsBatchTxn_committed
    (h : writeEdgeMutationsBatchTxn env cellId mutations operation labels n c = .ok (.commit c' r))
    : Committed F g (n + 1) c c' := by
  replace h := seq_ok₂ h
  obtain ⟨e, he, h⟩ := bind_ok h
  cases nextSequence_ok he
  obtain ⟨b, hloop, h⟩ := bind_ok h
  cases commitTxnIf_ok h
  have hend : b.Reached F g n c :=
    List.foldlM_ok_invariant hloop (.start ok) fun mutation _ b b' hb hstep => hb.step policy hstep
  exact hend.finish ok policy

theorem writeEdgeMutationsBatchWithEndpointLabels_committed
    (h : writeEdgeMutationsBatchWithEndpointLabels env cellId mutations labels operation n c =
      .ok (.commit c' r)) : Committed F g (n + 1) c c' := by
  replace h := seq_ok h
  split at h
  · cases h
  · replace h := seq_ok₂ h
    exact writeEdgeMutationsBatchTxn_committed ok policy h

end HydraDb
