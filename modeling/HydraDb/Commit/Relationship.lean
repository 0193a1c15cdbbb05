import HydraDb.Commit.Basic

/-!
# Relationship writes as steps

The transactions of `Write/Relationship.lean`, read as sequences of steps that end with nothing
owed.
-/

namespace HydraDb

open RelationshipDeleteBatch

variable {F : VertexMetadata → Prop} {g : Regime} {n e : StorageSequence} {c c' : Cell}

variable {k : EdgeKey}

/-! ## Create -/

namespace RelationshipStore

variable {s : RelationshipStore} {id : RelationshipId}

theorem skipUsedIds_ok (h : s.skipUsedIds cellId fuel id = .ok id') : s.ids.get id' = none := by
  induction fuel generalizing id with
  | zero => cases h
  | succ fuel ih =>
    unfold skipUsedIds at h
    split at h
    · next hfree =>
      cases h
      rw [← Option.not_isSome_iff_eq_none, ← OrdMap.contains_iff]
      simpa using hfree
    · split at h
      · exact ih h
      · cases h

/-- A new relationship gets an id that is not in use. -/
theorem newRelationshipId_ok (h : s.newRelationshipId cellId = .ok id) : s.ids.get id = none := by
  unfold newRelationshipId at h
  split at h
  · exact skipUsedIds_ok h
  · cases h

end RelationshipStore

/-- Adding a relationship to a visible edge and counting it. -/
theorem Steps.insertCountedRelationship {k : RelationshipKey}
    (unused : c.relationships.ids.get k.relationshipId = none)
    (canonical : g.canonical = true → metadata.properties.Canonical)
    (visible : c.topology.Visible k.edge) : let s := c.relationships.insertRelationship k metadata
    Steps F g e ⟨c, l⟩
      ⟨c.setRelationships { s with counts := s.counts.put k.edge (s.counts.count k.edge + 1) },
      l⟩ := by
  intro s
  refine .head (.insertRelationship k metadata unused canonical visible) (.single ?_)
  refine .countRelationships _ l.uncounted fun k' => ?_
  simp only [s, Cell.setRelationships, Ledger.addUncounted, OrdMap.count_put]
  split
  · next h => subst h; omega
  · omega

theorem createRelationshipTxn_committed (ok : CellOk g n c)
    (policy : env.reverseIndex = g.reverseIndex) (distinct : (updates.map Prod.fst).Nodup)
    (form : ∀ u ∈ changedMetadata c.vertices updates, F u.2.2)
    (canonical : g.canonical = true → edgeMetadata.properties.Canonical)
    (h : createRelationshipTxn env mutation updates edgeMetadata fingerprint n c =
      .ok (.commit c' r)) : Committed F g (n + 1) c c' := by
  replace h := seq_ok h
  replace h := replayOr_commit h
  obtain ⟨epoch, hepoch, h⟩ := bind_ok h
  cases nextSequence_ok hepoch
  obtain ⟨relationshipId, hid, h⟩ := bind_ok h
  obtain ⟨c₁, hc₁, h⟩ := bind_ok h
  cases commitTxn_ok h
  refine Committed.putIdempotency ?_ _ _ _
  have hunused := RelationshipStore.newRelationshipId_ok hid
  have hmetadata := (Steps.applyChangedMetadata (g := g) (e := n + 1)
    (distinct.sublist map_fst_changedMetadata) previous_of_mem_changedMetadata hc₁ form).head
    (.putLastId (d := ⟨c, .zero⟩) (some relationshipId))
  obtain ⟨vertices, rfl, hrecords⟩ := Cell.applyChangedMetadata_ok hc₁
  have hskip : ∀ v, (OrdMap.addAll ∅ (updates.map Prod.fst)).contains v = true →
      vertices.records.contains v = true := by
    intro v hv
    rw [OrdMap.contains_addAll, OrdMap.contains_empty] at hv
    exact hrecords v (.inl (hv.resolve_right Bool.false_ne_true))
  refine hmetadata.trans ?_
  cases hinserted : (c.topology.edgeEpochAt mutation.edge n).isNone with
  | true =>
    rw [if_pos rfl]
    have hnone := (Topology.edgeEpochAt_eq_none ok.adjacency.bounded).1
      (Option.isNone_iff_eq_none.1 hinserted)
    refine .trans (Steps.insertEdgeWithEnds policy ?_ ?_ ?_)
      (Steps.insertCountedRelationship ?_ canonical ?_)
    · exact fun _ => hnone
    · exact fun _ => id
    · exact hskip
    · rw [Cell.relationships_insertCountedEdge]
      exact hunused
    · exact Cell.visible_insertCountedEdge.2 (.inl rfl)
  | false =>
    rw [if_neg Bool.false_ne_true]
    refine .trans (Steps.ensureRecords fun h => absurd h Bool.false_ne_true)
      (Steps.insertCountedRelationship hunused canonical ?_)
    rw [← Option.not_isSome, Bool.not_eq_false'] at hinserted
    exact (Topology.isSome_edgeEpochAt ok.adjacency.bounded).1 hinserted

/-! ## Metadata -/

theorem setRelationshipMetadataTxn_committed {k : RelationshipKey}
    (canonical : g.canonical = true → metadata.properties.Canonical)
    (h : setRelationshipMetadataTxn cellId k metadata n c = .ok (.commit c' r)) :
    Committed F g (n + 1) c c' := by
  replace h := seq_ok h
  split at h
  · cases h
  next previous hget =>
  split at h
  · cases h
  · cases commitTxn_ok h
    exact .single (.replaceRelationship k previous metadata hget canonical)

/-! ## Delete -/

theorem RelationshipKey.eq_of_edge {r : RelationshipKey} (hedge : r.edge = r'.edge)
    (hid : r.relationshipId = r'.relationshipId) : r = r' := by
  obtain ⟨ty, src, dst, id⟩ := r
  obtain ⟨ty', src', dst', id'⟩ := r'
  cases hedge
  cases hid
  rfl

variable {s : RelationshipStore}

theorem RelationshipStore.count_setCount :
    (s.setCount k count).counts.count k' = if k' = k then count else s.counts.count k' := by
  unfold setCount
  split
  · next h => rw [OrdMap.count_del, h]
  · exact OrdMap.count_put

/-- Writing the count of an edge settles what is owed for it. -/
theorem Step.payCount {count : Nat} (h : (count : Int) = c.relationships.counts.count k + δ) :
    Step F g e ⟨c, l.addUncounted k δ⟩
      ⟨c.setRelationships (c.relationships.setCount k count), l⟩ := by
  refine Step.to (.countRelationships (c.relationships.setCount k count).counts l.uncounted
    fun k' => ?_) rfl rfl
  rw [RelationshipStore.count_setCount]
  simp only [Ledger.addUncounted]
  split
  · next hk => subst hk; omega
  · omega

/-- No relationship but those in the list is on the edge. -/
theorem RelationshipStore.hasSurviving_eq_false (h : s.hasSurviving k deleting = false)
    (hr : s.records.get r = some metadata) (hedge : r.edge = k) : r.relationshipId ∈ deleting := by
  have hany := List.any_eq_false.1 h ⟨r, metadata⟩ (mem_liveForEdge.2 ⟨hr, hedge⟩)
  simpa using hany

/-- Deleting an edge without relationships, if it is stored as a direct key. -/
theorem Steps.deleteStructuralEdge (ok : DraftOk g e c₀ ⟨c, l⟩)
    (policy : env.reverseIndex = g.reverseIndex) (hout : ∀ i, l.out i = 0) (hin : ∀ i, l.inn i = 0)
    (bare : c.relationships.Bare k) (h : c.deleteStructuralEdge env cellId k e = .ok (c₁, changed))
    : Steps F g e ⟨c, l⟩ ⟨c₁, l⟩ ∧ c₁.relationships = c.relationships := by
  unfold Cell.deleteStructuralEdge at h
  split at h
  · next hdirect =>
    obtain ⟨edgeMetadata, hclear, h⟩ := bind_ok h
    cases h
    have hremove := (clear (F := F) (e := e) (c := c) (l := l) hclear).tail
      (.removeEdge k (env.floorEnsured cellId k.edgeType) env.reverseIndex hdirect bare
        fun hr => policy.trans hr)
    refine ⟨hremove.trans (decrementDegrees policy (ok.steps hremove) hout hin), ?_⟩
    split <;> rfl
  · cases h
    exact ⟨.refl, rfl⟩

theorem deleteRelationshipTxn_committed (ok : CellOk g n c)
    (policy : env.reverseIndex = g.reverseIndex)
    (h : deleteRelationshipTxn env mutation relationshipId n c = .ok (.commit c' r)) :
    Committed F g (n + 1) c c' := by
  replace h := seq_ok h
  replace h := replayOr_commit h
  dsimp only at h
  split at h
  · cases commitTxn_ok h
    exact Committed.putIdempotency .refl _ _ _
  next metadata hget =>
  obtain ⟨epoch, hepoch, h⟩ := bind_ok h
  cases nextSequence_ok hepoch
  set k := mutation.edge
  set key := mutation.relationship relationshipId
  -- the count is not zero, since it counts the relationship
  have hcount : 0 < c.relationships.counts.count k := by
    have hlive : ⟨key, metadata⟩ ∈ c.relationships.liveForEdge k :=
      RelationshipStore.mem_liveForEdge.2 ⟨hget, rfl⟩
    have hlength := List.length_pos_of_mem hlive
    have hok := ok.relationships.count k
    omega
  have hdelete : Steps F g (n + 1) ⟨c, .zero⟩ ⟨c.setRelationships
      ((c.relationships.deleteRecord ⟨key, metadata⟩).setCount k
        ((c.relationships.deleteRecord ⟨key, metadata⟩).counts.count k - 1)), .zero⟩ := by
    refine .head (.deleteRelationship ⟨key, metadata⟩ hget) (.single (.payCount ?_))
    simp only [Cell.setRelationships, RelationshipStore.counts_deleteRecord]
    change ((c.relationships.counts.count k - 1 : Nat) : Int) = c.relationships.counts.count k + -1
    omega
  split at h
  · cases commitTxn_ok h
    exact Committed.putIdempotency hdelete _ _ _
  next hothers =>
  obtain ⟨⟨c₁, changed⟩, hc₁, h⟩ := bind_ok h
  cases commitTxn_ok h
  refine Committed.putIdempotency (hdelete.trans ?_) _ _ _
  refine (Steps.deleteStructuralEdge (ok.steps hdelete) policy (fun _ => rfl) (fun _ => rfl)
    (fun r hr => ?_) hc₁).1
  change (c.relationships.deleteRecord ⟨key, metadata⟩).records.get r = none
  rw [RelationshipStore.records_deleteRecord, OrdMap.get_del]
  split
  · rfl
  next hne =>
  cases hlive : c.relationships.records.get r with
  | none => rfl
  | some =>
    have hmem :=
      RelationshipStore.hasSurviving_eq_false (Bool.eq_false_iff.2 hothers) hlive hr
    exact absurd (RelationshipKey.eq_of_edge hr (List.mem_singleton.1 hmem)) hne

/-! ## Delete a batch -/

namespace RelationshipDeleteBatch

/-- The relationships to delete on one edge. -/
def deletingOn (pending : List (EdgeMutation × RelationshipRecord)) (k : EdgeKey) :
    OrdMap RelationshipId Unit :=
  ((deletingByEdge pending).get k).getD ∅

theorem deletingOn_concat (pending : List (EdgeMutation × RelationshipRecord))
    (p : EdgeMutation × RelationshipRecord) (k : EdgeKey) :
    deletingOn (pending ++ [p]) k =
      if k = p.1.edge then (deletingOn pending k).put p.2.key.relationshipId ()
      else deletingOn pending k := by
  rw [deletingOn, deletingByEdge, List.foldl_append, List.foldl_cons, List.foldl_nil,
    OrdMap.get_put]
  split
  · next h => rw [h]; rfl
  · rfl

/-- Grouping by edge loses no relationship. -/
theorem contains_deletingOn (pending : List (EdgeMutation × RelationshipRecord)) (k : EdgeKey)
    (id : RelationshipId) : (deletingOn pending k).contains id = true ↔
      ∃ p ∈ pending, p.1.edge = k ∧ p.2.key.relationshipId = id := by
  induction pending using List.reverseRecOn with
  | nil => simp [deletingOn, deletingByEdge]
  | append_singleton pending p ih =>
    rw [deletingOn_concat]
    rw [List.exists_mem_snoc]
    by_cases hk : k = p.1.edge
    · subst hk
      rw [if_pos rfl, OrdMap.contains_put, ih, or_comm, eq_comm]
      simp
    · have hk' : ¬ p.1.edge = k := fun h => hk h.symm
      rw [if_neg hk, ih]
      simp [hk']

/-- Grouping by edge counts each relationship once. -/
theorem length_deletingOn {pending : List (EdgeMutation × RelationshipRecord)}
    (edge : ∀ p ∈ pending, p.2.key.edge = p.1.edge)
    (distinct : (pending.map fun p => p.2.key).Nodup) (k : EdgeKey) :
    (deletingOn pending k).entries.length = pending.countP fun p => p.2.key.edge = k := by
  induction pending using List.reverseRecOn with
  | nil => rfl
  | append_singleton pending p ih =>
    rw [List.map_append, List.nodup_append] at distinct
    have hlength := ih (fun q hq => edge q (List.mem_append_left _ hq)) distinct.1
    have hedge : p.2.key.edge = p.1.edge := edge p (List.mem_append_right _ List.mem_cons_self)
    rw [deletingOn_concat, List.countP_append, List.countP_singleton, hedge]
    by_cases hk : k = p.1.edge
    · subst hk
      have hnew : (deletingOn pending p.1.edge).get p.2.key.relationshipId = none := by
        rw [← Option.not_isSome_iff_eq_none, ← OrdMap.contains_iff, contains_deletingOn]
        rintro ⟨q, hq, hqedge, hqid⟩
        have hqkey : q.2.key = p.2.key := RelationshipKey.eq_of_edge
          ((edge q (List.mem_append_left _ hq)).trans (hqedge.trans hedge.symm)) hqid
        exact distinct.2.2 _ (List.mem_map_of_mem hq) _ List.mem_cons_self hqkey
      rw [if_pos rfl, OrdMap.length_entries_put_new hnew, hlength]
      simp
    · have hk' : ¬ p.1.edge = k := fun h => hk h.symm
      rw [if_neg hk, hlength]
      simp [hk']

/-- The counts after the loop that lowers them. -/
theorem foldl_lowerCount (es : List (EdgeKey × OrdMap RelationshipId Unit))
    (hes : es.Pairwise fun a b => a.1 < b.1) (s : RelationshipStore) :
    ∃ counts, es.foldl lowerCount s = { s with counts := counts } ∧
      ∀ k, counts.count k = s.counts.count k - ((OrdMap.lookup k es).getD ∅).entries.length := by
  induction es generalizing s with
  | nil => exact ⟨s.counts, rfl, fun _ => rfl⟩
  | cons e es ih =>
    obtain ⟨he, hes⟩ := List.pairwise_cons.1 hes
    obtain ⟨counts, hfold, hcount⟩ := ih hes (lowerCount s e)
    refine ⟨counts, hfold, fun k => ?_⟩
    rw [hcount, lowerCount, RelationshipStore.count_setCount, OrdMap.lookup]
    by_cases hk : k = e.1
    · -- the remaining edges are larger, so they do not touch `k` again
      have hnone : OrdMap.lookup k es = none := by
        cases hl : OrdMap.lookup k es with
        | none => rfl
        | some =>
          have hlt := he _ ((OrdMap.lookup_eq_some_iff hes).1 hl)
          exact absurd hlt (by rw [hk]; exact lt_irrefl _)
      rw [if_pos hk, if_pos hk.symm, hnone, hk]
      rfl
    · rw [if_neg hk, if_neg fun h => hk h.symm]

/-- What the first loop of a batch keeps, over the relationships `s` of the cell it reads. -/
structure Reached (F : VertexMetadata → Prop) (g : Regime) (n : StorageSequence) (c : Cell)
    (done : List (EdgeMutation × RelationshipId)) (b : RelationshipDeleteBatch) : Prop where
  steps : Steps F g (n + 1) ⟨c, .zero⟩ ⟨b.cell, .zero⟩
  same : b.cell.relationships = c.relationships
  live : ∀ p ∈ b.pending, c.relationships.records.get p.2.key = some p.2.metadata
  edge : ∀ p ∈ b.pending, p.2.key.edge = p.1.edge
  requested : (b.pending.map fun p => p.2.key).Sublist
    (done.map fun deletion => deletion.1.relationship deletion.2)

theorem Reached.step {b : RelationshipDeleteBatch} (hb : b.Reached F g n c done)
    (hinitial : initial.relationships = c.relationships)
    (h : b.step cellId initial n deletion = .ok b') : b'.Reached F g n c (done ++ [deletion]) := by
  have hdone : (b.pending.map fun p => p.2.key).Sublist
      ((done ++ [deletion]).map fun deletion => deletion.1.relationship deletion.2) := by
    rw [List.map_append]
    exact hb.requested.trans (List.sublist_append_left _ _)
  obtain ⟨mutation, relationshipId⟩ := deletion
  unfold RelationshipDeleteBatch.step at h
  dsimp only at h
  split at h
  · obtain ⟨result, -, h⟩ := bind_ok h
    cases h
    split <;> exact ⟨hb.steps, hb.same, hb.live, hb.edge, hdone⟩
  split at h
  · cases h
    exact ⟨hb.steps.tail (.putIdempotency _ _ _), hb.same, hb.live, hb.edge, hdone⟩
  next metadata hget =>
  cases h
  rw [hinitial] at hget
  refine ⟨hb.steps, hb.same, List.forall_mem_snoc.2 ⟨hb.live, hget⟩,
    List.forall_mem_snoc.2 ⟨hb.edge, rfl⟩, ?_⟩
  rw [List.map_append, List.map_append]
  exact hb.requested.append (.refl _)

end RelationshipDeleteBatch

/-- Recording edge deletes that did nothing changes the recorded results only. -/
theorem Cell.reserveEdgeDeleteNoops_ok
    (h : c.reserveEdgeDeleteNoops cellId n mutations = .ok (c₁, reserved)) :
    Steps F g e ⟨c, l⟩ ⟨c₁, l⟩ ∧ c₁.relationships = c.relationships := by
  refine List.foldlM_ok_invariant (P := fun acc =>
    Steps F g e ⟨c, l⟩ ⟨acc.1, l⟩ ∧ acc.1.relationships = c.relationships) h ⟨.refl, rfl⟩ ?_
  rintro mutation - acc acc' ⟨hsteps, hsame⟩ hstep
  split at hstep
  · replace hstep := seq_ok hstep
    cases hstep
    exact ⟨hsteps, hsame⟩
  · cases hstep
    exact ⟨hsteps.tail (.putIdempotency _ _ _), hsame⟩

/-- Deleting the pending relationships of a batch and lowering the counts of their edges. An edge
whose relationships were all pending is bare afterwards. -/
theorem RelationshipDeleteBatch.Reached.deleteAll {b : RelationshipDeleteBatch}
    (hb : b.Reached F g n c deletions) (ok : CellOk g n c)
    (distinct : (deletions.map fun deletion => deletion.1.relationship deletion.2).Nodup) :
    let c₁ := b.pending.foldl (deletePending (n + 1)) b.cell
    let c₂ := c₁.setRelationships
      ((deletingByEdge b.pending).entries.foldl lowerCount c₁.relationships)
    Steps F g (n + 1) ⟨c, .zero⟩ ⟨c₂, .zero⟩ ∧
      ∀ k, b.cell.relationships.hasSurviving k
        (deletingOn b.pending k).keys = false → c₂.relationships.Bare k := by
  intro c₁ c₂
  have hdistinct := distinct.sublist hb.requested
  obtain ⟨hdelete, hget⟩ := Steps.deleteEach Prod.snd (deletePending (n + 1))
    (fun _ _ _ => .single (.putIdempotency _ _ _)) (fun _ _ => rfl) b.pending hdistinct
    fun p hp => hb.same ▸ hb.live p hp
  have hsteps := hb.steps.trans hdelete
  obtain ⟨counts, hfold, hcount⟩ := foldl_lowerCount
    (deletingByEdge b.pending).entries (OrdMap.sorted _) c₁.relationships
  have hc₂ : c₂ = c₁.setRelationships { c₁.relationships with counts := counts } := by
    rw [← hfold]
  refine ⟨hsteps.tail (Step.to (.countRelationships counts (fun _ => 0) fun k => ?_) hc₂ rfl), ?_⟩
  · have hlive := (ok.steps hsteps).relationships.count k
    have hlength := length_deletingOn hb.edge hdistinct k
    have hlookup : (OrdMap.lookup k (deletingByEdge b.pending).entries).getD
        ∅ = deletingOn b.pending k := rfl
    rw [hcount, hlookup, hlength]
    dsimp only [Ledger.zero, c₁] at hlive ⊢
    omega
  intro k hsurviving r hr
  have hrecord : c₂.relationships.records.get r = c₁.relationships.records.get r := by
    rw [hc₂]
    rfl
  rw [hrecord, hget]
  split
  · rfl
  next hmem =>
  cases hlive : b.cell.relationships.records.get r with
  | none => rfl
  | some =>
    have hid := RelationshipStore.hasSurviving_eq_false hsurviving hlive hr
    rw [OrdMap.mem_keys_iff_contains, contains_deletingOn] at hid
    obtain ⟨p, hp, hpedge, hpid⟩ := hid
    refine absurd (List.mem_map.2 ⟨p, hp, ?_⟩) hmem
    exact RelationshipKey.eq_of_edge ((hb.edge p hp).trans (hpedge.trans hr.symm)) hpid

theorem nodup_validateUniqueRelationshipDeletes
    (h : validateUniqueRelationshipDeletes deletions = .ok u) :
    (deletions.map fun deletion => deletion.1.relationship deletion.2).Nodup := by
  obtain ⟨seen, hloop, -⟩ := bind_ok h
  refine List.nodup_of_foldlM_ok _ (fun seen r => seen.2.contains r = true) hloop ?_
  intro seen deletion seen' hstep
  split at hstep
  · cases hstep
  · obtain ⟨hnew, hstep⟩ := else_of_ne hstep nofun
    cases hstep
    exact ⟨hnew, OrdMap.contains_put.2 (.inl rfl), fun k hk => OrdMap.contains_put.2 (.inr hk)⟩

theorem deleteRelationshipMutationsBatchTxn_committed (ok : CellOk g n c)
    (policy : env.reverseIndex = g.reverseIndex)
    (distinct : (deletions.map fun deletion => deletion.1.relationship deletion.2).Nodup)
    (h : deleteRelationshipMutationsBatchTxn env cellId deletions guards n c = .ok (.commit c' r)) :
    Committed F g (n + 1) c c' := by
  replace h := seq_ok h
  obtain ⟨⟨c₀, reserved⟩, hreserve, h⟩ := bind_ok h
  obtain ⟨epoch, hepoch, h⟩ := bind_ok h
  cases nextSequence_ok hepoch
  obtain ⟨b, hloop, h⟩ := bind_ok h
  obtain ⟨hreserved, hsame⟩ := Cell.reserveEdgeDeleteNoops_ok hreserve
  have hb : b.Reached F g n c deletions := by
    refine List.foldlM_ok_induction hloop ⟨hreserved, hsame, ?_, ?_, .slnil⟩ ?_
    · exact nofun
    · exact nofun
    · exact fun done deletion rest b b' _ hb hstep => hb.step hsame hstep
  obtain ⟨hsteps, hbare⟩ := hb.deleteAll ok distinct
  obtain ⟨⟨c₃, changed⟩, hstructural, h⟩ := bind_ok h
  cases commitTxnIf_ok h
  refine (List.foldlM_ok_invariant (P := fun acc : Cell × Bool =>
    Steps F g (n + 1) ⟨c, .zero⟩ ⟨acc.1, .zero⟩ ∧ acc.1.relationships = _) hstructural
    ⟨hsteps, rfl⟩ ?_).1
  rintro k hk acc acc' ⟨hacc, hrelationships⟩ hstep
  obtain ⟨⟨c₁, changed₁⟩, hdelete, hstep⟩ := bind_ok hstep
  cases hstep
  obtain ⟨x, hmem, rfl⟩ := List.mem_map.1 hk
  obtain ⟨hentry, hsurviving⟩ := List.mem_filter.1 hmem
  have hids : deletingOn b.pending x.1 = x.2 := by
    rw [deletingOn, OrdMap.mem_entries.1 hentry]
    rfl
  have hbare' := hbare x.1 (by rw [hids]; simpa using hsurviving)
  obtain ⟨hstructural₁, hsame₁⟩ := Steps.deleteStructuralEdge (ok.steps hacc) policy
    (fun _ => rfl) (fun _ => rfl) (by rw [hrelationships]; exact hbare') hdelete
  exact ⟨hacc.trans hstructural₁, hsame₁.trans hrelationships⟩

theorem deleteRelationshipMutationsBatchWithGuards_committed (ok : CellOk g n c)
    (policy : env.reverseIndex = g.reverseIndex)
    (h : deleteRelationshipMutationsBatchWithGuards env cellId deletions guards n c =
      .ok (.commit c' r)) : Committed F g (n + 1) c c' := by
  replace h := seq_ok h
  replace h := rest_of_ne h nofun
  replace h := seq_ok₃ h
  replace h := seq_ok₂ h
  obtain ⟨_, hunique, h⟩ := bind_ok h
  exact deleteRelationshipMutationsBatchTxn_committed ok policy
    (nodup_validateUniqueRelationshipDeletes hunique) h

end HydraDb
