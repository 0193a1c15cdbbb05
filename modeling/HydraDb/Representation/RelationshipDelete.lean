import HydraDb.Commit.Relationship
import HydraDb.Representation.Delete

/-!
# Relationship deletes see how edges are stored

The delete of the last relationship of an edge deletes the edge only if it is a direct key. So two
cells that are alike stay alike when each edge that loses its last relationship is stored in the
same form in both, and not otherwise.
-/

namespace HydraDb

open RelationshipDeleteBatch
open List hiding contains_iff
open OrdMap

open HydraDb.Topology (Deleting Hidden)

variable {T : TopologyRel} {e : StorageSequence} {env : WriteEnv} {c : Cell}
  {deletions : List (EdgeMutation × RelationshipId)} {cellId : CellId}
  {k : EdgeKey} {b : RelationshipDeleteBatch}
  {s : RelationshipStore}

/-! ## Which edges lose their last relationship -/

/-- The request to delete a relationship is not a replay, and the relationship is there. -/
def Cell.Deletes (c : Cell) (deletion : EdgeMutation × RelationshipId) : Prop :=
  c.idempotency.get ⟨"relationship-delete", deletion.1.idempotencyKey⟩ = none ∧
    (c.relationships.records.get (deletion.1.relationship deletion.2)).isSome = true

/-- The requests delete every relationship of the edge, and there is one. -/
structure Cell.LosesLast (c : Cell) (deletions : List (EdgeMutation × RelationshipId))
    (k : EdgeKey) : Prop where
  deleted : ∃ deletion ∈ deletions, c.Deletes deletion ∧ deletion.1.edge = k
  all : ∀ r, (c.relationships.records.get r).isSome = true → r.edge = k →
    ∃ deletion ∈ deletions, c.Deletes deletion ∧ deletion.1.relationship deletion.2 = r

theorem RelationshipStore.hasSurviving_eq_false_iff
    : s.hasSurviving k deleting = false ↔
      ∀ r, (s.records.get r).isSome = true → r.edge = k → r.relationshipId ∈ deleting := by
  constructor
  · intro h r hr hedge
    obtain ⟨metadata, hr⟩ := Option.isSome_iff_exists.1 hr
    exact hasSurviving_eq_false h hr hedge
  intro h
  refine any_eq_false.2 fun record hrecord => ?_
  obtain ⟨hget, hedge⟩ := mem_liveForEdge.1 hrecord
  simpa using h record.key (by rw [hget]; rfl) hedge

/-! ## The structural delete -/

/-- The structural delete takes the direct key of its edge and no segment position. -/
theorem Cell.deleteStructuralEdge_topology
    (h : c.deleteStructuralEdge env cellId k e = .ok (c₁, changed)) :
    (c₁.topology.Direct k' ↔ k' ≠ k ∧ c.topology.Direct k') ∧
      (c₁.topology.SegVisible k' ↔ c.topology.SegVisible k') := by
  unfold deleteStructuralEdge at h
  split at h
  · obtain ⟨edgeMetadata, -, h⟩ := bind_ok h
    cases h
    cases env.reverseIndex <;> exact ⟨contains_del, Iff.rfl⟩
  next hd =>
  cases h
  refine ⟨⟨fun hk' => ⟨?_, hk'⟩, And.right⟩, Iff.rfl⟩
  rintro rfl
  exact hd hk'

namespace Alike

theorem deleteStructuralEdge (hT : Deleting T) (henv : env.reverseIndex = false)
    (h : Alike T e c c') (hform : c.topology.Direct k ↔ c'.topology.Direct k) :
    Except.Lockstep (fun p p' => Alike T e p.1 p'.1 ∧ p.2 = p'.2)
      (c.deleteStructuralEdge env cellId k epoch) (c'.deleteStructuralEdge env cellId k epoch) := by
  unfold Cell.deleteStructuralEdge
  simp only [henv, Bool.false_eq_true, if_false]
  by_cases hd : c.topology.outEdges.contains k = true
  · have hd' : c'.topology.outEdges.contains k = true := hform.1 hd
    rw [if_pos hd, if_pos hd']
    have hmarked := h.markTopologyChange env cellId k.edgeType epoch [(k.src, k.dst, false)]
    rw [hmarked.edgeMetadata]
    refine .bind_same fun edgeMetadata _ => ⟨?_, rfl⟩
    exact ((hmarked.setEdgeMetadata edgeMetadata).hide hT (.direct false hd)
      (.direct false hd')).decrementDegreeOut hT.toCounting
  · have hd' : ¬ c'.topology.outEdges.contains k = true := fun hd' => hd (hform.2 hd')
    rw [if_neg hd, if_neg hd']
    exact .ok ⟨h, rfl⟩

theorem deletes_iff (h : Alike T e c c') : c.Deletes deletion ↔ c'.Deletes deletion := by
  unfold Cell.Deletes
  rw [h.relationships]
  refine and_congr_left' ?_
  rcases h.get_idempotency "relationship-delete" (by simp [writeOperations])
    deletion.1.idempotencyKey with ⟨hr, hr'⟩ | ⟨r, r', hr, hr', -⟩
  · rw [hr, hr']
  · rw [hr, hr']
    exact iff_of_false (Option.some_ne_none _) (Option.some_ne_none _)

end Alike

/-! ## One relationship -/

/-- A relationship without others on its edge is the last. -/
theorem Cell.losesLast_singleton :
    c.LosesLast [(mutation, relationshipId)] mutation.edge ↔
      c.Deletes (mutation, relationshipId) ∧
        c.relationships.hasSurviving mutation.edge [relationshipId] = false := by
  rw [RelationshipStore.hasSurviving_eq_false_iff]
  constructor
  · rintro ⟨⟨deletion, hmem, hdeletes, -⟩, all⟩
    rw [mem_singleton] at hmem
    subst hmem
    refine ⟨hdeletes, fun r hr hedge => ?_⟩
    obtain ⟨deletion, hmem, -, rfl⟩ := all r hr hedge
    rw [mem_singleton] at hmem
    subst hmem
    exact mem_singleton_self _
  · rintro ⟨hdeletes, all⟩
    refine ⟨⟨_, mem_singleton_self _, hdeletes, rfl⟩, fun r hr hedge => ?_⟩
    have hid := mem_singleton.1 (all r hr hedge)
    exact ⟨_, mem_singleton_self _, hdeletes, RelationshipKey.eq_of_edge hedge.symm hid.symm⟩

namespace Alike

theorem deleteRelationship (hT : Deleting T) (henv : env.reverseIndex = false) (h : Alike T n c c')
    (hform : c.LosesLast [(mutation, relationshipId)] mutation.edge →
      (c.topology.Direct mutation.edge ↔ c'.topology.Direct mutation.edge)) :
    Except.Lockstep (Outcome.Alike T (n + 1) (· = ·))
      (deleteRelationship env mutation relationshipId n c)
      (deleteRelationship env mutation relationshipId n c') := by
  have hnext : Alike T (n + 1) c c' := h.mono hT.toCounting n.le_succ
  unfold HydraDb.deleteRelationship deleteRelationshipTxn
  rw [h.validateWriteFence_eq]
  refine .seq <| .seq <| h.replayOr_of_fresh (by simp [writeOperations])
    (fun text r r' hr => lockstep_decode _ (fun _ _ _ _ => rfl) hr) fun hfresh => ?_
  dsimp only
  rw [← h.relationships]
  cases hget : c.relationships.records.get (mutation.relationship relationshipId) with
  | none => exact (hnext.putIdempotency _ _ rfl).commitTxn rfl
  | some metadata =>
    refine .bind_same fun epoch _ => ?_
    have hdeleted := hnext.setRelationships (rfl : (c.relationships.deleteRecord
      ⟨mutation.relationship relationshipId, metadata⟩).setCount mutation.edge
        ((c.relationships.deleteRecord
          ⟨mutation.relationship relationshipId, metadata⟩).counts.count mutation.edge - 1) = _)
    cases hothers : c.relationships.hasSurviving mutation.edge [relationshipId] with
    | true => exact (hdeleted.putIdempotency _ _ rfl).commitTxn rfl
    | false =>
      have hlast := Cell.losesLast_singleton.2 ⟨⟨hfresh, by rw [hget]; rfl⟩, hothers⟩
      exact (hdeleted.deleteStructuralEdge hT henv (hform hlast)).bind fun p p' hp =>
        (hp.1.putIdempotency _ _ rfl).commitTxn rfl

end Alike

/-! ## A batch of relationships -/

instance (c : Cell) (deletion : EdgeMutation × RelationshipId) : Decidable (c.Deletes deletion) :=
  inferInstanceAs (Decidable (_ ∧ _))

namespace RelationshipDeleteBatch

/-- The edges a batch deletes with their last relationships. -/
def structuralDeletes (s : RelationshipStore) (pending : List (EdgeMutation × RelationshipRecord)) :
    List EdgeKey :=
  ((deletingByEdge pending).entries.filter fun e => !s.hasSurviving e.1 e.2.keys).map Prod.fst

theorem contains_deletingByEdge (pending : List (EdgeMutation × RelationshipRecord)) (k : EdgeKey) :
    (deletingByEdge pending).contains k = true ↔ ∃ p ∈ pending, p.1.edge = k := by
  induction pending using List.reverseRecOn with
  | nil => simp [deletingByEdge]
  | append_singleton pending p ih =>
    rw [deletingByEdge, foldl_append, foldl_cons, foldl_nil, contains_put]
    rw [deletingByEdge] at ih
    rw [ih]
    rw [exists_mem_snoc]
    rw [or_comm, eq_comm]

theorem mem_structuralDeletes {pending : List (EdgeMutation × RelationshipRecord)} :
    k ∈ structuralDeletes s pending ↔ (∃ p ∈ pending, p.1.edge = k) ∧
      s.hasSurviving k (deletingOn pending k).keys = false := by
  rw [← contains_deletingByEdge, contains_iff, Option.isSome_iff_exists]
  simp only [structuralDeletes, mem_map, mem_filter, Prod.exists, Bool.not_eq_true']
  constructor
  · rintro ⟨k, ids, ⟨hmem, hsurviving⟩, rfl⟩
    have hget := mem_entries.1 hmem
    refine ⟨⟨ids, hget⟩, ?_⟩
    rw [deletingOn, hget]
    exact hsurviving
  · rintro ⟨⟨ids, hget⟩, hsurviving⟩
    rw [deletingOn, hget] at hsurviving
    exact ⟨k, ids, ⟨mem_entries.2 hget, hsurviving⟩, rfl⟩

/-- The first loop collects the relationships it is to delete and changes no edge. -/
structure Collected (c : Cell) (done : List (EdgeMutation × RelationshipId))
    (b : RelationshipDeleteBatch) : Prop where
  pending : b.pending.map (fun p => (p.1, p.2.key)) =
    (done.filter fun d => c.Deletes d).map fun d => (d.1, d.1.relationship d.2)
  topology : b.cell.topology = c.topology
  relationships : b.cell.relationships = c.relationships

theorem Collected.step (hb : b.Collected c done) (hdeletes : ∀ d, initial.Deletes d ↔ c.Deletes d)
    (h : b.step cellId initial n deletion = .ok b₁) : b₁.Collected c (done ++ [deletion]) := by
  obtain ⟨mutation, relationshipId⟩ := deletion
  have hkeep : ¬ initial.Deletes (mutation, relationshipId) →
      b.pending.map (fun p => (p.1, p.2.key)) =
        ((done ++ [(mutation, relationshipId)]).filter fun d => c.Deletes d).map
          fun d => (d.1, d.1.relationship d.2) := by
    intro hnot
    rw [filter_append, filter_singleton, decide_eq_false fun hd => hnot ((hdeletes _).2 hd)]
    simpa using hb.pending
  unfold RelationshipDeleteBatch.step at h
  dsimp only at h
  split at h
  · next record hrecord =>
    obtain ⟨result, -, h⟩ := bind_ok h
    cases h
    have hnot : ¬ initial.Deletes (mutation, relationshipId) := fun hd =>
      Option.some_ne_none _ (hrecord.symm.trans hd.1)
    split <;> exact ⟨hkeep hnot, hb.topology, hb.relationships⟩
  next hfresh =>
  split at h
  · next hnone =>
    cases h
    have hnot : ¬ initial.Deletes (mutation, relationshipId) := fun hd => by
      have hsome := hd.2
      rw [hnone] at hsome
      cases hsome
    exact ⟨hkeep hnot, hb.topology, hb.relationships⟩
  · next metadata hget =>
    cases h
    have hdeleted : c.Deletes (mutation, relationshipId) :=
      (hdeletes _).1 ⟨hfresh, by rw [hget]; rfl⟩
    refine ⟨?_, hb.topology, hb.relationships⟩
    rw [filter_append, filter_singleton, decide_eq_true hdeleted, map_append, hb.pending]
    simp

/-- The batch deletes the edges that lose their last relationship. -/
theorem Collected.mem_structuralDeletes_iff (hb : b.Collected c deletions) :
    k ∈ structuralDeletes c.relationships b.pending ↔ c.LosesLast deletions k := by
  have hmem : ∀ q, (∃ p ∈ b.pending, (p.1, p.2.key) = q) ↔
      ∃ d ∈ deletions, c.Deletes d ∧ (d.1, d.1.relationship d.2) = q := by
    intro q
    have := congrArg (q ∈ ·) hb.pending
    simpa only [mem_map, mem_filter, decide_eq_true_eq, and_assoc, eq_iff_iff] using this
  rw [mem_structuralDeletes, RelationshipStore.hasSurviving_eq_false_iff]
  simp only [mem_keys_iff_contains, contains_deletingOn]
  constructor
  · rintro ⟨⟨p, hp, rfl⟩, all⟩
    obtain ⟨d, hd, hdeletes, heq⟩ := (hmem _).1 ⟨p, hp, rfl⟩
    refine ⟨⟨d, hd, hdeletes, congrArg EdgeMutation.edge (Prod.mk.inj heq).1⟩, fun r hr hedge => ?_⟩
    obtain ⟨q, hq, hqedge, hqid⟩ := all r hr hedge
    obtain ⟨d, hd, hdeletes, heq⟩ := (hmem _).1 ⟨q, hq, rfl⟩
    obtain ⟨hmutation, hkey⟩ := Prod.mk.inj heq
    refine ⟨d, hd, hdeletes, RelationshipKey.eq_of_edge ?_ ?_⟩
    · rw [hedge, ← hqedge, ← hmutation]
      rfl
    · rw [hkey, hqid]
  · rintro ⟨⟨d, hd, hdeletes, rfl⟩, all⟩
    obtain ⟨p, hp, heq⟩ := (hmem _).2 ⟨d, hd, hdeletes, rfl⟩
    refine ⟨⟨p, hp, congrArg EdgeMutation.edge (Prod.mk.inj heq).1⟩, fun r hr hedge => ?_⟩
    obtain ⟨d', hd', hdeletes', rfl⟩ := all r hr hedge
    obtain ⟨q, hq, hqeq⟩ := (hmem _).2 ⟨d', hd', hdeletes', rfl⟩
    obtain ⟨hmutation, hkey⟩ := Prod.mk.inj hqeq
    refine ⟨q, hq, ?_, ?_⟩
    · rw [hmutation, ← hedge]
      rfl
    · rw [hkey]

/-- The state of the first loop on two cells that are alike. -/
structure Alike (T : TopologyRel) (e : StorageSequence)
    (b b' : RelationshipDeleteBatch) : Prop where
  cell : HydraDb.Alike T e b.cell b'.cell
  deleted : b.deleted = b'.deleted
  alreadyDeleted : b.alreadyDeleted = b'.alreadyDeleted
  pending : b.pending = b'.pending
  wrote : b.wrote = b'.wrote

theorem Alike.step (h : Alike T e b b') (hinitial : HydraDb.Alike T e initial initial')
    (cellId : CellId) (deletion : EdgeMutation × RelationshipId) :
    Except.Lockstep (Alike T e) (b.step cellId initial n deletion)
      (b'.step cellId initial' n deletion) := by
  obtain ⟨mutation, relationshipId⟩ := deletion
  unfold RelationshipDeleteBatch.step
  dsimp only
  rw [hinitial.relationships]
  rcases hinitial.get_idempotency "relationship-delete" (by simp [writeOperations])
    mutation.idempotencyKey with ⟨hr, hr'⟩ | ⟨r, r', hr, hr', houtcome⟩
  · rw [hr, hr']
    cases initial'.relationships.records.get (mutation.relationship relationshipId) with
    | none =>
      exact .ok ⟨h.cell.putIdempotency _ _ rfl, h.deleted, congrArg (· + 1) h.alreadyDeleted,
        h.pending, rfl⟩
    | some =>
      exact .ok ⟨h.cell, h.deleted, h.alreadyDeleted, congrArg (· ++ _) h.pending, h.wrote⟩
  · rw [hr, hr']
    refine (lockstep_decode (decodeRelationshipDeleteIdempotency _ mutation
      relationshipId) (fun _ _ _ _ => rfl) houtcome).bind fun result result' hresult => ?_
    subst hresult
    split
    · exact .ok ⟨h.cell, congrArg (· + 1) h.deleted, h.alreadyDeleted, h.pending, h.wrote⟩
    · exact .ok ⟨h.cell, h.deleted, congrArg (· + 1) h.alreadyDeleted, h.pending, h.wrote⟩

end RelationshipDeleteBatch

/-- Recording edge deletes that did nothing touches neither edges nor relationships nor the records
of relationship deletes. -/
theorem Cell.reserveEdgeDeleteNoops_frame
    (h : c.reserveEdgeDeleteNoops cellId n guards = .ok (c₁, reserved)) :
    c₁.topology = c.topology ∧ c₁.relationships = c.relationships ∧
      ∀ d, c₁.Deletes d ↔ c.Deletes d := by
  refine foldlM_ok_invariant (P := fun acc => acc.1.topology = c.topology ∧
    acc.1.relationships = c.relationships ∧ ∀ d, acc.1.Deletes d ↔ c.Deletes d) h
    ⟨rfl, rfl, fun _ => Iff.rfl⟩ ?_
  rintro mutation - acc acc' ⟨ht, hr, hd⟩ hstep
  split at hstep
  · replace hstep := seq_ok hstep
    cases hstep
    exact ⟨ht, hr, hd⟩
  cases hstep
  refine ⟨ht, hr, fun d => Iff.trans ?_ (hd d)⟩
  unfold Cell.Deletes putIdempotency
  rw [get_put_of_ne (by simp)]

/-- What the first loop of a batch has collected at its end. -/
theorem RelationshipDeleteBatch.collected
    (hreserve : c.reserveEdgeDeleteNoops cellId n guards = .ok p)
    (hloop : deletions.foldlM (step cellId p.1 n) ⟨p.1, 0, 0, [], p.2⟩ = .ok b) :
    b.Collected c deletions := by
  obtain ⟨ht, hr, hd⟩ := Cell.reserveEdgeDeleteNoops_frame hreserve
  exact foldlM_ok_induction hloop ⟨rfl, ht, hr⟩ fun _ _ _ _ _ _ hb hstep => hb.step hd hstep

theorem Alike.reserveEdgeDeleteNoops (h : Alike T e c c') :
    Except.Lockstep (fun p p' => Alike T e p.1 p'.1 ∧ p.2 = p'.2)
      (c.reserveEdgeDeleteNoops cellId n guards) (c'.reserveEdgeDeleteNoops cellId n guards) := by
  refine Except.Lockstep.foldlM (fun _ (p p' : Cell × Bool) => Alike T e p.1 p'.1 ∧ p.2 = p'.2)
    ⟨h, rfl⟩ fun _ mutation _ p p' _ hp => ?_
  rcases h.get_idempotency "delete" (by simp [writeOperations])
    mutation.idempotencyKey with ⟨hr, hr'⟩ | ⟨r, r', hr, hr', houtcome⟩
  · rw [hr, hr']
    exact .ok ⟨hp.1.putIdempotency _ _ rfl, rfl⟩
  rw [hr, hr']
  refine (lockstep_decode (decodeDeleteIdempotency _ mutation) (fun _ _ _ _ => rfl)
    houtcome).bind fun _ _ _ => ?_
  exact .ok hp

/-- The last loop of the batch: delete the edges that lost their relationships. -/
def Cell.deleteStructuralEdges (c : Cell) (env : WriteEnv) (cellId : CellId)
    (epoch : StorageSequence) (edges : List EdgeKey) : Except GraphError (Cell × Bool) :=
  edges.foldlM (fun (acc : Cell × Bool) k => do
    let (c, changed) ← acc.1.deleteStructuralEdge env cellId k epoch
    return (c, acc.2 || changed)) (c, false)

theorem Cell.deleteStructuralEdges_topology
    (h : c.deleteStructuralEdges env cellId epoch edges = .ok (c₁, changed)) :
    (c₁.topology.Direct k ↔ k ∉ edges ∧ c.topology.Direct k) ∧
      (c₁.topology.SegVisible k ↔ c.topology.SegVisible k) := by
  refine foldlM_ok_induction (P := fun done acc =>
    (acc.1.topology.Direct k ↔ k ∉ done ∧ c.topology.Direct k) ∧
      (acc.1.topology.SegVisible k ↔ c.topology.SegVisible k)) h (by simp) ?_
  rintro done k' rest acc acc' - ⟨hd, hs⟩ hstep
  obtain ⟨⟨c₂, changed⟩, hdelete, hstep⟩ := bind_ok hstep
  cases hstep
  obtain ⟨hd', hs'⟩ := deleteStructuralEdge_topology hdelete
  refine ⟨hd'.trans ?_, hs'.trans hs⟩
  rw [hd, mem_snoc, not_or]
  tauto

namespace Alike

theorem deleteStructuralEdges (hT : Deleting T) (henv : env.reverseIndex = false)
    (h : Alike T e c c') (cellId : CellId) (epoch : StorageSequence)
    (hform : ∀ k ∈ edges, (c.topology.Direct k ↔ c'.topology.Direct k)) :
    Except.Lockstep (fun p p' => Alike T e p.1 p'.1 ∧ p.2 = p'.2)
      (c.deleteStructuralEdges env cellId epoch edges)
      (c'.deleteStructuralEdges env cellId epoch edges) := by
  refine Except.Lockstep.mono (Except.Lockstep.foldlM (fun _ (p p' : Cell × Bool) =>
    (Alike T e p.1 p'.1 ∧ p.2 = p'.2) ∧
      ∀ k ∈ edges, (p.1.topology.Direct k ↔ p'.1.topology.Direct k)) ?_ ?_) fun p p' hp => hp.1
  · exact ⟨⟨h, rfl⟩, hform⟩
  rintro done k rest p p' hl ⟨⟨hp, hchanged⟩, hforms⟩
  have hk : k ∈ edges := mem_of_next hl
  refine (hp.deleteStructuralEdge hT henv (hforms k hk)).with_ok.bind
    fun q q' ⟨⟨hq, hflag⟩, hok, hok'⟩ => ?_
  refine .ok ⟨⟨hq, by rw [hchanged, hflag]⟩, fun k' hk' => ?_⟩
  rw [(Cell.deleteStructuralEdge_topology hok).1, (Cell.deleteStructuralEdge_topology hok').1,
    hforms k' hk']

theorem deletePendings (h : Alike T e c c') (commitEpoch : StorageSequence)
    (pending : List (EdgeMutation × RelationshipRecord)) :
    Alike T e (pending.foldl (deletePending commitEpoch) c)
      (pending.foldl (deletePending commitEpoch) c') :=
  foldl_rel h fun _ _ _ _ hd =>
    (hd.setRelationships (by rw [hd.relationships])).putIdempotency _ _ rfl

end Alike

theorem RelationshipDeleteBatch.topology_deletePendings (commitEpoch : StorageSequence)
    (pending : List (EdgeMutation × RelationshipRecord)) (c : Cell) :
    (pending.foldl (deletePending commitEpoch) c).topology = c.topology :=
  foldl_invariant (P := fun d : Cell => d.topology = c.topology) rfl fun _ _ _ hd => hd

/-- The cell of a batch before its last loop. -/
def RelationshipDeleteBatch.deletedCell (b : RelationshipDeleteBatch)
    (commitEpoch : StorageSequence) : Cell :=
  let c := b.pending.foldl (deletePending commitEpoch) b.cell
  c.setRelationships ((deletingByEdge b.pending).entries.foldl lowerCount c.relationships)

theorem RelationshipDeleteBatch.topology_deletedCell :
    (b.deletedCell commitEpoch).topology = b.cell.topology :=
  topology_deletePendings commitEpoch b.pending b.cell

/-- The batch in the order in which it works: record the guards, collect, delete the relationships,
delete the edges. -/
theorem deleteRelationshipMutationsBatchTxn_eq :
    deleteRelationshipMutationsBatchTxn env cellId deletions guards n c = (do
      c.validateWriteFence cellId "delete_relationship_mutations_batch"
      let p ← c.reserveEdgeDeleteNoops cellId n guards
      let commitEpoch ← nextSequence n "storage_sequence"
        "epoch overflow during relationship delete batch"
      let b ← deletions.foldlM (step cellId p.1 n) ⟨p.1, 0, 0, [], p.2⟩
      let q ← (b.deletedCell commitEpoch).deleteStructuralEdges env cellId commitEpoch
        (structuralDeletes b.cell.relationships b.pending)
      commitTxnIf (b.wrote || !b.pending.isEmpty) n q.1
        { deleted := b.deleted + b.pending.length
          alreadyDeleted := b.alreadyDeleted
          topologySequence := if q.2 then some commitEpoch else none }) := rfl

theorem Alike.deleteRelationshipMutationsBatchWithGuards (hT : Deleting T)
    (henv : env.reverseIndex = false) (h : Alike T n c c')
    (hform : ∀ k, c.LosesLast deletions k → (c.topology.Direct k ↔ c'.topology.Direct k)) :
    Except.Lockstep (Outcome.Alike T (n + 1) (· = ·))
      (deleteRelationshipMutationsBatchWithGuards env cellId deletions guards n c)
      (deleteRelationshipMutationsBatchWithGuards env cellId deletions guards n c') := by
  have hnext : Alike T (n + 1) c c' := h.mono hT.toCounting n.le_succ
  refine .seq <| ?_
  split
  · exact .ok rfl
  refine .seq <| .seq <| .seq <| .seq <| .seq <| .seq <| ?_
  rw [deleteRelationshipMutationsBatchTxn_eq, deleteRelationshipMutationsBatchTxn_eq,
    h.validateWriteFence_eq]
  refine .seq <| ?_
  refine hnext.reserveEdgeDeleteNoops.with_ok.bind fun p p' ⟨⟨hp, hreserved⟩, hok, hok'⟩ => ?_
  refine .bind_same fun commitEpoch _ => ?_
  have hloop : Except.Lockstep (RelationshipDeleteBatch.Alike T (n + 1))
      (deletions.foldlM (step cellId p.1 n) ⟨p.1, 0, 0, [], p.2⟩)
      (deletions.foldlM (step cellId p'.1 n) ⟨p'.1, 0, 0, [], p'.2⟩) :=
    Except.Lockstep.foldlM (fun _ => RelationshipDeleteBatch.Alike T (n + 1))
      ⟨hp, rfl, rfl, rfl, hreserved⟩ fun _ deletion _ _ _ _ hb => hb.step hp cellId deletion
  refine hloop.with_ok.bind fun b b' ⟨hb, hcollect, hcollect'⟩ => ?_
  have hcollected := collected hok hcollect
  have hcollected' := collected hok' hcollect'
  have hdeleted : Alike T (n + 1) (b.deletedCell commitEpoch) (b'.deletedCell commitEpoch) := by
    have hcell := hb.cell.deletePendings commitEpoch b.pending
    unfold deletedCell
    rw [← hb.pending]
    exact hcell.setRelationships (by rw [hcell.relationships])
  rw [← hb.pending, ← hb.cell.relationships, hcollected.relationships, ← hb.wrote, ← hb.deleted,
    ← hb.alreadyDeleted]
  refine (hdeleted.deleteStructuralEdges hT henv cellId commitEpoch fun k hk => ?_).bind
    fun q q' ⟨hq, hchanged⟩ => ?_
  · rw [topology_deletedCell, topology_deletedCell, hcollected.topology, hcollected'.topology]
    exact hform k (hcollected.mem_structuralDeletes_iff.1 hk)
  · rw [hchanged]
    exact hq.commitTxnIf rfl

/-! ## What happens to the edges that lose their last relationship -/

theorem commitTxn_eq_ok (h : commitTxn n c r = .ok outcome) : outcome = .commit c r := by
  replace h := seq_ok h
  exact (Except.ok.inj h).symm

/-- A delete of the last relationship of an edge leaves the edge exactly if a segment shows it. -/
theorem deleteRelationship_visible
    (h : deleteRelationship env mutation relationshipId n c = .ok outcome)
    (hlast : c.LosesLast [(mutation, relationshipId)] k) :
    ∃ c₁ r, outcome = .commit c₁ r ∧ (c₁.topology.Visible k ↔ c.topology.SegVisible k) := by
  obtain rfl : mutation.edge = k := by
    obtain ⟨deletion, hmem, -, hedge⟩ := hlast.deleted
    rw [mem_singleton] at hmem
    subst hmem
    exact hedge
  obtain ⟨⟨hfresh, hsome⟩, hothers⟩ := Cell.losesLast_singleton.1 hlast
  obtain ⟨metadata, hget⟩ := Option.isSome_iff_exists.1 hsome
  replace h := seq_ok₂ h
  unfold Cell.replayOr at h
  dsimp only at h hfresh hget
  rw [hfresh, hget] at h
  obtain ⟨epoch, -, h⟩ := bind_ok h
  rw [hothers] at h
  obtain ⟨⟨c₁, changed⟩, hdelete, h⟩ := bind_ok h
  refine ⟨_, _, commitTxn_eq_ok h, ?_⟩
  obtain ⟨hd, hs⟩ := Cell.deleteStructuralEdge_topology hdelete
  exact (or_iff_right fun h => (hd.1 h).1 rfl).trans hs

/-- A batch that deletes the last relationship of an edge leaves the edge exactly if a segment shows
it. -/
theorem deleteRelationshipMutationsBatchWithGuards_visible
    (h : deleteRelationshipMutationsBatchWithGuards env cellId deletions guards n c = .ok outcome)
    (hlast : c.LosesLast deletions k) :
    ∃ c₁ r, outcome = .commit c₁ r ∧ (c₁.topology.Visible k ↔ c.topology.SegVisible k) := by
  replace h := seq_ok h
  have hne : ¬ deletions.isEmpty = true := by
    obtain ⟨deletion, hmem, -⟩ := hlast.deleted
    rw [List.isEmpty_iff]
    exact ne_nil_of_mem hmem
  rw [if_neg hne] at h
  replace h := seq_ok₃ h
  replace h := seq_ok₃ h
  rw [deleteRelationshipMutationsBatchTxn_eq] at h
  replace h := seq_ok h
  obtain ⟨p, hreserve, h⟩ := bind_ok h
  obtain ⟨commitEpoch, -, h⟩ := bind_ok h
  obtain ⟨b, hloop, h⟩ := bind_ok h
  obtain ⟨⟨c₁, changed⟩, hdelete, h⟩ := bind_ok h
  have hcollected := collected hreserve hloop
  have hmem := hcollected.mem_structuralDeletes_iff.2 hlast
  rw [← hcollected.relationships] at hmem
  -- the batch has something to delete, so it commits
  have hpending : b.pending ≠ [] := by
    obtain ⟨p, hp, -⟩ := (mem_structuralDeletes.1 hmem).1
    exact ne_nil_of_mem hp
  have hwrote : (b.wrote || !b.pending.isEmpty) = true := by simp [hpending]
  replace h := seq_ok h
  rw [hwrote] at h
  refine ⟨_, _, (Except.ok.inj h).symm, ?_⟩
  obtain ⟨hd, hs⟩ := Cell.deleteStructuralEdges_topology hdelete
  rw [topology_deletedCell, hcollected.topology] at hd hs
  exact (or_iff_right fun h => (hd.1 h).1 hmem).trans hs

end HydraDb
