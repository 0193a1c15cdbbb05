import HydraDb.Representation.Relationship
import HydraDb.Representation.RelationshipDelete
import HydraDb.System.Safety

/-!
# The storage representation of edges

Under the policy without a reverse index an edge is a direct key or a position of a segment. The
edge and relationship requests are compared on two cells that differ in this only: the answers, the
visible edges and the counters are the same, except when a request deletes the last relationship of
an edge that the two cells store in different forms. Then the cell with the direct key loses the
edge and the other keeps it.
-/

namespace HydraDb

open HydraDb.Topology

variable {n : StorageSequence} {env : WriteEnv} {c c' : Cell} {k : EdgeKey}
  {m : Mutation}

/-! ## Answers -/

/-- The same answer, up to the sequences reported for edges that existed already. -/
def Answer.Alike : Answer → Answer → Prop
  | .commit r, .commit r' => r.Alike r'
  | .edgeBatch r, .edgeBatch r' => r.Alike r'
  | a, a' => a = a'

/-- The result of an outcome. -/
def Outcome.result {α : Type} : Outcome α → α
  | .unchanged result => result
  | .commit _ result => result

/-- The same visible edges and the same degree counters. -/
structure Topology.SameGraph (t t' : Topology) : Prop where
  visible : ∀ k, t.Visible k ↔ t'.Visible k
  degreeOut : t.degreeOut = t'.degreeOut
  degreeIn : t.degreeIn = t'.degreeIn

/-- Two runs of a request, on the cells `c` and `c'`, have the same outcome: both are refused, or
both are answered with the same answer and leave the same visible edges and counters. -/
def SameOutcome (c c' : Cell) (x x' : Except GraphError (Outcome Answer)) : Prop :=
  match x, x' with
  | .ok o, .ok o' => o.result.Alike o'.result ∧
      (o.committed.getD c).topology.SameGraph (o'.committed.getD c').topology
  | .error _, .error _ => True
  | _, _ => False

/-- The request is refused. -/
def Refused (x : Except GraphError (Outcome Answer)) : Prop := ∃ error, x = .error error

theorem Topology.Agree.sameGraph {t : Topology} (h : t.Agree e t') :
    t.SameGraph t' := ⟨h.visible, h.degreeOut, h.degreeIn⟩

/-- Requests in lockstep have the same outcome. -/
theorem sameOutcome_of_lockstep (hT : Topology.Counting T) (h : c.topology.Agree n c'.topology)
    (hstep : Except.Lockstep (Outcome.Alike T e Answer.Alike) x x') : SameOutcome c c' x x' := by
  cases x with
  | error error =>
    cases x' with
    | error => trivial
    | ok => exact hstep.elim
  | ok o =>
    cases x' with
    | error => exact hstep.elim
    | ok o' =>
      cases o with
      | unchanged =>
        cases o' with
        | unchanged => exact ⟨hstep, h.sameGraph⟩
        | commit => exact hstep.elim
      | commit =>
        cases o' with
        | unchanged => exact hstep.elim
        | commit => exact ⟨hstep.2, (hT.agree hstep.1.topology).sameGraph⟩

theorem lockstep_answering {f : α → Answer}
    (hf : ∀ a a', R a a' → (f a).Alike (f a')) {x' : Except GraphError (Outcome α)}
    (h : Except.Lockstep (Outcome.Alike T e R) x x') :
    Except.Lockstep (Outcome.Alike T e Answer.Alike) (answering f x) (answering f x') := by
  refine Except.Lockstep.bind h fun o o' ho => ?_
  cases o with
  | unchanged a =>
    cases o' with
    | unchanged a' => exact hf a a' ho
    | commit => exact ho.elim
  | commit d a =>
    cases o' with
    | unchanged => exact ho.elim
    | commit d' a' => exact ⟨ho.1, hf a a' ho.2⟩

theorem Answer.Alike.refl (a : Answer) : a.Alike a := by
  cases a with
  | edgeBatch => exact ⟨rfl, rfl, rfl, rfl, List.forall₂_same.2 fun _ _ => rfl⟩
  | _ => exact rfl

theorem lockstep_answering_of_eq (h : Except.Lockstep (Outcome.Alike T e (· = ·)) x x') :
    Except.Lockstep (Outcome.Alike T e Answer.Alike) (answering f x) (answering f x') :=
  lockstep_answering (fun a _ ha => ha ▸ Answer.Alike.refl (f a)) h

/-! ## Requests -/

namespace Mutation

/-- The requests that insert edges or create relationships. -/
def inserts : Mutation → Bool
  | writeEdge _ | writeEdgeWithVertexMetadata _ _ _ | writeEdgeWithFullMetadata _ _ _ _
  | writeEdgeBatch _ _ | writeEdgeBatchBetweenLabeledVertices _ _ _ _ | bulkImportEdges _ _ _ _ _
  | appendOutSegment _ _ _ _ _ | createRelationship _ _ _ _ | importRelationships _ _ _ _
  | createRelationshipBatch _ _ _ _ _ _ | mergeRelationshipBatch _ _ _ _ _ _ => true
  | _ => false

/-- The requests that delete edges or relationships. -/
def deletes : Mutation → Bool
  | deleteEdge _ | deleteEdgeBatch _ _ | deleteRelationship _ _ | deleteRelationshipBatch _ _ _ =>
    true
  | _ => false

/-- The relationships that a request asks to delete. -/
def relationshipDeletions : Mutation → List (EdgeMutation × RelationshipId)
  | deleteRelationship mutation relationshipId => [(mutation, relationshipId)]
  | deleteRelationshipBatch _ deletions _ => deletions
  | _ => []

theorem lockstep_of_inserts (hT : Inserting T) (henv : env.reverseIndex = false)
    (h : Alike T n c c') (hm : m.inserts = true) :
    Except.Lockstep (Outcome.Alike T (n + 1) Answer.Alike) (m.perform env n c)
      (m.perform env n c') := by
  cases m with
  | writeEdge mutation =>
    exact lockstep_answering (fun _ _ ha => ha) (.seq <| h.writeEdgeTxn hT henv mutation _ _ _)
  | writeEdgeWithVertexMetadata mutation =>
    exact lockstep_answering (fun _ _ ha => ha)
      (.bind_same fun _ _ => .bind_same fun _ _ => .bind_same fun _ _ => .bind_same fun _ _ =>
        h.writeEdgeTxn hT henv mutation _ _ _)
  | writeEdgeWithFullMetadata mutation =>
    exact lockstep_answering (fun _ _ ha => ha)
      (.seq <| .seq <| .seq <| .seq <| .bind_same fun _ _ => h.writeEdgeTxn hT henv mutation _ _ _)
  | writeEdgeBatch =>
    exact lockstep_answering (fun _ _ ha => ha)
      (h.writeEdgeMutationsBatchWithEndpointLabels hT henv)
  | writeEdgeBatchBetweenLabeledVertices =>
    exact lockstep_answering (fun _ _ ha => ha)
      (.seq <| .seq <| h.writeEdgeMutationsBatchWithEndpointLabels hT henv)
  | bulkImportEdges =>
    exact lockstep_answering_of_eq (h.bulkImportEdgesWithOptions hT henv)
  | appendOutSegment =>
    exact lockstep_answering_of_eq (h.bulkAppendOutAdjacencySegmentTrusted hT)
  | createRelationship =>
    exact lockstep_answering_of_eq (h.createRelationshipWithFullMetadata hT henv _ _ _ _)
  | importRelationships =>
    exact lockstep_answering_of_eq (h.importRelationshipsBatchWithEndpointLabels hT henv)
  | createRelationshipBatch | mergeRelationshipBatch =>
    exact lockstep_answering_of_eq (.seq <| .seq <|
      h.importRelationshipsBatchWithEndpointLabels hT henv)
  | _ => cases hm

/-- The deletes are in lockstep when the edges that lose their last relationship are stored in the
same form. A single edge delete that finds no next sequence names where it looked. -/
theorem lockstep_of_deletes (hT : Deleting T) (henv : env.reverseIndex = false) (h : Alike T n c c')
    (hm : m.deletes = true)
    (hform : ∀ k, c.LosesLast m.relationshipDeletions k →
      (c.topology.Direct k ↔ c'.topology.Direct k))
    (hlast : ∀ mutation, m = .deleteEdge mutation → n + 1 < u64Bound ∨
      (c.topology.Direct mutation.edge ↔ c'.topology.Direct mutation.edge)) :
    Except.Lockstep (Outcome.Alike T (n + 1) Answer.Alike) (m.perform env n c)
      (m.perform env n c') := by
  cases m with
  | deleteEdge mutation =>
    exact lockstep_answering_of_eq (h.deleteEdge hT henv (hlast mutation rfl))
  | deleteEdgeBatch =>
    exact lockstep_answering_of_eq (h.deleteEdgeMutationsBatch hT henv)
  | deleteRelationship =>
    exact lockstep_answering_of_eq (h.deleteRelationship hT henv (hform _))
  | deleteRelationshipBatch =>
    exact lockstep_answering_of_eq (h.deleteRelationshipMutationsBatchWithGuards hT henv hform)
  | _ => cases hm

end Mutation

/-! ## The last sequence -/

theorem nextSequence_error (hn : ¬ n + 1 < u64Bound) :
    nextSequence n key reason = .error (.corruptValue key reason) := if_neg hn

/-- Without a next sequence a delete is refused, in whichever form the edge is stored. -/
theorem deleteEdgeBody_error (hn : ¬ n + 1 < u64Bound) :
    ∃ error, deleteEdgeBody env mutation n c = .error error := by
  unfold deleteEdgeBody commitTxn deleteEpoch
  simp only [nextSequence_error hn]
  split
  · split <;> exact ⟨_, rfl⟩
  · exact ⟨_, rfl⟩

theorem deleteEdge_sameOutcome (henv : env.reverseIndex = false) (h : Alike Topology.Same n c c')
    (hn : ¬ n + 1 < u64Bound) :
    SameOutcome c c' ((Mutation.deleteEdge mutation).perform env n c)
      ((Mutation.deleteEdge mutation).perform env n c') := by
  unfold Mutation.perform deleteEdge
  dsimp only
  rw [deleteEdgeTxn_eq henv h.topology.left, deleteEdgeTxn_eq henv h.topology.right,
    h.validateWriteFence_eq]
  obtain ⟨error, herror⟩ := deleteEdgeBody_error hn
  obtain ⟨error', herror'⟩ := deleteEdgeBody_error hn
  rw [herror, herror']
  cases mutation.validate with
  | error => trivial
  | ok _ =>
    cases c'.validateWriteFence mutation.cellId "delete_edge" with
    | error => trivial
    | ok _ =>
      unfold Cell.replayOr
      rcases h.get_idempotency "delete" (by simp [writeOperations])
        mutation.idempotencyKey with ⟨hr, hr'⟩ | ⟨r, r', hr, hr', houtcome⟩
      · rw [hr, hr']
        trivial
      rw [hr, hr']
      have hdecode := lockstep_decode (decodeDeleteIdempotency
        (idempotencyKeyText mutation.cellId "delete" mutation.idempotencyKey) mutation)
        (fun _ _ _ _ => rfl) houtcome
      exact sameOutcome_of_lockstep (e := n) deleting_same.toCounting
        h.topology.toAgree (lockstep_answering_of_eq (hdecode.bind fun _ _ ha => ha))

/-! ## Representation independence -/

/-- Alike cells agree on which edges a request takes the last relationship of. -/
theorem Alike.losesLast_iff (h : Alike T e c c')
    : c.LosesLast deletions k ↔ c'.LosesLast deletions k := by
  constructor
  · rintro ⟨deleted, all⟩
    simp only [h.deletes_iff, h.relationships] at deleted all
    exact ⟨deleted, all⟩
  · rintro ⟨deleted, all⟩
    simp only [← h.deletes_iff, ← h.relationships] at deleted all
    exact ⟨deleted, all⟩

/-- An edge that a segment shows in both or in neither is a direct key in both or in neither. -/
theorem Topology.Same.direct_iff {t : Topology} (h : t.Same e t')
    (hsegment : t.SegVisible k ↔ t'.SegVisible k) : t.Direct k ↔ t'.Direct k := by
  constructor
  · intro hd
    exact ((h.visible k).1 (.inl hd)).resolve_right fun hs =>
      h.disjoint_left k hd (hsegment.2 hs)
  · intro hd
    exact ((h.visible k).2 (.inl hd)).resolve_right fun hs =>
      h.disjoint_right k hd (hsegment.1 hs)

/-- What an answered request leaves of the edges it takes the last relationship of. -/
theorem Mutation.visible_of_losesLast (h : m.perform env n c = .ok o)
    (hlast : c.LosesLast m.relationshipDeletions k) :
    (o.committed.getD c).topology.Visible k ↔ c.topology.SegVisible k := by
  cases m with
  | deleteRelationship =>
    obtain ⟨o, ho, h⟩ := bind_ok h
    cases h
    obtain ⟨c₁, r, rfl, hvisible⟩ := deleteRelationship_visible ho hlast
    exact hvisible
  | deleteRelationshipBatch =>
    obtain ⟨o, ho, h⟩ := bind_ok h
    cases h
    obtain ⟨c₁, r, rfl, hvisible⟩ := deleteRelationshipMutationsBatchWithGuards_visible ho hlast
    exact hvisible
  | _ =>
    obtain ⟨deletion, hmem, -⟩ := hlast.deleted
    cases hmem

/-- A request has the same outcome on both cells if it takes the last relationship only of edges
that the two store in the same form. -/
theorem Mutation.sameOutcome_of_form (henv : env.reverseIndex = false)
    (h : Alike Topology.Same n c c') (hm : m.inserts = true ∨ m.deletes = true)
    (hform : ∀ k, c.LosesLast m.relationshipDeletions k →
      (c.topology.Direct k ↔ c'.topology.Direct k)) :
    SameOutcome c c' (m.perform env n c) (m.perform env n c') := by
  rcases hm with hm | hm
  · exact sameOutcome_of_lockstep inserting_agree.toCounting h.topology.toAgree
      (lockstep_of_inserts inserting_agree henv (h.change h.topology.toAgree) hm)
  by_cases hn : n + 1 < u64Bound
  · exact sameOutcome_of_lockstep deleting_same.toCounting h.topology.toAgree
      (lockstep_of_deletes deleting_same henv h hm hform fun _ _ => .inl hn)
  by_cases hdelete : ∃ mutation, m = .deleteEdge mutation
  · obtain ⟨mutation, rfl⟩ := hdelete
    exact deleteEdge_sameOutcome henv h hn
  · exact sameOutcome_of_lockstep deleting_same.toCounting h.topology.toAgree
      (lockstep_of_deletes deleting_same henv h hm hform
        fun mutation hmutation => absurd ⟨mutation, hmutation⟩ hdelete)

/-- Under the policy without a reverse index, take two cells that differ only in the form in which
they store their edges. A request that inserts or deletes edges or relationships is refused on both
cells, or its outcome on the two is the same exactly if every edge whose last relationship it
deletes is a direct key in both cells or in neither. -/
theorem Mutation.sameOutcome_iff (henv : env.reverseIndex = false)
    (h : Alike Topology.Same n c c') {m : Mutation} (hm : m.inserts = true ∨ m.deletes = true) :
    (Refused (m.perform env n c) ∧ Refused (m.perform env n c')) ∨
      (SameOutcome c c' (m.perform env n c) (m.perform env n c') ↔
        ∀ k, c.LosesLast m.relationshipDeletions k →
          (c.topology.Direct k ↔ c'.topology.Direct k)) := by
  by_cases hrefused : Refused (m.perform env n c) ∧ Refused (m.perform env n c')
  · exact .inl hrefused
  refine .inr ⟨fun hsame k hlast => h.topology.direct_iff ?_, sameOutcome_of_form henv h hm⟩
  -- the edges with their last relationship gone are those that a segment shows
  cases hx : m.perform env n c with
  | error error =>
    rw [hx] at hsame hrefused
    cases hx' : m.perform env n c' with
    | error error' => exact absurd ⟨⟨error, rfl⟩, ⟨error', hx'⟩⟩ hrefused
    | ok => rw [hx'] at hsame; exact hsame.elim
  | ok =>
    rw [hx] at hsame
    cases hx' : m.perform env n c' with
    | error => rw [hx'] at hsame; exact hsame.elim
    | ok =>
      rw [hx'] at hsame
      rw [← visible_of_losesLast hx hlast, hsame.2.visible,
        visible_of_losesLast hx' (h.losesLast_iff.1 hlast)]

/-! ### One edge in two forms -/

/-- The edge of the example and its relationship. -/
def shownEdge : EdgeKey := ⟨"follows", 1, 2⟩

/-- A cell with one edge and one relationship on it, over a topology that shows the edge. -/
def shownCell (t : Topology) : Cell :=
  { Cell.empty with
    topology := { t with degreeOut := OrdMap.put ∅ ⟨"follows", 1⟩ 1 }
    vertices := ⟨OrdMap.putAll ∅ [(1, default), (2, default)], ∅, ∅⟩
    relationships :=
      { RelationshipStore.empty.insertRelationship ⟨"follows", 1, 2, 1⟩ default with
        counts := OrdMap.put ∅ shownEdge 1, lastId := some 1 } }

/-- The edge as a direct key. -/
def directCell : Cell := shownCell (empty.insertDirect false shownEdge)

/-- The edge in a segment. -/
def segmentCell : Cell := shownCell (empty.appendSegment ⟨"follows", 1, 1, "s"⟩ [2])

theorem not_visible_empty : ¬ empty.Visible k := by
  rintro (h | ⟨_, _, h, _⟩) <;> cases h

theorem bounded_empty : empty.Bounded e :=
  ⟨nofun, nofun⟩

theorem visible_directCell : directCell.topology.Visible k ↔ k = shownEdge :=
  (visible_insertDirect (r := false)).trans (or_iff_left not_visible_empty)

theorem visible_segmentCell : segmentCell.topology.Visible k ↔ k = shownEdge := by
  refine (visible_appendSegment rfl).trans ((or_iff_left not_visible_empty).trans ?_)
  obtain ⟨edgeType, src, dst⟩ := k
  simp [Topology.SegmentHolds, shownEdge]

theorem bounded_segmentCell : segmentCell.topology.Bounded 1 :=
  have h := bounded_empty.appendSegment Nat.one_pos
  ⟨h.segment_le, h.tombstone_le⟩

/-- The two cells differ in the form of the edge only. -/
theorem alike_shownCell : Alike Topology.Same 1 directCell segmentCell where
  topology :=
    { left := ⟨nofun, nofun⟩
      right := bounded_segmentCell
      visible := fun _ => visible_directCell.trans visible_segmentCell.symm
      degreeOut := rfl
      degreeIn := rfl
      disjoint_left := fun _ _ h => not_visible_empty (.inr h)
      disjoint_right := fun _ h _ => not_visible_empty (.inl h) }
  changelog := rfl
  vertices := rfl
  edgeMetadata := rfl
  relationships := rfl
  idempotency _ _ _ := rfl
  dropped := rfl
  dropPending := rfl

/-- A request on the edge of the example. -/
def shownMutation (key : String) : EdgeMutation := ⟨"cell", "follows", 1, 2, key⟩

/-- The edge is deleted from both cells, with the same answer. -/
theorem Mutation.sameOutcome_iff_deleteEdge :
    SameOutcome directCell segmentCell
      ((deleteEdge (shownMutation "d")).perform (smallEnv false) 1 directCell)
      ((deleteEdge (shownMutation "d")).perform (smallEnv false) 1 segmentCell) := by
  have henv : (smallEnv false).reverseIndex = false := rfl
  rcases sameOutcome_iff henv alike_shownCell (m := .deleteEdge (shownMutation "d"))
    (.inr rfl) with ⟨⟨_, h⟩, -⟩ | h
  · have hnone : ((deleteEdge (shownMutation "d")).perform (smallEnv false) 1
        directCell).toOption.isNone = true := by rw [h]; rfl
    exact absurd hnone (by decide +kernel)
  · exact h.2 fun k hlast => by
      obtain ⟨_, hmem, -⟩ := hlast.deleted
      cases hmem

/-- Whether an edge is visible after a request. -/
def visibleAfter (c : Cell) (x : Except GraphError (Outcome Answer)) (k : EdgeKey) : Bool :=
  match x with
  | .ok o => (o.committed.getD c).topology.Visible k
  | .error _ => false

theorem SameOutcome.visibleAfter_eq
    (h : SameOutcome c c' x x') (k : EdgeKey) : visibleAfter c x k = visibleAfter c' x' k := by
  cases x with
  | error _ => cases x' with
    | error => rfl
    | ok => exact h.elim
  | ok => cases x' with
    | error => exact h.elim
    | ok => exact decide_eq_decide.2 (h.2.visible k)

/-- The delete of the only relationship takes the edge away where it is a direct key, and leaves it
where a segment shows it. -/
theorem Mutation.not_sameOutcome_deleteRelationship :
    ¬ SameOutcome directCell segmentCell
      ((deleteRelationship (shownMutation "r") 1).perform (smallEnv false) 1 directCell)
      ((deleteRelationship (shownMutation "r") 1).perform (smallEnv false) 1 segmentCell) :=
  fun h => absurd (h.visibleAfter_eq shownEdge) (by decide +kernel)

end HydraDb
