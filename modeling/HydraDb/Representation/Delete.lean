import HydraDb.Commit.EdgeDelete
import HydraDb.Representation.Alike

/-!
# Edge deletes do not see how edges are stored

The delete of an edge and the batch of deletes on cells that are alike, under the policy without a
reverse index. A delete finds an edge in either form and hides it in the form it found, so that both
cells lose it.
-/

namespace HydraDb

open HydraDb.Topology (Deleting Hidden)

variable {T : TopologyRel} {cellId : CellId} {env : WriteEnv} {e n : StorageSequence} {c : Cell}

/-! ## What a delete does to the cell -/

/-- The common form of the two deletes of an edge without a reverse index: `hide` takes the edge
away. -/
def Cell.deleteEdgeBy (c : Cell) (env : WriteEnv) (cellId : CellId) (k : EdgeKey)
    (epoch : StorageSequence) (hide : Topology → Topology) : Except GraphError Cell := do
  let c ← c.unlinkEdge env cellId k epoch
  return ({ c with topology := hide c.topology } : Cell).decrementDegreeOut ⟨k.edgeType, k.src⟩

/-- How an edge is taken away: in the form in which it is stored. -/
def Topology.hide (t : Topology) (mirror : Bool) (k : EdgeKey) (epoch : StorageSequence) :
    Topology → Topology :=
  if t.Direct k then (·.removeDirect mirror k) else (·.putTombstone k epoch)

theorem Topology.hidden_hide (t : Topology) : Hidden e k t (t.hide mirror k e t) := by
  unfold hide
  split
  · next hd => exact .direct mirror hd
  · next hd => exact .segment hd

theorem Cell.hideEdge_eq (c : Cell) (t : Topology) (mirror : Bool) (k : EdgeKey)
    (e : StorageSequence) :
    (if decide (t.Direct k) = true then c.removeDirect mirror k else c.putTombstone k e) =
      { c with topology := t.hide mirror k e c.topology } := by
  unfold Topology.hide
  by_cases hd : t.Direct k
  · rw [if_pos (decide_eq_true hd), if_pos hd]
    rfl
  · rw [if_neg (by simpa using hd), if_neg hd]
    rfl

/-- The latest segment that shows an edge is newer than its tombstone. -/
theorem Topology.segmentEdgeVisible_of_record {t : Topology}
    (bounded : t.Bounded e) (h : t.outSegmentEdgeRecordAt k e = some s) :
    segmentEdgeVisible s (t.tombstones.get k) = true := by
  have htomb : ((t.tombstones.get k).filter fun epoch => epoch ≤ e) = t.tombstones.get k := by
    cases hk : t.tombstones.get k with
    | none => rfl
    | some τ => simp [bounded.tombstone_le k τ hk]
  unfold outSegmentEdgeRecordAt at h
  rw [htomb] at h
  refine List.foldl_invariant (P := fun latest => ∀ s, latest = some s →
    segmentEdgeVisible s (t.tombstones.get k) = true) ?_ ?_ s h
  · intro s hs
    cases hs
  intro latest x _ ih s hs
  split at hs
  · next hvisible =>
    cases hs
    exact hvisible.2
  · exact ih s hs

namespace Alike

variable (h : Alike T e c c')

include h

theorem unlinkEdge :
    Except.Lockstep (fun d d' => Alike T e d d' ∧ d.topology = c.topology ∧
        d'.topology = c'.topology)
      (c.unlinkEdge env cellId k epoch) (c'.unlinkEdge env cellId k epoch) := by
  have hmarked := h.markTopologyChange env cellId k.edgeType epoch [(k.src, k.dst, false)]
  have hrelated := hmarked.setRelationships (congrArg (fun s => (s.deleteForEdge k).1)
    hmarked.relationships)
  unfold Cell.unlinkEdge
  dsimp only
  rw [hrelated.edgeMetadata]
  exact .bind_same fun _ _ => ⟨hrelated.setEdgeMetadata _, rfl, rfl⟩

theorem decrementDegreeOut (hT : Topology.Counting T) :
    Alike T e (c.decrementDegreeOut k) (c'.decrementDegreeOut k) :=
  h.setDegreeOut hT (by rw [h.degreeOut_eq hT])

/-- Hide an edge in both cells. -/
theorem hide (hT : Deleting T)
    (hidden : Hidden e k c.topology t) (hidden' : Hidden e k c'.topology t') :
    Alike T e { c with topology := t } { c' with topology := t' } :=
  h.setTopology (hT.hide h.topology hidden hidden')

theorem deleteEdgeBy (hT : Deleting T) {hide : Topology → Topology}
    (hidden : Hidden e k c.topology (hide c.topology))
    (hidden' : Hidden e k c'.topology (hide' c'.topology)) :
    Except.Lockstep (Alike T e) (c.deleteEdgeBy env cellId k epoch hide)
      (c'.deleteEdgeBy env cellId k epoch hide') := by
  refine h.unlinkEdge.bind fun d d' ⟨hd, ht, ht'⟩ => ?_
  exact .ok ((hd.hide hT (ht ▸ hidden) (ht' ▸ hidden')).decrementDegreeOut hT.toCounting)

end Alike

/-! ## One edge -/

theorem Cell.deleteDirectEdge_eq (henv : env.reverseIndex = false)
    : c.deleteDirectEdge env cellId k epoch =
      c.deleteEdgeBy env cellId k epoch (·.removeDirect true k) := by
  unfold deleteDirectEdge deleteEdgeBy
  simp only [henv, Bool.false_eq_true, if_false]
  rfl

/-- The sequence a delete commits at. Where there is none, the error says where it looked. -/
def deleteEpoch (direct : Bool) (cellId : CellId) (n : StorageSequence) :
    Except GraphError StorageSequence :=
  if direct then
    nextSequence n ("cell/" ++ cellId ++ "/storage_sequence") "SlateDB storage sequence overflow"
  else nextSequence n "storage_sequence" "epoch overflow"

/-- The body of a delete, by whether and how the edge is stored. -/
def deleteEdgeBody (env : WriteEnv) (mutation : EdgeMutation) (n : StorageSequence) (c : Cell) :
    Except GraphError (Outcome DeleteResult) :=
  let finish (c : Cell) (result : DeleteResult) : Except GraphError (Outcome DeleteResult) :=
    commitTxn n (c.putIdempotency "delete" mutation.idempotencyKey
      (.delete result mutation.cellId mutation.edge)) result
  if c.topology.Visible mutation.edge then do
    let epoch ← deleteEpoch (c.topology.Direct mutation.edge) mutation.cellId n
    let c ← c.deleteEdgeBy env mutation.cellId mutation.edge epoch
      (c.topology.hide true mutation.edge epoch)
    finish c ⟨epoch, true⟩
  else finish c ⟨n, false⟩

theorem deleteEpoch_of_lt (hn : n + 1 < u64Bound) : deleteEpoch direct cellId n = .ok (n + 1) := by
  cases direct <;> exact if_pos hn

theorem deleteEpoch_ok (h : deleteEpoch direct cellId n = .ok e) : e = n + 1 := by
  cases direct <;> exact nextSequence_ok h

theorem deleteEdgeTxn_eq (henv : env.reverseIndex = false) (bounded : c.topology.Bounded n)
    : deleteEdgeTxn env mutation n c = (do
      c.validateWriteFence mutation.cellId "delete_edge"
      c.replayOr mutation.cellId "delete" mutation.idempotencyKey
        (decodeDeleteIdempotency · mutation) (deleteEdgeBody env mutation n c)) := by
  unfold deleteEdgeTxn deleteEdgeBody
  refine congrArg _ (funext fun _ => congrArg _ ?_)
  by_cases hd : c.topology.Direct mutation.edge
  · have hhide : c.topology.hide true mutation.edge =
        fun _ => (·.removeDirect true mutation.edge) := funext fun _ => if_pos hd
    have hv : c.topology.Visible mutation.edge := .inl hd
    have hcontains : c.topology.outEdges.contains mutation.edge = true := hd
    rw [if_pos hcontains, if_pos hv, hhide, decide_eq_true hd]
    simp only [Cell.deleteDirectEdge_eq henv]
    rfl
  have hhide : c.topology.hide true mutation.edge =
      fun epoch => (·.putTombstone mutation.edge epoch) := funext fun _ => if_neg hd
  have hvisible := Topology.isSome_outSegmentEdgeRecordAt bounded (k := mutation.edge)
  have hcontains : ¬ c.topology.outEdges.contains mutation.edge = true := hd
  rw [if_neg hcontains, hhide, decide_eq_false hd]
  simp only [henv, Bool.false_eq_true, if_false]
  cases hrecord : c.topology.outSegmentEdgeRecordAt mutation.edge n with
  | none =>
    rw [hrecord] at hvisible
    rw [if_neg]
    rintro (h | h)
    · exact hd h
    · exact Bool.false_ne_true (hvisible.2 h)
  | some =>
    rw [hrecord] at hvisible
    dsimp only
    have hv : c.topology.Visible mutation.edge := .inr (hvisible.1 rfl)
    rw [if_pos (Topology.segmentEdgeVisible_of_record bounded hrecord), if_pos hv]
    rfl

namespace Alike

/-- At the last sequence a delete fails with an error that names where it looked, so the two cells
answer the same below it or when they store the edge in the same form. -/
theorem deleteEdge (hT : Deleting T) (henv : env.reverseIndex = false) (h : Alike T n c c')
    (hform : n + 1 < u64Bound ∨
      (c.topology.Direct mutation.edge ↔ c'.topology.Direct mutation.edge)) :
    Except.Lockstep (Outcome.Alike T (n + 1) (· = ·)) (deleteEdge env mutation n c)
      (deleteEdge env mutation n c') := by
  have hnext : Alike T (n + 1) c c' := h.mono hT.toCounting n.le_succ
  have hagree := hT.agree h.topology
  unfold HydraDb.deleteEdge
  rw [deleteEdgeTxn_eq henv hagree.left, deleteEdgeTxn_eq henv hagree.right,
    h.validateWriteFence_eq]
  refine .seq <| .seq <| h.replayOr (by simp [writeOperations])
    (fun text r r' hr => lockstep_decode _ (fun _ _ _ _ => rfl) hr) ?_
  unfold deleteEdgeBody
  by_cases hv : c.topology.Visible mutation.edge
  · rw [if_pos hv, if_pos ((hagree.visible _).1 hv)]
    have hepoch : deleteEpoch (c.topology.Direct mutation.edge) mutation.cellId n =
        deleteEpoch (c'.topology.Direct mutation.edge) mutation.cellId n := by
      rcases hform with hn | hform
      · rw [deleteEpoch_of_lt hn, deleteEpoch_of_lt hn]
      · simp [hform]
    rw [hepoch]
    refine .bind_same fun epoch he => ?_
    obtain rfl := deleteEpoch_ok he
    exact (hnext.deleteEdgeBy hT c.topology.hidden_hide
      c'.topology.hidden_hide).bind fun d d' hd =>
        (hd.putIdempotency _ _ rfl).commitTxn rfl
  · rw [if_neg hv, if_neg fun hv' => hv ((hagree.visible _).2 hv')]
    exact (hnext.putIdempotency _ _ rfl).commitTxn rfl

end Alike

/-! ## A batch of edges -/

namespace EdgeDeleteBatch

variable {mutation : EdgeMutation} {b : EdgeDeleteBatch}

/-- The accumulators of the batch on two cells that are alike. -/
structure Alike (T : TopologyRel) (e : StorageSequence) (b b' : EdgeDeleteBatch) : Prop where
  cell : HydraDb.Alike T e b.cell b'.cell
  nextEpoch : b.nextEpoch = b'.nextEpoch
  results : b.results = b'.results
  deleted : b.deleted = b'.deleted
  alreadyDeleted : b.alreadyDeleted = b'.alreadyDeleted
  outDecrements : b.outDecrements = b'.outDecrements
  wrote : b.wrote = b'.wrote

/-- One mutation of the batch, by whether and how its edge is stored. -/
theorem step_eq (henv : env.reverseIndex = false) (bounded : initial.topology.Bounded n)
    (hnone : b.cell.idempotency.get ⟨"delete", mutation.idempotencyKey⟩ = none)
    (hsegment : b.cell.topology.SegVisible mutation.edge ↔
      initial.topology.SegVisible mutation.edge) :
    b.step env cellId initial n commitEpoch mutation =
      if b.cell.topology.Visible mutation.edge then
        b.delete env cellId mutation (b.cell.topology.Direct mutation.edge) commitEpoch
      else .ok (b.absent mutation n) := by
  have hread : (initial.topology.outSegmentEdgesForSrc mutation.edge.edgeType mutation.edge.src
      n).contains mutation.edge.dst = true ↔ b.cell.topology.SegVisible mutation.edge := by
    rw [OrdMap.contains_iff, Topology.isSome_get_outSegmentEdgesForSrc bounded, hsegment]
  unfold step
  rw [hnone]
  dsimp only
  by_cases hd : b.cell.topology.Direct mutation.edge
  · have hv : b.cell.topology.Visible mutation.edge := .inl hd
    have hcontains : b.cell.topology.outEdges.contains mutation.edge = true := hd
    rw [if_pos hcontains, if_pos hv, decide_eq_true hd]
  have hcontains : ¬ b.cell.topology.outEdges.contains mutation.edge = true := hd
  rw [if_neg hcontains, henv, Bool.not_false, Bool.true_and, decide_eq_false hd]
  by_cases hs : b.cell.topology.SegVisible mutation.edge
  · have hv : b.cell.topology.Visible mutation.edge := .inr hs
    rw [if_pos (hread.2 hs), if_pos hv]
  · have hv : ¬ b.cell.topology.Visible mutation.edge := fun hv => hv.elim hd hs
    rw [if_neg fun hr => hs (hread.1 hr), if_neg hv]
    rfl

/-- The batch hides the edges it deletes and nothing else. -/
theorem delete_hidden
    (h : b.delete env cellId mutation (b.cell.topology.Direct mutation.edge) e = .ok b₁) :
    Hidden e mutation.edge b.cell.topology b₁.cell.topology := by
  obtain ⟨c, hunlink, h⟩ := bind_ok h
  cases h
  obtain ⟨edgeMetadata, -, rfl⟩ := Cell.unlinkEdge_ok hunlink
  by_cases hd : b.cell.topology.Direct mutation.edge
  · rw [decide_eq_true hd]
    exact .direct _ hd
  · rw [decide_eq_false hd]
    exact .segment hd

/-- The segment positions of the edges the loop has not visited are as they were, which is what the
cached read answers. -/
def Untouched (c : Cell) (done : List EdgeMutation) (b : EdgeDeleteBatch) : Prop :=
  ∀ k, k ∉ done.map EdgeMutation.edge → (b.cell.topology.SegVisible k ↔ c.topology.SegVisible k)

theorem Untouched.step (henv : env.reverseIndex = false) (bounded : c.topology.Bounded n)
    (hb : b.Untouched c done) (hbounded : b.cell.topology.Bounded e)
    (hnew : mutation.edge ∉ done.map EdgeMutation.edge)
    (h : b.step env cellId c n e mutation = .ok b₁) : b₁.Untouched c (done ++ [mutation]) := by
  intro k hk
  rw [List.not_mem_map_snoc] at hk
  refine Iff.trans ?_ (hb k hk.1)
  cases hr : b.cell.idempotency.get ⟨"delete", mutation.idempotencyKey⟩ with
  | some =>
    unfold EdgeDeleteBatch.step at h
    rw [hr] at h
    obtain ⟨result, -, h⟩ := bind_ok h
    cases h
    rfl
  | none =>
    rw [step_eq henv bounded hr (hb _ hnew)] at h
    split at h
    · exact (delete_hidden h).segVisible_of_ne hbounded hk.2
    · cases h
      rfl

namespace Alike

variable {b b' : EdgeDeleteBatch} (h : Alike T e b b')

include h

theorem replay (result : DeleteResult) : Alike T e (b.replay result) (b'.replay result) :=
  { h with
    results := by simp [EdgeDeleteBatch.replay, h.results]
    deleted := by simp [EdgeDeleteBatch.replay, h.deleted]
    alreadyDeleted := by simp only [EdgeDeleteBatch.replay, h.alreadyDeleted] }

theorem absent (mutation : EdgeMutation) (n : StorageSequence) :
    Alike T e (b.absent mutation n) (b'.absent mutation n) :=
  { h with
    cell := h.cell.putIdempotency _ _ rfl
    results := by simp [EdgeDeleteBatch.absent, h.results]
    alreadyDeleted := by simp [EdgeDeleteBatch.absent, h.alreadyDeleted]
    wrote := rfl }

variable (hT : Deleting T) (henv : env.reverseIndex = false)

include hT henv

theorem delete :
    Except.Lockstep (Alike T e)
      (b.delete env cellId mutation (b.cell.topology.Direct mutation.edge) e)
      (b'.delete env cellId mutation (b'.cell.topology.Direct mutation.edge) e) := by
  refine h.cell.unlinkEdge.bind fun d d' ⟨hd, ht, ht'⟩ => ?_
  rw [Cell.hideEdge_eq, Cell.hideEdge_eq, henv, Bool.and_false, Bool.and_false]
  refine .ok ⟨(hd.hide hT (k := mutation.edge) ?_ ?_).putIdempotency _ _ rfl, rfl, ?_, ?_,
    h.alreadyDeleted, ?_, rfl⟩
  · rw [ht]
    exact b.cell.topology.hidden_hide
  · rw [ht']
    exact b'.cell.topology.hidden_hide
  · rw [h.results]
  · rw [h.deleted]
  · rw [h.outDecrements]

theorem step (bounded : c.topology.Bounded n) (bounded' : c'.topology.Bounded n) (cellId : CellId)
    (hsegment : b.cell.topology.SegVisible mutation.edge ↔ c.topology.SegVisible mutation.edge)
    (hsegment' : b'.cell.topology.SegVisible mutation.edge ↔ c'.topology.SegVisible mutation.edge) :
    Except.Lockstep (Alike T e) (b.step env cellId c n e mutation)
      (b'.step env cellId c' n e mutation) := by
  rcases h.cell.get_idempotency "delete" (by simp [writeOperations])
    mutation.idempotencyKey with ⟨hr, hr'⟩ | ⟨r, r', hr, hr', houtcome⟩
  · rw [step_eq henv bounded hr hsegment, step_eq henv bounded' hr' hsegment']
    have hvisible := (hT.agree h.cell.topology).visible mutation.edge
    by_cases hv : b.cell.topology.Visible mutation.edge
    · rw [if_pos hv, if_pos (hvisible.1 hv)]
      exact h.delete hT henv
    · rw [if_neg hv, if_neg fun hv' => hv (hvisible.2 hv')]
      exact .ok (h.absent mutation n)
  · unfold EdgeDeleteBatch.step
    rw [hr, hr']
    refine (lockstep_decode (decodeDeleteIdempotency _ mutation) (fun _ _ _ _ => rfl)
      houtcome).bind fun result result' hresult => ?_
    subst hresult
    exact .ok (h.replay result)

theorem finish : HydraDb.Alike T e (b.finish env) (b'.finish env) := by
  unfold EdgeDeleteBatch.finish
  simp only [henv, Bool.false_eq_true, if_false]
  refine h.cell.setDegreeOut hT.toCounting ?_
  rw [h.cell.degreeOut_eq hT.toCounting, h.outDecrements]

end Alike

end EdgeDeleteBatch

theorem Alike.deleteEdgeMutationsBatch (hT : Deleting T) (henv : env.reverseIndex = false)
    (h : Alike T n c c') :
    Except.Lockstep (Outcome.Alike T (n + 1) (· = ·))
      (deleteEdgeMutationsBatch env cellId mutations n c)
      (deleteEdgeMutationsBatch env cellId mutations n c') := by
  have hagree := hT.agree h.topology
  refine .seq <| ?_
  split
  · exact .ok rfl
  refine .seq <| .seq <| .bind_same fun _ hunique => ?_
  have distinct := nodup_validateUniqueDeleteMutationIdentities hunique
  unfold deleteEdgeMutationsBatchTxn
  rw [h.validateWriteFence_eq]
  refine .seq <| .bind_same fun commitEpoch hepoch => ?_
  obtain rfl := nextSequence_ok hepoch
  have hstart : EdgeDeleteBatch.Alike T (n + 1) (.start n c) (.start n c') :=
    ⟨h.mono hT.toCounting n.le_succ, rfl, rfl, rfl, rfl, rfl, rfl⟩
  -- no edge occurs twice, so each is as the first cell has it when its turn comes
  refine (Except.Lockstep.foldlM (fun done b b' => EdgeDeleteBatch.Alike T (n + 1) b b' ∧
    b.Untouched c done ∧ b'.Untouched c' done) ⟨hstart, fun _ _ => Iff.rfl, fun _ _ => Iff.rfl⟩
    ?_).bind fun b b' hb => ?_
  · rintro done mutation rest b b' hl ⟨hb, hu, hu'⟩
    have hnew : mutation.edge ∉ done.map EdgeMutation.edge := List.key_not_mem_done distinct hl
    have hbounded := hT.agree hb.cell.topology
    refine (hb.step hT henv hagree.left hagree.right cellId (hu _ hnew) (hu' _ hnew)).with_ok.mono
      fun d d' ⟨hd, hstep, hstep'⟩ => ⟨hd, ?_, ?_⟩
    · exact hu.step henv hagree.left hbounded.left hnew hstep
    · exact hu'.step henv hagree.right hbounded.right hnew hstep'
  · have hb := hb.1
    rw [hb.wrote, hb.results, hb.nextEpoch, hb.deleted, hb.alreadyDeleted]
    exact (hb.finish hT henv).commitTxnIf rfl

end HydraDb
