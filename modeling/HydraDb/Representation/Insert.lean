import HydraDb.Commit.Basic
import HydraDb.Representation.Alike
import HydraDb.Write.BulkImport

/-!
# Inserts do not see how edges are stored

Edge writes, edge batches, imports and segment appends on cells that are alike, under the policy
without a reverse index. An insert reads whether an edge is visible and writes a direct key, a
segment, and the other tables; it needs no more of the two topologies than that they agree.
-/

namespace HydraDb

open HydraDb.Topology (Inserting)

variable {T : TopologyRel} {e : StorageSequence}

namespace Alike

/-! ## One edge -/

theorem applyChangedMetadata (h : Alike T e c c') :
    Except.Lockstep (Alike T e) (c.applyChangedMetadata changed)
      (c'.applyChangedMetadata changed) := by
  unfold Cell.applyChangedMetadata
  rw [h.vertices]
  exact .bind_same fun _ _ => h.setVertices rfl

theorem applyEdgeMetadata (h : Alike T e c c') :
    Except.Lockstep (Alike T e) (c.applyEdgeMetadata k previous next)
      (c'.applyEdgeMetadata k previous next) := by
  unfold Cell.applyEdgeMetadata
  by_cases heq : previous = next
  · rw [if_pos heq, if_pos heq]
    exact .ok h
  · rw [if_neg heq, if_neg heq, h.edgeMetadata]
    exact .bind_same fun _ _ => h.setEdgeMetadata _

theorem ensureRecords (h : Alike T e c c') (vertices : List VertexId)
    (written : OrdMap VertexId Unit) (fresh : Bool) :
    Alike T e (c.setVertices (c.vertices.ensureRecords vertices written fresh))
      (c'.setVertices (c'.vertices.ensureRecords vertices written fresh)) :=
  h.setVertices (by rw [h.vertices])

theorem insertCountedEdge (hT : Inserting T) (henv : env.reverseIndex = false)
    (h : Alike T e c c') (cellId : CellId) (k : EdgeKey) (epoch : StorageSequence) :
    Alike T e (c.insertCountedEdge env cellId k epoch)
      (c'.insertCountedEdge env cellId k epoch) := by
  unfold Cell.insertCountedEdge
  simp only [henv, Bool.false_eq_true, if_false]
  refine ((h.markTopologyChange env cellId _ epoch _).insertDirect hT false k).setDegreeOut
    hT.toCounting ?_
  change c.topology.degreeOut.put _ (c.topology.degreeOut.count _ + 1) = _
  rw [h.degreeOut_eq hT.toCounting]
  rfl

theorem writeEdgeTxn (hT : Inserting T) (henv : env.reverseIndex = false) (h : Alike T n c c')
    (mutation : EdgeMutation) (updates : List (VertexId × VertexMetadata))
    (edgeMetadata : EdgeMetadata) (operation : String) :
    Except.Lockstep (Outcome.Alike T (n + 1) CommitResult.Alike)
      (writeEdgeTxn env mutation updates edgeMetadata operation n c)
      (writeEdgeTxn env mutation updates edgeMetadata operation n c') := by
  have hnext : Alike T (n + 1) c c' := h.mono hT.toCounting n.le_succ
  unfold HydraDb.writeEdgeTxn
  rw [h.validateWriteFence_eq]
  refine .seq <| h.replayOr (by simp [writeOperations])
    (fun text r r' hr => lockstep_decodeCommitIdempotency hr) ?_
  dsimp only
  rw [h.vertices, h.edgeMetadata]
  rcases (hT.agree h.topology).edgeEpochAt_cases mutation.edge with
    ⟨hread, hread'⟩ | ⟨existing, existing', hread, hread'⟩
  · rw [hread, hread']
    refine .bind_same fun epoch _ => ?_
    refine hnext.applyChangedMetadata.bind fun d d' hd => ?_
    refine hd.applyEdgeMetadata.bind fun d d' hd => ?_
    exact (((hd.ensureRecords _ _ _).insertCountedEdge hT henv _ _ _).putIdempotency _ _
      rfl).commitTxn rfl
  · rw [hread, hread']
    dsimp only
    split
    · refine (hnext.putIdempotency _ _ ?_).commitTxn ?_
      · rfl
      · exact rfl
    refine .bind_same fun epoch _ => ?_
    refine hnext.applyChangedMetadata.bind fun d d' hd => ?_
    refine hd.applyEdgeMetadata.bind fun d d' hd => ?_
    exact (hd.putIdempotency _ _ rfl).commitTxn rfl

end Alike

/-! ## A batch of edges -/

/-- The same batch result up to the sequences of the edges that existed already. -/
structure EdgeMutationBatchResult.Alike (r r' : EdgeMutationBatchResult) : Prop where
  startEpoch : r.startEpoch = r'.startEpoch
  endEpoch : r.endEpoch = r'.endEpoch
  inserted : r.inserted = r'.inserted
  alreadyExisted : r.alreadyExisted = r'.alreadyExisted
  results : List.Forall₂ CommitResult.Alike r.results r'.results

/-- The inserted edges are reported with the same sequences. -/
theorem insertedEpochs_eq (h : List.Forall₂ CommitResult.Alike results results') :
    insertedEpochs results = insertedEpochs results' := by
  induction h with
  | nil => rfl
  | @cons r r' _ _ hr _ ih =>
    unfold insertedEpochs at ih ⊢
    have hflag := hr.alreadyExisted_eq
    cases hexisted : r'.alreadyExisted with
    | true => simpa [hflag, hexisted] using ih
    | false =>
      have heq : r = r' := by
        simpa [CommitResult.Alike, CommitResult.outcome, hflag, hexisted] using hr
      subst heq
      simpa [hexisted] using ih

namespace EdgeBatch

/-- The accumulators of the batch on two cells that are alike. -/
structure Alike (T : TopologyRel) (e : StorageSequence) (b b' : EdgeBatch) : Prop where
  cell : HydraDb.Alike T e b.cell b'.cell
  nextEpoch : b.nextEpoch = b'.nextEpoch
  results : List.Forall₂ CommitResult.Alike b.results b'.results
  knownEdges : ∀ k, (b.knownEdges.get k).isSome = (b'.knownEdges.get k).isSome
  validatedEndpoints : b.validatedEndpoints = b'.validatedEndpoints
  outIncrements : b.outIncrements = b'.outIncrements
  inserted : b.inserted = b'.inserted
  alreadyExisted : b.alreadyExisted = b'.alreadyExisted
  insertedEndpoints : b.insertedEndpoints = b'.insertedEndpoints
  wrote : b.wrote = b'.wrote

namespace Alike

variable {b b' : EdgeBatch} (h : Alike T e b b')

include h

theorem replay (hr : r.Alike r') : Alike T e (b.replay r) (b'.replay r') :=
  { h with
    results := List.rel_append h.results (.cons hr .nil)
    inserted := by simp [EdgeBatch.replay, hr.alreadyExisted_eq, h.inserted]
    alreadyExisted := by simp only [EdgeBatch.replay, hr.alreadyExisted_eq, h.alreadyExisted] }

theorem isSome_put_knownEdges (k' : EdgeKey) : ((b.knownEdges.put k epoch).get k').isSome =
      ((b'.knownEdges.put k epoch').get k').isSome := by
  rw [OrdMap.get_put, OrdMap.get_put]
  split
  · rfl
  · exact h.knownEdges k'

theorem existing : Alike T e (b.existing mutation epoch) (b'.existing mutation epoch') :=
  { h with
    cell := h.cell.putIdempotency _ _ rfl
    results := List.rel_append h.results (.cons rfl .nil)
    knownEdges := h.isSome_put_knownEdges
    alreadyExisted := congrArg (· + 1) h.alreadyExisted
    wrote := rfl }

theorem insert (hT : Inserting T) :
    Alike T e (b.insert env mutation labelled commitEpoch)
      (b'.insert env mutation labelled commitEpoch) :=
  { h with
    cell := ((h.cell.markTopologyChange _ _ _ _ _).insertDirect hT _ _).putIdempotency _ _ rfl
    nextEpoch := rfl
    results := List.rel_append h.results (.cons rfl .nil)
    knownEdges := h.isSome_put_knownEdges
    outIncrements := by simp [EdgeBatch.insert, h.outIncrements]
    inserted := congrArg (· + 1) h.inserted
    insertedEndpoints := by simp [EdgeBatch.insert, h.insertedEndpoints]
    wrote := rfl }

theorem validateEndpoint :
    Except.Lockstep (Alike T e) (b.validateEndpoint vertex label)
      (b'.validateEndpoint vertex label) := by
  unfold EdgeBatch.validateEndpoint
  rw [h.validatedEndpoints]
  by_cases hseen : b'.validatedEndpoints.contains ⟨label, vertex⟩ = true
  · rw [if_pos hseen, if_pos hseen]
    exact .ok h
  rw [if_neg hseen, if_neg hseen]
  dsimp only
  rw [h.cell.vertices]
  split
  · exact .error
  · split
    · exact .ok { h with validatedEndpoints := rfl }
    · exact .error

theorem validateEndpoints :
    Except.Lockstep (Alike T e) (b.validateEndpoints mutation labels)
      (b'.validateEndpoints mutation labels) := by
  cases labels with
  | none => exact .ok h
  | some =>
    exact h.validateEndpoint.bind fun d d' hd => hd.validateEndpoint

theorem step (hT : Inserting T) (cellId : CellId)
    (labels : Option (String × String)) (commitEpoch : StorageSequence) (mutation : EdgeMutation) :
    Except.Lockstep (Alike T e) (b.step env cellId labels e commitEpoch mutation)
      (b'.step env cellId labels e commitEpoch mutation) := by
  unfold EdgeBatch.step
  rcases h.cell.get_idempotency "create" (by simp [writeOperations])
    mutation.idempotencyKey with ⟨hr, hr'⟩ | ⟨r, r', hr, hr', houtcome⟩
  · rw [hr, hr']
    refine h.validateEndpoints.bind fun d d' hd => ?_
    have hknown := hd.knownEdges mutation.edge
    cases hget : d.knownEdges.get mutation.edge with
    | some =>
      rw [hget] at hknown
      obtain ⟨epoch', hget'⟩ := Option.isSome_iff_exists.1 hknown.symm
      rw [hget']
      exact .ok hd.existing
    | none =>
      rw [hget] at hknown
      rw [Option.isNone_iff_eq_none.1 (Option.isSome_eq_false_iff.1 hknown.symm)]
      rcases (hT.agree hd.cell.topology).edgeEpochAt_cases mutation.edge with
        ⟨hread, hread'⟩ | ⟨epoch, epoch', hread, hread'⟩
      · rw [hread, hread']
        exact .ok (hd.insert hT)
      · rw [hread, hread']
        exact .ok hd.existing
  · rw [hr, hr']
    exact (lockstep_decodeCommitIdempotency houtcome).bind fun a a' ha =>
      .ok (h.replay ha)

theorem finish (hT : Inserting T) (henv : env.reverseIndex = false)
    (fresh : Bool) : HydraDb.Alike T e (b.finish env fresh) (b'.finish env fresh) := by
  unfold EdgeBatch.finish
  simp only [henv, Bool.false_eq_true, if_false, h.insertedEndpoints]
  refine (h.cell.setDegreeOut hT.toCounting ?_).ensureRecords _ _ _
  rw [h.cell.degreeOut_eq hT.toCounting, h.outIncrements]

end Alike

end EdgeBatch

theorem Alike.writeEdgeMutationsBatchWithEndpointLabels (hT : Inserting T)
    (henv : env.reverseIndex = false) (h : Alike T n c c') :
    Except.Lockstep (Outcome.Alike T (n + 1) EdgeMutationBatchResult.Alike)
      (writeEdgeMutationsBatchWithEndpointLabels env cellId mutations labels operation n c)
      (writeEdgeMutationsBatchWithEndpointLabels env cellId mutations labels operation n c') := by
  refine .seq <| ?_
  split
  · exact ⟨rfl, rfl, rfl, rfl, .nil⟩
  refine .seq <| .seq <| ?_
  unfold writeEdgeMutationsBatchTxn
  rw [h.validateWriteFence_eq]
  refine .seq <| .seq <| .bind_same fun commitEpoch _ => ?_
  have hstart : EdgeBatch.Alike T n (EdgeBatch.start n c) (EdgeBatch.start n c') :=
    ⟨h, rfl, .nil, fun _ => rfl, rfl, rfl, rfl, rfl, rfl, rfl⟩
  refine (Except.Lockstep.foldlM (fun _ => EdgeBatch.Alike T n) hstart
    fun _ mutation _ b b' _ hb => hb.step hT cellId labels commitEpoch mutation).bind
      fun b b' hb => ?_
  have hepochs := insertedEpochs_eq hb.results
  rw [hb.wrote]
  refine ((hb.finish hT henv _).mono hT.toCounting n.le_succ).commitTxnIf ?_
  exact ⟨by rw [hepochs], by rw [hepochs, hb.nextEpoch], hb.inserted, hb.alreadyExisted, hb.results⟩

/-! ## Imports -/

/-- The existence check of an import finds the same edges. -/
theorem Topology.Agree.absentEdges_eq (h : t.Agree n t') :
    absentEdges t edgeType edges policy n = absentEdges t' edgeType edges policy n := by
  refine List.filter_congr fun e _ => ?_
  rw [h.isSome_edgeEpochAt_eq]

namespace Alike

theorem importEdges (env : WriteEnv) (hT : Inserting T) (h : Alike T e c c') (cellId : CellId)
    (edgeType : EdgeType) (epoch : StorageSequence) (edges : List (VertexId × VertexId)) :
    Alike T e (edges.foldl (fun c e => c.importEdge env cellId edgeType epoch e) c)
      (edges.foldl (fun c e => c.importEdge env cellId edgeType epoch e) c') :=
  List.foldl_rel h fun _ _ _ _ hd => (hd.markTopologyChange _ _ _ _ _).insertDirect hT _ _

theorem addCounters (hT : Topology.Counting T) (h : Alike T e c c') (fresh : Bool)
    (increments : OrdMap DegreeKey Nat) :
    Alike T e (c.setDegreeOut (addCounters fresh c.topology.degreeOut increments))
      (c'.setDegreeOut (addCounters fresh c'.topology.degreeOut increments)) :=
  h.setDegreeOut hT (by rw [h.degreeOut_eq hT])

theorem bulkImportEdgesWithOptions (hT : Inserting T) (henv : env.reverseIndex = false)
    (h : Alike T n c c') :
    Except.Lockstep (Outcome.Alike T (n + 1) (· = ·))
      (bulkImportEdgesWithOptions env cellId edgeType edges idempotencyKey policy n c)
      (bulkImportEdgesWithOptions env cellId edgeType edges idempotencyKey policy n c') := by
  have hnext : Alike T (n + 1) c c' := h.mono hT.toCounting n.le_succ
  refine .seq <| .seq <| .seq <| .seq <| ?_
  unfold bulkImportEdgesTxn
  rw [h.validateWriteFence_eq]
  refine .seq <| h.replayOr (by simp [writeOperations])
    (fun text r r' hr => lockstep_decode _ (fun _ _ _ _ => rfl) hr) ?_
  rw [(hT.agree h.topology).absentEdges_eq]
  refine .bind_same fun epoch _ => ?_
  simp only [henv, Bool.false_eq_true, if_false]
  have himported := hnext.importEdges env hT cellId edgeType epoch
    (absentEdges c'.topology edgeType (sortDedupEdges edges) policy n)
  refine (putIdempotency ?_ _ _ rfl).commitTxn rfl
  split
  · exact (himported.addCounters hT.toCounting _ _).ensureRecords _ _ _
  · exact ((himported.addCounters hT.toCounting _ _).ensureRecords _ _ _).markTopologyChange
      _ _ _ _ _

theorem appendSegment (hT : Inserting T) (h : Alike T e c c')
    (hs : e < s.sequence) (destinations : List VertexId) :
    Alike T s.sequence (c.appendSegment s destinations) (c'.appendSegment s destinations) :=
  h.setTopology (hT.appendSegment s destinations h.topology hs)

theorem bulkAppendOutAdjacencySegmentTrusted (hT : Inserting T) (h : Alike T n c c') :
    Except.Lockstep (Outcome.Alike T (n + 1) (· = ·))
      (bulkAppendOutAdjacencySegmentTrusted env cellId edgeType src dsts idempotencyKey n c)
      (bulkAppendOutAdjacencySegmentTrusted env cellId edgeType src dsts idempotencyKey n c') := by
  have hnext : Alike T (n + 1) c c' := h.mono hT.toCounting n.le_succ
  refine .seq <| .seq <| .seq <| ?_
  split
  · exact .error
  refine .seq <| ?_
  unfold bulkAppendOutAdjacencySegmentTrustedTxn
  rw [h.validateWriteFence_eq]
  refine .seq <| h.replayOr (by simp [writeOperations])
    (fun text r r' hr => lockstep_decode _ (fun _ _ _ _ => rfl) hr) ?_
  simp only [(hT.agree h.topology).contains_outNeighborsForSrc_eq]
  split
  · exact (hnext.putIdempotency _ _ rfl).commitTxn rfl
  refine .bind_same fun epoch hepoch => ?_
  obtain rfl := nextSequence_ok hepoch
  generalize List.filter _ (OrdMap.sortDedup dsts) = inserted
  have happended := ((h.ensureRecords (src :: inserted) ∅ (decide (n = 0))).markTopologyChange env
    cellId edgeType (n + 1) (inserted.map fun dst => (src, dst, true))).appendSegment hT
      (s := ⟨edgeType, src, n + 1, idempotencyKey⟩) n.lt_succ_self inserted
  refine (putIdempotency ?_ _ _ rfl).commitTxn rfl
  exact happended.setDegreeOut hT.toCounting (by rw [happended.degreeOut_eq hT.toCounting])

end Alike

end HydraDb
