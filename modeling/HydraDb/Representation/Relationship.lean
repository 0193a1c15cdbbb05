import HydraDb.Representation.Insert
import HydraDb.Write.RelationshipImport

/-!
# Relationship creates do not see how edges are stored

The create of a relationship and the batched imports, creates and merges on cells that are alike,
under the policy without a reverse index. Which relationships the rows mean is read from the
relationship tables, which are the same in both; the edges that are missing are inserted.
-/

namespace HydraDb

open HydraDb.Topology (Inserting)

namespace Alike

theorem createRelationshipWithFullMetadata (hT : Inserting T) (henv : env.reverseIndex = false)
    (h : Alike T n c c') (mutation : EdgeMutation) (srcMetadata dstMetadata : VertexMetadata)
    (edgeMetadata : EdgeMetadata) :
    Except.Lockstep (Outcome.Alike T (n + 1) (· = ·))
      (createRelationshipWithFullMetadata env mutation srcMetadata dstMetadata edgeMetadata n c)
      (createRelationshipWithFullMetadata env mutation srcMetadata dstMetadata edgeMetadata n
        c') := by
  have hnext : Alike T (n + 1) c c' := h.mono hT.toCounting n.le_succ
  refine .seq <| .seq <| .seq <| .seq <| .bind_same fun updates _ => ?_
  unfold createRelationshipTxn
  rw [h.validateWriteFence_eq]
  refine .seq <| h.replayOr (by simp [writeOperations])
    (fun text r r' hr => lockstep_decode _ (fun _ _ _ _ => rfl) hr) ?_
  have hread : (c.topology.edgeEpochAt mutation.edge n).isNone =
      (c'.topology.edgeEpochAt mutation.edge n).isNone := by
    rw [← Option.not_isSome, ← Option.not_isSome,
      (hT.agree h.topology).isSome_edgeEpochAt_eq mutation.edge]
  dsimp only
  rw [hread, h.vertices, h.relationships]
  refine .bind_same fun epoch _ => .bind_same fun relationshipId _ => ?_
  refine ((hnext.setRelationships rfl).applyChangedMetadata).bind fun d d' hd => ?_
  refine (putIdempotency ?_ _ _ rfl).commitTxn rfl
  have hensured := hd.ensureRecords [mutation.edge.src, mutation.edge.dst]
    (OrdMap.addAll ∅ (updates.map Prod.fst)) false
  cases (c'.topology.edgeEpochAt mutation.edge n).isNone with
  | true =>
    have hinserted := hensured.insertCountedEdge hT henv mutation.cellId mutation.edge epoch
    exact hinserted.setRelationships (by
      simp only [if_true]
      rw [hinserted.relationships])
  | false => exact hensured.setRelationships (by
      simp only [Bool.false_eq_true, if_false]
      rw [hensured.relationships])

theorem insertDirects (hT : Inserting T) (h : Alike T e c c') (mirror : Bool) (edgeType : EdgeType)
    (edges : List (VertexId × VertexId)) :
    Alike T e (edges.foldl (fun c e => c.insertDirect mirror ⟨edgeType, e.1, e.2⟩) c)
      (edges.foldl (fun c e => c.insertDirect mirror ⟨edgeType, e.1, e.2⟩) c') :=
  List.foldl_rel h fun _ _ _ _ hd => hd.insertDirect hT _ _

theorem importRelationshipsBatchTxn (hT : Inserting T) (henv : env.reverseIndex = false)
    (h : Alike T n c c') (cellId : CellId) (edgeType : EdgeType) (rows : List RelationshipMutation)
    (idempotencyKey : String) (fingerprint : UInt64) (options : RelationshipImportOptions) :
    Except.Lockstep (Outcome.Alike T (n + 1) (· = ·))
      (importRelationshipsBatchTxn env cellId edgeType rows idempotencyKey fingerprint options n c)
      (importRelationshipsBatchTxn env cellId edgeType rows idempotencyKey fingerprint options n
        c') := by
  have hnext : Alike T (n + 1) c c' := h.mono hT.toCounting n.le_succ
  unfold HydraDb.importRelationshipsBatchTxn
  rw [h.validateWriteFence_eq]
  refine .seq <| h.replayOr (by simp [writeOperations])
    (fun text r r' hr => lockstep_decode _ (fun _ _ _ _ => rfl) hr) ?_
  rw [h.vertices, h.relationships]
  refine .bind_same fun resolved _ => .bind_same fun prefetched _ =>
    .bind_same fun classified _ => ?_
  dsimp only
  rw [(hT.agree h.topology).absentEdges_eq]
  generalize absentEdges c'.topology edgeType _ _ n = toInsert
  refine .bind_same fun epoch _ => ?_
  simp only [henv, Bool.false_eq_true, if_false]
  refine (putIdempotency ?_ _ _ rfl).commitTxn rfl
  have hmarked : Alike T (n + 1)
      (if toInsert.isEmpty = true then c else c.markTopologyChange env cellId edgeType epoch
        (toInsert.map fun e => (e.1, e.2, true)))
      (if toInsert.isEmpty = true then c' else c'.markTopologyChange env cellId edgeType epoch
        (toInsert.map fun e => (e.1, e.2, true))) := by
    split
    · exact hnext
    · exact hnext.markTopologyChange _ _ _ _ _
  have hcounted := (hmarked.insertDirects hT false edgeType toInsert).addCounters hT.toCounting
    (decide (n = 0)) (degreeIncrements edgeType (toInsert.map Prod.fst))
  have hrelated := hcounted.setRelationships (congrArg (RelationshipStore.applyImport · classified
    resolved.rows resolved.pointerUpdates (decide (n = 0))) hcounted.relationships)
  split
  · exact hrelated
  · exact hrelated.ensureRecords _ _ _

theorem importRelationshipsBatchWithEndpointLabels (hT : Inserting T)
    (henv : env.reverseIndex = false) (h : Alike T n c c') :
    Except.Lockstep (Outcome.Alike T (n + 1) (· = ·))
      (importRelationshipsBatchWithEndpointLabels env cellId edgeType rows idempotencyKey options n
        c)
      (importRelationshipsBatchWithEndpointLabels env cellId edgeType rows idempotencyKey options n
        c') := by
  refine .seq <| .seq <| .seq <| .seq <|
    .bind_same fun guardedRows _ => .bind_same fun coalesced _ => ?_
  split
  · exact .ok rfl
  · exact .seq <| h.importRelationshipsBatchTxn hT henv _ _ _ _ _ _

end Alike

end HydraDb
