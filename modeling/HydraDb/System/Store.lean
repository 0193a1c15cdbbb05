import HydraDb.Lib.Run
import HydraDb.Write.Compaction
import HydraDb.Write.Metadata
import HydraDb.Write.RelationshipImport
import HydraDb.Write.VertexDelete
import Mathlib.Logic.Function.Basic

/-!
# The store as a state machine

Every public write operation of a shard, run against the store. A transaction is atomic and sees
its own writes, and it commits at the sequence after the last one; one that fails or writes nothing
leaves the store as it was. The writer lanes of different cells run at the same time, so the
operations of a cell interleave with those of every other, and the preparation of a vertex delete
reads the store before its transaction, with other writers in between.

What a shard keeps in memory (the cache of low-water marks) and its limits may differ at every
event: they are given with the event.
-/

namespace HydraDb

/-! ## Requests -/

/-- The vertex deletes a caller can ask for. -/
inductive VertexDeleteRequest where
  /-- `delete_vertex`, `detach_delete_vertex` and `delete_vertex_mutations_batch`. -/
  | vertices (deletions : List (VertexId × String)) (detach : Bool)
  /-- `delete_isolated_vertex_mutations_batch`. -/
  | isolated (deletions : List (VertexId × String × VertexMetadata))
  /-- `delete_vertices_and_isolated_candidates_batch`. -/
  | verticesAndCandidates (deletions : List VertexDeletion)

/-- The deletions and the mode of a request. -/
def VertexDeleteRequest.batch : VertexDeleteRequest → List VertexDeletion × VertexDeleteBatchMode
  | vertices deletions detach => vertexDeletions deletions detach
  | isolated deletions => isolatedVertexDeletions deletions
  | verticesAndCandidates deletions => vertexAndCandidateDeletions deletions

/-- A write operation that is one transaction, other than a vertex delete. A chunked import
(`bulk_import_edges_chunked_with_options`) is one `bulkImportEdges` for each of its chunks. -/
inductive Mutation where
  | writeEdge (mutation : EdgeMutation)
  | writeEdgeWithVertexMetadata (mutation : EdgeMutation) (srcMetadata dstMetadata : VertexMetadata)
  | writeEdgeWithFullMetadata (mutation : EdgeMutation) (srcMetadata dstMetadata : VertexMetadata)
      (edgeMetadata : EdgeMetadata)
  | writeEdgeBatch (cellId : CellId) (mutations : List EdgeMutation)
  | writeEdgeBatchBetweenLabeledVertices (cellId : CellId) (mutations : List EdgeMutation)
      (sourceLabel destinationLabel : String)
  | deleteEdge (mutation : EdgeMutation)
  | deleteEdgeBatch (cellId : CellId) (mutations : List EdgeMutation)
  | bulkImportEdges (cellId : CellId) (edgeType : EdgeType) (edges : List (VertexId × VertexId))
      (idempotencyKey : String) (policy : BulkImportDuplicatePolicy)
  | appendOutSegment (cellId : CellId) (edgeType : EdgeType) (src : VertexId)
      (dsts : List VertexId) (idempotencyKey : String)
  | createRelationship (mutation : EdgeMutation) (srcMetadata dstMetadata : VertexMetadata)
      (edgeMetadata : EdgeMetadata)
  | setRelationshipMetadata (cellId : CellId) (k : RelationshipKey) (metadata : EdgeMetadata)
  | deleteRelationship (mutation : EdgeMutation) (relationshipId : RelationshipId)
  | deleteRelationshipBatch (cellId : CellId) (deletions : List (EdgeMutation × RelationshipId))
      (guards : List EdgeMutation)
  | importRelationships (cellId : CellId) (edgeType : EdgeType) (rows : List RelationshipMutation)
      (idempotencyKey : String)
  | createRelationshipBatch (cellId : CellId) (edgeType : EdgeType)
      (rows : List RelationshipMutation) (idempotencyKey sourceLabel destinationLabel : String)
  | mergeRelationshipBatch (cellId : CellId) (edgeType : EdgeType)
      (rows : List RelationshipMutation) (idempotencyKey : String) (labels : String × String)
      (mergePolicy : Option QueryBatchMergePolicy)
  | setVertexMetadata (cellId : CellId) (vertex : VertexId) (metadata : VertexMetadata)
  | setVertexMetadataBatch (cellId : CellId) (updates : List (VertexId × VertexMetadata))
  | importVertexMetadataBatch (cellId : CellId) (updates : List (VertexId × VertexMetadata))
  | mergeVertexMetadataBatch (cellId : CellId) (updates : List (VertexId × VertexMetadata))
      (mergePolicy : Option QueryBatchMergePolicy)
  | setEdgeMetadata (cellId : CellId) (k : EdgeKey) (metadata : EdgeMetadata)
  | setEdgeMetadataBatch (cellId : CellId) (edgeType : EdgeType)
      (updates : List (VertexId × VertexId × EdgeMetadata))
  | installMergeIndexes (cellId : CellId) (edgeType : EdgeType) (rows : List RelationshipMutation)
  | compactOutSegments (cellId : CellId) (edgeType : EdgeType) (src : VertexId)
      (through : StorageSequence) (idempotencyKey : String) (artifactBase : Option StorageSequence)

/-- The answer of a write operation. -/
inductive Answer where
  | commit (result : CommitResult)
  | delete (result : DeleteResult)
  | edgeBatch (result : EdgeMutationBatchResult)
  | deleteBatch (result : EdgeDeleteBatchResult)
  | bulkImport (result : BulkImportResult)
  | relationshipCreate (result : RelationshipCreateResult)
  | relationshipImport (result : RelationshipImportResult)
  | relationshipDeleteBatch (result : RelationshipDeleteBatchResult)
  | compaction (result : SegmentCompactionResult)
  | changed (result : Bool)
  | written (result : Nat)
  | done
  deriving DecidableEq

/-- The outcome with its result in another form. -/
def Outcome.map {α β : Type} (f : α → β) : Outcome α → Outcome β
  | .unchanged result => .unchanged (f result)
  | .commit cell result => .commit cell (f result)

/-- Run an operation for its answer. -/
def answering {α : Type} (f : α → Answer) (r : Except GraphError (Outcome α)) :
    Except GraphError (Outcome Answer) := do
  let outcome ← r
  return outcome.map f

namespace Mutation

/-- The cell an operation writes. -/
def cellId : Mutation → CellId
  | writeEdge mutation | writeEdgeWithVertexMetadata mutation _ _
  | writeEdgeWithFullMetadata mutation _ _ _ | deleteEdge mutation
  | createRelationship mutation _ _ _ | deleteRelationship mutation _ => mutation.cellId
  | writeEdgeBatch cellId _ | writeEdgeBatchBetweenLabeledVertices cellId _ _ _
  | deleteEdgeBatch cellId _ | bulkImportEdges cellId _ _ _ _ | appendOutSegment cellId _ _ _ _
  | setRelationshipMetadata cellId _ _ | deleteRelationshipBatch cellId _ _
  | importRelationships cellId _ _ _ | createRelationshipBatch cellId _ _ _ _ _
  | mergeRelationshipBatch cellId _ _ _ _ _ | setVertexMetadata cellId _ _
  | setVertexMetadataBatch cellId _ | importVertexMetadataBatch cellId _
  | mergeVertexMetadataBatch cellId _ _ | setEdgeMetadata cellId _ _
  | setEdgeMetadataBatch cellId _ _ | installMergeIndexes cellId _ _
  | compactOutSegments cellId _ _ _ _ _ => cellId

/-- The cell that a transaction committed, if it did. -/
def committedCell {α : Type} (r : Except GraphError (Outcome α)) : Option Cell :=
  match r with
  | .ok outcome => outcome.committed
  | .error _ => none

theorem committedCell_answering (f : α → Answer) (r : Except GraphError (Outcome α)) :
    committedCell (answering f r) = committedCell r := by
  cases r with
  | error => rfl
  | ok outcome => cases outcome <;> rfl

/-- An operation on its cell, with its answer. -/
def perform (env : WriteEnv) (sequence : StorageSequence) (c : Cell) :
    Mutation → Except GraphError (Outcome Answer)
  | writeEdge mutation => answering .commit (HydraDb.writeEdge env mutation sequence c)
  | writeEdgeWithVertexMetadata mutation srcMetadata dstMetadata =>
    answering .commit
      (HydraDb.writeEdgeWithVertexMetadata env mutation srcMetadata dstMetadata sequence c)
  | writeEdgeWithFullMetadata mutation srcMetadata dstMetadata edgeMetadata =>
    answering .commit (HydraDb.writeEdgeWithFullMetadata env mutation srcMetadata dstMetadata
      edgeMetadata sequence c)
  | writeEdgeBatch cellId mutations =>
    answering .edgeBatch (writeEdgeMutationsBatch env cellId mutations sequence c)
  | writeEdgeBatchBetweenLabeledVertices cellId mutations sourceLabel destinationLabel =>
    answering .edgeBatch (writeEdgeMutationsBatchBetweenLabeledVertices env cellId mutations
      sourceLabel destinationLabel sequence c)
  | deleteEdge mutation => answering .delete (HydraDb.deleteEdge env mutation sequence c)
  | deleteEdgeBatch cellId mutations =>
    answering .deleteBatch (deleteEdgeMutationsBatch env cellId mutations sequence c)
  | bulkImportEdges cellId edgeType edges idempotencyKey policy =>
    answering .bulkImport
      (bulkImportEdgesWithOptions env cellId edgeType edges idempotencyKey policy sequence c)
  | appendOutSegment cellId edgeType src dsts idempotencyKey =>
    answering .bulkImport (bulkAppendOutAdjacencySegmentTrusted env cellId edgeType src dsts
      idempotencyKey sequence c)
  | createRelationship mutation srcMetadata dstMetadata edgeMetadata =>
    answering .relationshipCreate (createRelationshipWithFullMetadata env mutation srcMetadata
      dstMetadata edgeMetadata sequence c)
  | setRelationshipMetadata cellId k metadata =>
    answering .changed (HydraDb.setRelationshipMetadata cellId k metadata sequence c)
  | deleteRelationship mutation relationshipId =>
    answering .delete (HydraDb.deleteRelationship env mutation relationshipId sequence c)
  | deleteRelationshipBatch cellId deletions guards =>
    answering .relationshipDeleteBatch
      (deleteRelationshipMutationsBatchWithGuards env cellId deletions guards sequence c)
  | importRelationships cellId edgeType rows idempotencyKey =>
    answering .relationshipImport
      (importRelationshipsBatch env cellId edgeType rows idempotencyKey sequence c)
  | createRelationshipBatch cellId edgeType rows idempotencyKey sourceLabel destinationLabel =>
    answering .relationshipImport (createRelationshipsBatchBetweenLabeledVertices env cellId
      edgeType rows idempotencyKey sourceLabel destinationLabel sequence c)
  | mergeRelationshipBatch cellId edgeType rows idempotencyKey labels mergePolicy =>
    answering .relationshipImport (mergeRelationshipsBatchBetweenLabeledVertices env cellId
      edgeType rows idempotencyKey labels mergePolicy sequence c)
  | setVertexMetadata cellId vertex metadata =>
    answering (fun _ => .done) (HydraDb.setVertexMetadata cellId vertex metadata sequence c)
  | setVertexMetadataBatch cellId updates =>
    answering .written (HydraDb.setVertexMetadataBatch env cellId updates sequence c)
  | importVertexMetadataBatch cellId updates =>
    answering .written (HydraDb.importVertexMetadataBatch env cellId updates sequence c)
  | mergeVertexMetadataBatch cellId updates mergePolicy =>
    answering .written (HydraDb.mergeVertexMetadataBatch env cellId updates mergePolicy sequence c)
  | setEdgeMetadata cellId k metadata =>
    answering .changed (HydraDb.setEdgeMetadata cellId k metadata sequence c)
  | setEdgeMetadataBatch cellId edgeType updates =>
    answering .written (HydraDb.setEdgeMetadataBatch env cellId edgeType updates sequence c)
  | installMergeIndexes cellId edgeType rows =>
    answering .written (installRelationshipMergeIndexesBatch env cellId edgeType rows sequence c)
  | compactOutSegments cellId edgeType src through idempotencyKey artifactBase =>
    answering .compaction (compactOutAdjacencySegments cellId edgeType src through idempotencyKey
      artifactBase sequence c)

/-- What an operation commits, if it does not fail and writes something. -/
def run (env : WriteEnv) (sequence : StorageSequence) (c : Cell) (m : Mutation) : Option Cell :=
  committedCell (m.perform env sequence c)

end Mutation

/-! ## The machine -/

/-- A vertex delete between its preparation and its transaction. -/
structure PendingRequest where
  cellId : CellId
  request : VertexDeleteRequest
  prepared : Option PreparedVertexDelete

/-- The store, and the vertex deletes under way. -/
structure Sys where
  db : Db
  pending : List PendingRequest

/-- What can happen. -/
inductive Event where
  /-- A write operation. -/
  | mutate (env : WriteEnv) (mutation : Mutation)
  /-- The preparation of a vertex delete. -/
  | prepareDelete (env : WriteEnv) (cellId : CellId) (request : VertexDeleteRequest)
  /-- The transaction of the vertex delete at a position of the list. -/
  | commitDelete (env : WriteEnv) (index : Nat)
  /-- A pass of garbage collection over the changelog of an edge type, against a published
  generation with base `gcThrough`. -/
  | collect (cap : Nat) (cellId : CellId) (edgeType : EdgeType)
      (gcThrough repairEpoch : StorageSequence)

/-- Commit a cell. The store numbers its commits one after another and does not hand out
`u64::MAX`, which no range scan of the changelog could end above. -/
def Db.commit (db : Db) (cellId : CellId) : Option Cell → Db
  | some c =>
    if db.sequence + 2 < u64Bound then ⟨db.sequence + 1, Function.update db.cells cellId c⟩ else db
  | none => db

namespace Sys

/-- The store before the first write. -/
def initial : Sys := ⟨⟨0, fun _ => .empty⟩, []⟩

/-- The preparation a request starts with; one that fails leaves nothing to commit. -/
def prepare (s : Sys) (env : WriteEnv) (cellId : CellId) (request : VertexDeleteRequest) : Sys :=
  match prepareVertexDelete env cellId (retainFirst ∅ request.batch.1) request.batch.2
      s.db.sequence (s.db.cells cellId) with
  | .ok prepared => { s with pending := s.pending ++ [⟨cellId, request, prepared⟩] }
  | .error _ => s

/-- The transaction of a prepared request. -/
def commitDelete (s : Sys) (env : WriteEnv) (f : PendingRequest) : Db :=
  s.db.commit f.cellId (Mutation.committedCell
    (deleteVertexMutationRequestsBatchWithMode env f.cellId f.request.batch.1 f.request.batch.2
      f.prepared s.db.sequence (s.db.cells f.cellId)))

/-- What an event does. -/
def exec (s : Sys) : Event → Sys
  | .mutate env mutation =>
    { s with
      db := s.db.commit mutation.cellId
        (mutation.run env s.db.sequence (s.db.cells mutation.cellId)) }
  | .prepareDelete env cellId request => s.prepare env cellId request
  | .commitDelete env index =>
    match s.pending[index]? with
    | some f => ⟨s.commitDelete env f, s.pending.eraseIdx index⟩
    | none => s
  | .collect cap cellId edgeType gcThrough repairEpoch =>
    { s with
      db := s.db.commit cellId (Mutation.committedCell
        (gcTopologyChangelog cap cellId edgeType gcThrough repairEpoch s.db.sequence
          (s.db.cells cellId))) }

end Sys

end HydraDb
