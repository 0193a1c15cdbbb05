import HydraDb.Store.Changelog
import HydraDb.Store.Records

/-!
# Transactions

A transaction reads and writes one cell. It starts from the cell as of the last commit, sees its
own writes, and either returns without a commit, fails, or commits all its writes at the next
sequence (`commit_txn_strict_with_sequence`, `codec.rs`). This file has what the transaction
bodies share: the fence, the replay of a recorded result, the writes to a cell and the commit.

Retries, permits, the writer lane and the write authority of a shard decide when a body runs and
are not modelled: a body runs on the state it commits on.
-/

namespace HydraDb

/-- What a transaction that did not fail left: its result, and the cell it committed if it wrote
anything. -/
inductive Outcome (α : Type) where
  | unchanged (result : α)
  | commit (cell : Cell) (result : α)

/-- The part of a shard's state and configuration a transaction reads: the index policy
(`writes_reverse_index`), the in-memory cache of edge types known to have a changelog floor
(`xlog_floor_ensured`), the limits, and the comparison of constraint values
(`delete_constraint_property_values_equal`, chosen by a build feature). -/
structure WriteEnv where
  reverseIndex : Bool
  floorEnsured : CellId → EdgeType → Bool
  limits : GraphLimits
  constraintEq : VertexPropertyValue → VertexPropertyValue → Bool

/-- The cell a transaction committed. -/
def Outcome.committed {α : Type} : Outcome α → Option Cell
  | .unchanged _ => none
  | .commit cell _ => some cell

/-- `txn.seqnum().checked_add(1)`. -/
def nextSequence (sequence : StorageSequence) (key reason : String) :
    Except GraphError StorageSequence :=
  if sequence + 1 < u64Bound then .ok (sequence + 1) else .error (.corruptValue key reason)

/-- The epoch a result names: the next sequence when something changes. -/
def epochIf (changed : Bool) (sequence : StorageSequence) (key reason : String) :
    Except GraphError StorageSequence :=
  if changed then nextSequence sequence key reason else .ok sequence

/-- `commit_txn_strict_with_sequence`. -/
def commitTxn {α : Type} (sequence : StorageSequence) (cell : Cell) (result : α) :
    Except GraphError (Outcome α) := do
  let _ ← nextSequence sequence "storage_sequence" "SlateDB storage sequence overflow"
  return .commit cell result

/-- The commit of a transaction that may have written nothing: then the store's sequence stays. -/
def commitTxnIf {α : Type} (wrote : Bool) (sequence : StorageSequence) (cell : Cell) (result : α) :
    Except GraphError (Outcome α) := do
  let _ ← nextSequence sequence "storage_sequence" "SlateDB storage sequence overflow"
  return if wrote then .commit cell result else .unchanged result

/-! ## Idempotency records -/

/-- The text of an idempotency key. -/
def idempotencyKeyText (cellId : CellId) (operation key : String) : String :=
  "cell/" ++ cellId ++ "/idem/" ++ operation ++ "/" ++ key

/-- `decode_commit_idempotency`. -/
def decodeCommitIdempotency (key : String) (mutation : EdgeMutation) :
    IdempotencyRecord → Except GraphError CommitResult
  | .commit result cellId edge =>
    if cellId ≠ mutation.cellId ∨ edge ≠ mutation.edge then
      .error (.idempotencyConflict "create" mutation.idempotencyKey
        "this key already stored a result for a different edge")
    else .ok result
  | _ => .error (.corruptValue key "expected graph-commit-idempotency-v1 record with 7 fields")

/-- `decode_delete_idempotency`. -/
def decodeDeleteIdempotency (key : String) (mutation : EdgeMutation) :
    IdempotencyRecord → Except GraphError DeleteResult
  | .delete result cellId edge =>
    if cellId ≠ mutation.cellId ∨ edge ≠ mutation.edge then
      .error (.idempotencyConflict "delete" mutation.idempotencyKey
        "this key already stored a result for a different edge")
    else .ok result
  | _ => .error (.corruptValue key "expected graph-delete-idempotency-v1 record with 7 fields")

/-- `decode_relationship_delete_idempotency`. -/
def decodeRelationshipDeleteIdempotency (key : String) (mutation : EdgeMutation)
    (relationshipId : RelationshipId) : IdempotencyRecord → Except GraphError DeleteResult
  | .relationshipDelete result cellId relationship =>
    if cellId ≠ mutation.cellId ∨ relationship.edge ≠ mutation.edge ∨
        relationship.relationshipId ≠ relationshipId then
      .error (.idempotencyConflict "relationship-delete" mutation.idempotencyKey
        "this key already stored a result for a different relationship")
    else .ok result
  | _ => .error (.corruptValue key "expected relationship_delete1 record with 8 fields")

/-- `decode_vertex_delete_idempotency`. -/
def decodeVertexDeleteIdempotency (key : String) (cellId : CellId) (vertex : VertexId)
    (idempotencyKey : String) : IdempotencyRecord → Except GraphError VertexDeleteResult
  | .vertexDelete result cellId' vertex' =>
    if cellId' ≠ cellId ∨ vertex' ≠ vertex then
      .error (.idempotencyConflict "vertex-delete" idempotencyKey
        "this key already stored a result for a different vertex")
    else .ok result
  | _ => .error (.corruptValue key "expected vertex_delete1 record with 7 fields")

/-- `decode_bulk_import_idempotency`. -/
def decodeBulkImportIdempotency (key idempotencyKey : String) (fingerprint : UInt64) :
    IdempotencyRecord → Except GraphError BulkImportResult
  | .bulkImport result fingerprint' key' =>
    if key' ≠ idempotencyKey then
      .error (.idempotencyConflict "bulk-import" idempotencyKey
        "the stored record names a different key")
    else if fingerprint' ≠ fingerprint then
      .error (.idempotencyConflict "bulk-import" idempotencyKey
        "this key already stored a result for a different payload")
    else .ok result
  | _ => .error (.corruptValue key "expected bulk_import1 record with 7 fields")

/-- `decode_relationship_import_idempotency`. -/
def decodeRelationshipImportIdempotency (key idempotencyKey : String) (fingerprint : UInt64) :
    IdempotencyRecord → Except GraphError RelationshipImportResult
  | .relationshipImport result fingerprint' key' =>
    if key' ≠ idempotencyKey then
      .error (.idempotencyConflict "relationship-import" idempotencyKey
        "the stored record names a different key")
    else if fingerprint' ≠ fingerprint then
      .error (.idempotencyConflict "relationship-import" idempotencyKey
        "this key already stored a result for a different payload")
    else .ok result
  | _ => .error (.corruptValue key "expected relationship_import1 record with 9 fields")

/-- `decode_relationship_create_idempotency`. -/
def decodeRelationshipCreateIdempotency (key : String) (mutation : EdgeMutation)
    (fingerprint : UInt64) : IdempotencyRecord → Except GraphError RelationshipCreateResult
  | .relationshipCreate result fingerprint' cellId edge =>
    if fingerprint' ≠ fingerprint ∨ cellId ≠ mutation.cellId ∨ edge ≠ mutation.edge then
      .error (.idempotencyConflict "relationship-create" mutation.idempotencyKey
        "this key already stored a result for a different edge or payload")
    else .ok result
  | _ => .error (.corruptValue key "expected relationship_create1 record with 10 fields")

/-- `decode_segment_compaction_idempotency`. -/
def decodeSegmentCompactionIdempotency (key idempotencyKey : String)
    (compactedThroughEpoch : StorageSequence) :
    IdempotencyRecord → Except GraphError SegmentCompactionResult
  | .segmentCompact result key' =>
    if key' ≠ idempotencyKey then
      .error (.idempotencyConflict "segment-compact" idempotencyKey
        "the stored record names a different key")
    else if result.compactedThroughEpoch ≠ compactedThroughEpoch then
      .error (.idempotencyConflict "segment-compact" idempotencyKey
        "a stored result for this key compacted through a different epoch")
    else .ok result
  | _ => .error (.corruptValue key "expected segment_compact1 record with 8 fields")

namespace Cell

/-! ## Reads and writes of a transaction -/

/-- `validate_write_fence_txn` (`shard/lifecycle.rs`): a dropped cell takes no writes. -/
def validateWriteFence (c : Cell) (cellId : CellId) (operation : String) : Except GraphError Unit :=
  if c.dropped || c.dropPending then .error (.cellDropped operation cellId) else .ok ()

/-- Answer with the result recorded for an idempotency key, or run the body. -/
def replayOr {α : Type} (c : Cell) (cellId : CellId) (operation key : String)
    (decode : String → IdempotencyRecord → Except GraphError α)
    (body : Except GraphError (Outcome α)) : Except GraphError (Outcome α) :=
  match c.idempotency.get ⟨operation, key⟩ with
  | some record => do
    let result ← decode (idempotencyKeyText cellId operation key) record
    return .unchanged result
  | none => body

def putIdempotency (c : Cell) (operation key : String) (record : IdempotencyRecord) : Cell :=
  { c with idempotency := c.idempotency.put ⟨operation, key⟩ record }

/-- `mark_topology_change_txn`. -/
def markTopologyChange (c : Cell) (env : WriteEnv) (cellId : CellId) (edgeType : EdgeType)
    (epoch : StorageSequence) (changes : List (VertexId × VertexId × Bool)) : Cell :=
  { c with
    changelog :=
      c.changelog.markTopologyChange (env.floorEnsured cellId edgeType) edgeType epoch changes }

def insertDirect (c : Cell) (reverseIndex : Bool) (k : EdgeKey) : Cell :=
  { c with topology := c.topology.insertDirect reverseIndex k }

def removeDirect (c : Cell) (reverseIndex : Bool) (k : EdgeKey) : Cell :=
  { c with topology := c.topology.removeDirect reverseIndex k }

def putTombstone (c : Cell) (k : EdgeKey) (epoch : StorageSequence) : Cell :=
  { c with topology := c.topology.putTombstone k epoch }

def appendSegment (c : Cell) (s : SegmentKey) (destinations : List VertexId) : Cell :=
  { c with topology := c.topology.appendSegment s destinations }

/-- Replace the out-degree counters. -/
def setDegreeOut (c : Cell) (counters : OrdMap DegreeKey Nat) : Cell :=
  { c with topology := { c.topology with degreeOut := counters } }

/-- Replace the in-degree counters. -/
def setDegreeIn (c : Cell) (counters : OrdMap DegreeKey Nat) : Cell :=
  { c with topology := { c.topology with degreeIn := counters } }

/-- Replace the vertex tables. -/
def setVertices (c : Cell) (vertices : VertexStore) : Cell := { c with vertices := vertices }

/-- Replace the edge-metadata tables. -/
def setEdgeMetadata (c : Cell) (edgeMetadata : EdgeMetadataStore) : Cell :=
  { c with edgeMetadata := edgeMetadata }

/-- Replace the relationship tables. -/
def setRelationships (c : Cell) (relationships : RelationshipStore) : Cell :=
  { c with relationships := relationships }

end Cell

end HydraDb
