import HydraDb.Lib.OrdMap
import Mathlib.Data.String.Basic

/-!
# The data model

Identifiers, property values, metadata, the mutations a caller submits, the results a transaction
returns and the errors it can fail with (`core/model.rs`, `core/error.rs`). A `u64` identifier that
is written to disk as eight bytes is a `UInt64`; storage sequences and counters are natural
numbers, and the places where the program checks a `u64` overflow check it here against
`u64Bound`.
-/

/-- The numeric order of 64-bit words, the order of their zero-padded keys. -/
instance linearOrderUInt64 : LinearOrder UInt64 where
  le_refl := UInt64.le_refl
  le_trans _ _ _ := UInt64.le_trans
  le_antisymm _ _ := UInt64.le_antisymm
  le_total := UInt64.le_total
  lt_iff_le_not_ge a b := by
    simp only [UInt64.lt_iff_toNat_lt, UInt64.le_iff_toNat_le]; omega
  toDecidableLE := inferInstance
  toDecidableLT := inferInstance
  toDecidableEq := inferInstance

instance lawfulBEqUInt64 : LawfulBEq UInt64 := inferInstance

namespace HydraDb

abbrev CellId := String
abbrev EdgeType := String
abbrev VertexId := UInt64
abbrev StorageSequence := Nat
abbrev RelationshipId := UInt64

/-- One past the largest `u64`. -/
def u64Bound : Nat := 2 ^ 64

/-- `u64::saturating_add(1)`. -/
def saturatingSucc (n : Nat) : Nat := min (n + 1) (u64Bound - 1)

theorem saturatingSucc_of_lt (h : n + 1 < u64Bound) : saturatingSucc n = n + 1 :=
  min_eq_left (Nat.le_sub_one_of_lt h)

/-! ## Property values and metadata -/

/-- A property value. A float is its bit pattern: the program compares floats by
`f64::to_bits`. -/
inductive VertexPropertyValue where
  | integer (value : UInt64)
  | signedInteger (value : Int64)
  | bool (value : Bool)
  | float (bits : UInt64)
  | string (value : String)
  deriving DecidableEq

/-- The form a parsed `i64` takes: unsigned whenever it is not negative. -/
def VertexPropertyValue.fromI64 (value : Int64) : VertexPropertyValue :=
  if 0 ≤ value then .integer value.toUInt64 else .signedInteger value

/-- A property map, ordered by property name. -/
abbrev Properties := OrdMap String VertexPropertyValue

/-- The labels and properties of a vertex. -/
structure VertexMetadata where
  labels : OrdMap String Unit
  properties : Properties
  deriving DecidableEq

/-- The properties of an edge or of a relationship. -/
structure EdgeMetadata where
  properties : Properties
  deriving DecidableEq

instance : Inhabited VertexMetadata := ⟨⟨∅, ∅⟩⟩

instance : Inhabited EdgeMetadata := ⟨⟨∅⟩⟩

/-- The properties of `previous` overridden by those of `requested`. -/
def Properties.extend (previous requested : Properties) : Properties :=
  previous.putAll requested.entries

/-- `merge_vertex_metadata` (`shard/write.rs`): labels accumulate, properties override. -/
def mergeVertexMetadata (previous requested : VertexMetadata) : VertexMetadata where
  labels := previous.labels.putAll requested.labels.entries
  properties := Properties.extend previous.properties requested.properties

/-- `merge_edge_metadata` (`shard/write.rs`). -/
def mergeEdgeMetadata (previous requested : EdgeMetadata) : EdgeMetadata where
  properties := Properties.extend previous.properties requested.properties

/-! ## Mutations -/

/-- An edge named by a write, with the caller's idempotency key. -/
structure EdgeMutation where
  cellId : CellId
  edgeType : EdgeType
  src : VertexId
  dst : VertexId
  idempotencyKey : String
  deriving DecidableEq

/-- One row of a relationship import. -/
structure RelationshipMutation where
  cellId : CellId
  edgeType : EdgeType
  src : VertexId
  dst : VertexId
  relationshipId : RelationshipId
  metadata : EdgeMetadata
  deriving DecidableEq

/-- A guarded merge: a row lands only when its guard property is newer, and create-only
properties never override stored ones (`QueryBatchMergePolicy`, `query/algebra.rs`). -/
structure QueryBatchMergePolicy where
  updateIfNewerBy : String
  createOnlyProperties : OrdMap String Unit

/-- How a bulk import treats edges that exist already. -/
inductive BulkImportDuplicatePolicy where
  | checkExisting
  | trustNoExisting
  deriving DecidableEq

/-- `BulkImportDuplicatePolicy::check_existing`. -/
def BulkImportDuplicatePolicy.checks : BulkImportDuplicatePolicy → Bool
  | .checkExisting => true
  | .trustNoExisting => false

/-! ## Results -/

structure CommitResult where
  epoch : StorageSequence
  alreadyExisted : Bool
  deriving DecidableEq

structure DeleteResult where
  epoch : StorageSequence
  deleted : Bool
  deriving DecidableEq

structure EdgeMutationBatchResult where
  startEpoch : StorageSequence
  endEpoch : StorageSequence
  inserted : Nat
  alreadyExisted : Nat
  results : List CommitResult
  deriving DecidableEq

structure EdgeDeleteBatchResult where
  startEpoch : StorageSequence
  endEpoch : StorageSequence
  deleted : Nat
  alreadyDeleted : Nat
  results : List DeleteResult
  deriving DecidableEq

structure BulkImportResult where
  startEpoch : StorageSequence
  endEpoch : StorageSequence
  inserted : Nat
  alreadyExisted : Nat
  deriving DecidableEq

structure RelationshipCreateResult where
  epoch : StorageSequence
  relationshipId : RelationshipId
  structuralEdgeInserted : Bool
  alreadyCreated : Bool
  deriving DecidableEq

structure RelationshipImportResult where
  startEpoch : StorageSequence
  endEpoch : StorageSequence
  relationshipsInserted : Nat
  relationshipsAlreadyExisted : Nat
  structuralEdgesInserted : Nat
  structuralEdgesAlreadyExisted : Nat
  deriving DecidableEq

structure RelationshipDeleteBatchResult where
  deleted : Nat
  alreadyDeleted : Nat
  topologySequence : Option StorageSequence
  deriving DecidableEq

structure VertexDeleteResult where
  epoch : StorageSequence
  vertexDeleted : Bool
  incidentEdgesDeleted : Nat
  relationshipsDeleted : Nat
  deriving DecidableEq

structure SegmentCompactionResult where
  compactedThroughEpoch : StorageSequence
  sourceSegments : Nat
  deletedSegmentKeys : Nat
  deletedTombstoneKeys : Nat
  inputEdges : Nat
  outputEdges : Nat
  deriving DecidableEq

/-! ## Errors -/

/-- Why a query was refused (`QueryFailureReason`), as far as the modelled operations use it. -/
inductive QueryFailureReason where
  | mutation
  | unwind
  | pattern
  | union
  | orderWindow
  | evaluation
  | invalidRequest
  | parameter
  | parseError
  | other
  deriving DecidableEq

/-- The errors of the modelled operations, with the data they carry (`core/error.rs`). -/
inductive GraphError where
  | conditionalWriteConflict (operation key : String)
  | invalidKeyComponent (component value : String)
  | corruptValue (key reason : String)
  | idempotencyConflict (operation idempotencyKey reason : String)
  | cellDropped (operation : String) (cellId : CellId)
  | snapshotAhead (cellId : CellId) (readEpoch currentEpoch : StorageSequence)
  | admissionRejected (operation : String) (actual limit : Nat)
  | unsupportedQuery (dialect feature : String) (reason : QueryFailureReason)
  | batchValueConflict (target : String)
  | queryParse (dialect reason : String)
  | missingQueryParameter (dialect name : String)
  | graphScopeMismatch (expected actual : String)
  | graphScopeAccessDenied (principal action scope : String)
  | sparseKernel (backend reason : String)
  | objectStore (reason : String)
  | queryTimeout (operation : String) (elapsedMs limitMs : Nat)
  deriving DecidableEq

/-- An `UnsupportedQuery` error of the OpenCypher dialect. -/
def unsupported (reason : QueryFailureReason) (feature : String) : GraphError :=
  .unsupportedQuery "OpenCypher" feature reason

/-- `ensure_limit` (`codec.rs`). -/
def ensureLimit (operation : String) (actual limit : Nat) : Except GraphError Unit :=
  if actual > limit then .error (.admissionRejected operation actual limit) else .ok ()

/-- The limits the modelled operations check (`GraphLimits`, `core/config.rs`). -/
structure GraphLimits where
  maxBulkImportEdges : Nat
  maxArtifactBuildEdges : Nat
  maxQueryIntermediateRows : Nat
  maxQueryScanEdges : Nat
  maxWalTailFiles : Nat

/-- The defaults of `GraphLimits`. -/
def GraphLimits.default : GraphLimits where
  maxBulkImportEdges := 1000000
  maxArtifactBuildEdges := 10000000
  maxQueryIntermediateRows := 250000
  maxQueryScanEdges := 1000000
  maxWalTailFiles := 4096

end HydraDb
