import HydraDb.Core.Codec
import HydraDb.Lib.Counters

/-!
# The stored cell

Every key of the store begins with its cell (`keys.rs`), so the store is a map from cells to the
key families of a cell. Each family is an `OrdMap` whose key type lists the components of the key
in the order in which the key spells them, with the order of the zero-padded text: a prefix scan
of the store is a `scan` of the table. The families are grouped by what they are for, so that an
operation on one group leaves the others alone by definition.

The value of an edge key is a constant (`encode_edge_record`), so the edge tables are sets. An
absent counter reads as zero (`read_counter_txn`), which is `OrdMap.count`. The family `edge/…` of
an older layout is only ever deleted and is left out.
-/

namespace HydraDb

open LinearOrder

/-! ## Keys -/

/-- `e/out/{type}/{src}/{dst}`, and the other families of a directed pair. -/
structure EdgeKey where
  edgeType : EdgeType
  src : VertexId
  dst : VertexId

/-- `e/in/{type}/{dst}/{src}`. -/
structure InEdgeKey where
  edgeType : EdgeType
  dst : VertexId
  src : VertexId

/-- `cnt/out/{type}/{vertex}` and `cnt/in/{type}/{vertex}`. -/
structure DegreeKey where
  edgeType : EdgeType
  vertex : VertexId

/-- `seg/out/{type}/{src}/{seq}/{segment_id}`. -/
structure SegmentKey where
  edgeType : EdgeType
  src : VertexId
  sequence : StorageSequence
  segmentId : String

/-- `xlog/{type}/{seq}/{src}/{dst}`. -/
structure XlogKey where
  edgeType : EdgeType
  sequence : StorageSequence
  src : VertexId
  dst : VertexId

/-- `vlabel/{label}/{vertex}`. -/
structure VertexLabelKey where
  label : String
  vertex : VertexId

/-- `vprop_idx/{property}/{value}/{vertex}`. -/
structure VertexPropertyKey where
  property : String
  encoded : String
  vertex : VertexId

/-- `eprop_idx/{type}/{property}/{value}/{src}/{dst}`, and `rmerge_idx` with the same parts. -/
structure EdgePropertyKey where
  edgeType : EdgeType
  property : String
  encoded : String
  src : VertexId
  dst : VertexId

/-- `rel/{type}/{src}/{dst}/{relationship_id}`. -/
structure RelationshipKey where
  edgeType : EdgeType
  src : VertexId
  dst : VertexId
  relationshipId : RelationshipId

/-- `rprop_idx/{type}/{property}/{value}/{src}/{dst}/{relationship_id}`. -/
structure RelationshipPropertyKey where
  edgeType : EdgeType
  property : String
  encoded : String
  src : VertexId
  dst : VertexId
  relationshipId : RelationshipId

/-- `idem/{operation}/{key}`. -/
structure IdempotencyKey where
  operation : String
  key : String

instance : LinearOrder EdgeKey :=
  lift' (fun k => toLex (k.edgeType, toLex (k.src, k.dst)))
    fun ⟨_, _, _⟩ ⟨_, _, _⟩ h => by simpa using h

instance : LinearOrder InEdgeKey :=
  lift' (fun k => toLex (k.edgeType, toLex (k.dst, k.src)))
    fun ⟨_, _, _⟩ ⟨_, _, _⟩ h => by simpa using h

instance : LinearOrder DegreeKey :=
  lift' (fun k => toLex (k.edgeType, k.vertex)) fun ⟨_, _⟩ ⟨_, _⟩ h => by simpa using h

instance : LinearOrder SegmentKey :=
  lift' (fun k => toLex (k.edgeType, toLex (k.src, toLex (k.sequence, k.segmentId))))
    fun ⟨_, _, _, _⟩ ⟨_, _, _, _⟩ h => by simpa using h

instance : LinearOrder XlogKey :=
  lift' (fun k => toLex (k.edgeType, toLex (k.sequence, toLex (k.src, k.dst))))
    fun ⟨_, _, _, _⟩ ⟨_, _, _, _⟩ h => by simpa using h

instance : LinearOrder VertexLabelKey :=
  lift' (fun k => toLex (k.label, k.vertex)) fun ⟨_, _⟩ ⟨_, _⟩ h => by simpa using h

instance : LinearOrder VertexPropertyKey :=
  lift' (fun k => toLex (k.property, toLex (k.encoded, k.vertex)))
    fun ⟨_, _, _⟩ ⟨_, _, _⟩ h => by simpa using h

instance : LinearOrder EdgePropertyKey :=
  lift' (fun k => toLex (k.edgeType, toLex (k.property, toLex (k.encoded, toLex (k.src, k.dst)))))
    fun ⟨_, _, _, _, _⟩ ⟨_, _, _, _, _⟩ h => by simpa using h

instance : LinearOrder RelationshipKey :=
  lift' (fun k => toLex (k.edgeType, toLex (k.src, toLex (k.dst, k.relationshipId))))
    fun ⟨_, _, _, _⟩ ⟨_, _, _, _⟩ h => by simpa using h

instance : LinearOrder RelationshipPropertyKey :=
  lift'
    (fun k => toLex (k.edgeType, toLex (k.property, toLex (k.encoded,
      toLex (k.src, toLex (k.dst, k.relationshipId))))))
    fun ⟨_, _, _, _, _, _⟩ ⟨_, _, _, _, _, _⟩ h => by simpa using h

instance : LinearOrder IdempotencyKey :=
  lift' (fun k => toLex (k.operation, k.key)) fun ⟨_, _⟩ ⟨_, _⟩ h => by simpa using h

/-- The pair of a relationship. -/
def RelationshipKey.edge (k : RelationshipKey) : EdgeKey := ⟨k.edgeType, k.src, k.dst⟩

/-- The pair a mutation names. -/
def EdgeMutation.edge (m : EdgeMutation) : EdgeKey := ⟨m.edgeType, m.src, m.dst⟩

/-! ## Key families -/

/-- The adjacency of a cell: direct edges and their mirror, out-segments and their tombstones,
degree counters. -/
structure Topology where
  outEdges : OrdMap EdgeKey Unit
  inEdges : OrdMap InEdgeKey Unit
  outSegments : OrdMap SegmentKey (List VertexId)
  tombstones : OrdMap EdgeKey StorageSequence
  degreeOut : OrdMap DegreeKey Nat
  degreeIn : OrdMap DegreeKey Nat

/-- The topology changelog of a cell: per edge type the dirty marker, the adjacency generation
and the low-water mark, and per change whether the edge exists after the commit. -/
structure Changelog where
  matrixDirty : OrdMap EdgeType StorageSequence
  adjacencyGeneration : OrdMap EdgeType StorageSequence
  lowWater : OrdMap EdgeType StorageSequence
  entries : OrdMap XlogKey Bool

/-- The vertex records of a cell and the indexes over their metadata. -/
structure VertexStore where
  records : OrdMap VertexId VertexMetadata
  labels : OrdMap VertexLabelKey Unit
  properties : OrdMap VertexPropertyKey Unit

/-- The edge metadata of a cell and the index over it. -/
structure EdgeMetadataStore where
  records : OrdMap EdgeKey EdgeMetadata
  properties : OrdMap EdgePropertyKey Unit

/-- The relationship records of a cell, their id pointers and counts, the property index, the
unique-identity pointers and the last id handed out. -/
structure RelationshipStore where
  records : OrdMap RelationshipKey EdgeMetadata
  ids : OrdMap RelationshipId RelationshipKey
  counts : OrdMap EdgeKey Nat
  properties : OrdMap RelationshipPropertyKey Unit
  merges : OrdMap EdgePropertyKey RelationshipId
  lastId : Option RelationshipId

/-- A stored idempotency record: the result, and the request it belongs to. -/
inductive IdempotencyRecord where
  | commit (result : CommitResult) (cellId : CellId) (edge : EdgeKey)
  | delete (result : DeleteResult) (cellId : CellId) (edge : EdgeKey)
  | relationshipDelete (result : DeleteResult) (cellId : CellId) (relationship : RelationshipKey)
  | vertexDelete (result : VertexDeleteResult) (cellId : CellId) (vertex : VertexId)
  | bulkImport (result : BulkImportResult) (fingerprint : UInt64) (key : String)
  | relationshipImport (result : RelationshipImportResult) (fingerprint : UInt64) (key : String)
  | relationshipCreate (result : RelationshipCreateResult) (fingerprint : UInt64)
      (cellId : CellId) (edge : EdgeKey)
  | segmentCompact (result : SegmentCompactionResult) (key : String)

/-- All keys of one cell. `dropped` and `dropPending` are the drop markers. -/
structure Cell where
  topology : Topology
  changelog : Changelog
  vertices : VertexStore
  edgeMetadata : EdgeMetadataStore
  relationships : RelationshipStore
  idempotency : OrdMap IdempotencyKey IdempotencyRecord
  dropped : Bool
  dropPending : Bool

def Topology.empty : Topology := ⟨∅, ∅, ∅, ∅, ∅, ∅⟩

def Changelog.empty : Changelog := ⟨∅, ∅, ∅, ∅⟩

def VertexStore.empty : VertexStore := ⟨∅, ∅, ∅⟩

def EdgeMetadataStore.empty : EdgeMetadataStore := ⟨∅, ∅⟩

def RelationshipStore.empty : RelationshipStore := ⟨∅, ∅, ∅, ∅, ∅, none⟩

/-- A cell no key has been written to. -/
def Cell.empty : Cell :=
  ⟨.empty, .empty, .empty, .empty, .empty, ∅, false, false⟩

/-- The store: the sequence of its last commit and its cells. -/
structure Db where
  sequence : StorageSequence
  cells : CellId → Cell

end HydraDb
