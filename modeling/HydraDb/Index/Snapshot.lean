import HydraDb.Index.Publication
import HydraDb.Index.Traversal
import HydraDb.Index.WalTail
import HydraDb.Lib.Keeps

/-!
# Compiled snapshots

A read takes the edges of a type from a compiled matrix if it can
(`compiled_graphblas_query_snapshot`, `shard/query.rs`). The matrix is that of a published
generation, brought to the snapshot by the tail of the log, or that of an adjacency image, which the
shard keeps beside the records and which serves as long as the type has not changed since. What a
process knows of both is in its caches (`latest_matrix_artifact`, `engine/artifact_build.rs`;
`graph_index_generation_at`, `engine/index_store.rs`; `cached_graphblas_matrix`,
`engine/matrix_cache.rs`), which a request reads and fills, also when it fails.

Images in the older form of tiles are not part of the model, nor is the cache of adjacencies that
is used when no matrix may be kept.
-/

namespace HydraDb

open Publication

/-- What a process has of the index of an edge type. -/
structure IndexView where
  /-- The objects of the generations. -/
  objects : Objects
  /-- The adjacency images of the shard. -/
  images : OrdMap StorageSequence GraphBlasCsc
  /-- `graph_index_generations`. -/
  generations : OrdMap StorageSequence GraphIndexGeneration
  /-- `matrix_artifact_cache`: the edge counts of the artifacts. -/
  artifacts : OrdMap StorageSequence Nat
  /-- `graphblas_cache`. -/
  matrices : OrdMap StorageSequence CompiledGraphBlasMatrix

instance : EmptyCollection IndexView := ⟨⟨⟨none, ∅⟩, ∅, ∅, ∅, ∅⟩⟩

abbrev IndexRequest (α : Type) := Request GraphError IndexView α

/-- Remember a generation. -/
def IndexView.learn (view : IndexView) (generation : GraphIndexGeneration) : IndexView :=
  { view with
    generations := view.generations.put generation.baseSequence generation
    artifacts := view.artifacts.put generation.baseSequence generation.edgeCount }

/-- `forget_graph_index_generation`. -/
def IndexView.forget (view : IndexView) (generation : GraphIndexGeneration) : IndexView :=
  { view with
    generations := view.generations.del generation.baseSequence
    matrices := view.matrices.del generation.baseSequence }

/-- `discover_graph_index`. -/
def discoverGraphIndex (t : Target) : IndexRequest (Option GraphIndexGeneration) := do
  match ← .ofExcept (currentGraphIndex t (← get).objects.manifest) with
  | none => return none
  | some generation =>
    modify (·.learn generation)
    return some generation

/-- `graph_index_generation_at`. -/
def graphIndexGenerationAt (t : Target) (baseSequence : StorageSequence) :
    IndexRequest (Option GraphIndexGeneration) := do
  match (← get).generations.get baseSequence with
  | some generation => return some generation
  | none => return (← discoverGraphIndex t).filter (·.baseSequence = baseSequence)

/-- `latest_matrix_artifact`: the base and the edge count of the artifact. -/
def latestMatrixArtifact (t : Target) (readEpoch : StorageSequence) :
    IndexRequest (Option (StorageSequence × Nat)) := do
  match ((← get).artifacts.entries.filter (·.1 ≤ readEpoch)).getLast? with
  | some artifact => return some artifact
  | none =>
    match (← discoverGraphIndex t).filter (·.baseSequence ≤ readEpoch) with
    | some generation => return some (generation.baseSequence, generation.edgeCount)
    | none =>
      let decoded := (← get).images.entries.map fun image => (image.1, image.2.indices.length)
      modify fun view => { view with artifacts := view.artifacts.putAll decoded }
      return (decoded.filter (·.1 ≤ readEpoch)).getLast?

/-- `matrix_manifest_key`. -/
def matrixManifestKey (t : Target) (baseEpoch : StorageSequence) : String :=
  "cell/" ++ t.cellId ++ "/artifact/matrix_manifest/" ++ t.edgeType ++ "/" ++ padded20 baseEpoch

/-- The matrix of an artifact that is not a known generation: that of its image, or without an image
(`cached_matrix_adjacency`, `load_matrix_adjacency`) the empty one if the artifact has no edges. -/
def imageCsc (t : Target) (baseEpoch : StorageSequence) : IndexRequest GraphBlasCsc := do
  match (← get).images.get baseEpoch with
  | some csc => return csc
  | none =>
    match (← latestMatrixArtifact t baseEpoch).filter (·.1 = baseEpoch) with
    | none => throw (.corruptValue (matrixManifestKey t baseEpoch)
        "missing matrix artifact manifest")
    | some artifact =>
      if artifact.2 ≠ 0 then
        throw (.corruptValue (matrixManifestKey t baseEpoch)
          ("matrix edge count 0 does not match manifest " ++ toString artifact.2))
      else .ofExcept (graphblasCscFromAdjacency ∅)

/-- Compile a matrix and keep it. -/
def compileMatrix (kernel : SparseKernelBackend) (baseEpoch : StorageSequence)
    (csc : GraphBlasCsc) : IndexRequest (Option CompiledGraphBlasMatrix) := do
  let compiled ← .ofExcept (CompiledGraphBlasMatrix.newFromCsc csc kernel)
  modify fun view => { view with matrices := view.matrices.put baseEpoch compiled }
  return some compiled

/-- `cached_graphblas_matrix`. -/
def cachedGraphblasMatrix (kernel : SparseKernelBackend) (t : Target)
    (baseEpoch : StorageSequence) : IndexRequest (Option CompiledGraphBlasMatrix) := do
  if kernel = .adjacency then return none
  else
    match (← get).matrices.get baseEpoch with
    | some cached => return some cached
    | none =>
      match ← graphIndexGenerationAt t baseEpoch with
      | none => compileMatrix kernel baseEpoch (← imageCsc t baseEpoch)
      | some generation =>
        let payload := (← get).objects.payloads.get (generation.path t.storePath)
        match ← .ofExcept (graphIndexCsc t.storePath generation payload) with
        | none =>
          modify (·.forget generation)
          return none
        | some csc => compileMatrix kernel baseEpoch csc

/-- What a request reads of the shard besides the index. A log file that cannot be read is
`none`. -/
structure SnapshotEnv where
  limits : TraversalLimits
  policyKernel : SparseKernelBackend
  cell : Cell
  snapshotSequence : StorageSequence
  lastDurableWalId : Nat
  wal : Nat → Option (List WalRecord)

/-- A matrix, and the changes since. -/
abbrev CompiledSnapshot := CompiledGraphBlasMatrix × Option GraphTopologyOverlay

/-- The matrix has the visible edges of a type. -/
def GraphBlasCsc.Shows (csc : GraphBlasCsc) (t : Topology) (edgeType : EdgeType) : Prop :=
  ∃ a : MatrixAdjacency, a.Compact ∧ csc.Represents a ∧
    ∀ u v, a.HasEdge u v ↔ VisibleEdge t edgeType u v

/-- Whether a pair is an edge of the snapshot. -/
def CompiledSnapshot.contains (s : CompiledSnapshot) (src dst : VertexId) : Bool :=
  (s.2.bind fun overlay => overlay.state src dst).getD (s.1.csc.containsEdge src dst)

/-- The snapshot has the visible edges of a type. -/
def CompiledSnapshot.Shows (s : CompiledSnapshot) (t : Topology) (edgeType : EdgeType) : Prop :=
  ∀ u v, s.contains u v = true ↔ VisibleEdge t edgeType u v

/-- The tail has more affected edges than may be scanned. -/
def tailIsTooLong : GraphError → Bool
  | .admissionRejected operation _ _ => operation = "graph_index_wal_affected_edges"
  | _ => false

section

variable (env : SnapshotEnv) (t : Target) (readEpoch : StorageSequence)

/-- The published generation, if it is newer and not newer than the read. -/
def newerGraphIndex (generation : GraphIndexGeneration) :
    IndexRequest (Option GraphIndexGeneration) := do
  return (← discoverGraphIndex t).filter fun latest =>
    latest.baseSequence > generation.baseSequence ∧ latest.baseSequence ≤ readEpoch

/-- An attempt to bring the matrix of a generation to the snapshot; `retry` is the attempt with a
newer generation, of which there is one. -/
def compiledAttempt (retry : Option (GraphIndexGeneration → IndexRequest (Option CompiledSnapshot)))
    (generation : GraphIndexGeneration) : IndexRequest (Option CompiledSnapshot) := do
  match ← cachedGraphblasMatrix env.policyKernel t generation.baseSequence with
  | none =>
    match retry with
    | none => return none
    | some retry =>
      match ← newerGraphIndex t readEpoch generation with
      | none => return none
      | some latest => retry latest
  | some compiled =>
    if generation.baseSequence ≥ readEpoch then return some (compiled, none)
    else
      match topologyTailSince env.limits.toGraphLimits generation env.snapshotSequence
          env.cell.topology readEpoch env.lastDurableWalId env.wal with
      | .ok (.complete overlay) => return some (compiled, some overlay)
      | .ok .unavailable => return none
      | .error err =>
        match retry.filter fun _ => tailIsTooLong err with
        | none => throw err
        | some retry =>
          match ← newerGraphIndex t readEpoch generation with
          | none => throw err
          | some latest => retry latest

/-- `compiled_graphblas_query_snapshot`. -/
def compiledGraphblasQuerySnapshot (baseEpoch : StorageSequence) :
    IndexRequest (Option CompiledSnapshot) := do
  match ← graphIndexGenerationAt t baseEpoch with
  | some generation =>
    if env.snapshotSequence ≠ readEpoch then return none
    else compiledAttempt env t readEpoch (some (compiledAttempt env t readEpoch none)) generation
  | none =>
    let adjacencyGeneration := env.cell.changelog.adjacencyGeneration.count t.edgeType
    if baseEpoch < readEpoch ∧ (adjacencyGeneration = 0 ∨ adjacencyGeneration > baseEpoch) then
      return none
    else
      return (← cachedGraphblasMatrix env.policyKernel t baseEpoch).map fun compiled =>
        (compiled, none)

end

end HydraDb
