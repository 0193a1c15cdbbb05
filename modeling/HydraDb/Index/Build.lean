import HydraDb.Index.Payload

/-!
# Building an index generation

A full build encodes the canonical adjacency of a snapshot. An incremental build starts from the
matrix of the previous generation, applies the changes logged since, and encodes the result; it
declines when there is nothing to start from or the changelog does not reach back far enough
(`build_graph_index`, `build_graph_index_incremental`, `engine/index_store.rs`). A build stops here
at the payload and the manifest it hands to the publication.
-/

namespace HydraDb

/-- `GraphIndexGeneration`. -/
structure GraphIndexGeneration where
  cellId : CellId
  edgeType : EdgeType
  baseSequence : StorageSequence
  lastWalId : UInt64
  edgeCount : Nat
  checksum : UInt64
  generation : String
  deriving DecidableEq

/-- `graph_index_generation_path`. -/
def graphIndexGenerationPath (storePath : String) (cellId : CellId) (edgeType : EdgeType)
    (baseSequence : StorageSequence) (generation : String) : String :=
  storePath ++ "/_graph_index/" ++ cellId ++ "/" ++ edgeType ++ "/generations/" ++
    padded20 baseSequence ++ "-" ++ generation ++ ".csc"

/-- What an incremental build ends with. -/
inductive IncrementalBuild where
  /-- Nothing to start from, or the changelog has a gap: the caller runs a full build. -/
  | declined
  /-- The published generation covers the snapshot. -/
  | current (previous : GraphIndexGeneration)
  /-- A new generation, and the number of changes applied. -/
  | built (manifest : GraphIndexGeneration) (payload : List UInt8) (deltaEdges : Nat)
  deriving DecidableEq

section

variable (sha256Hex : List UInt8 → String) (limits : GraphLimits) (cellId : CellId)
  (edgeType : EdgeType) (baseSequence : StorageSequence) (lastWalId : UInt64)

/-- The end of both builds: the matrix of an adjacency, its payload and its manifest. -/
def encodeGeneration (a : MatrixAdjacency) :
    Except GraphError (GraphIndexGeneration × List UInt8) := do
  let csc ← graphblasCscFromAdjacency a
  ensureLimit "build_graph_index_edges" csc.indices.length limits.maxArtifactBuildEdges
  let checksum := graphblasCscChecksum csc
  let payload := encodeGraphIndexCsc baseSequence lastWalId checksum csc
  return (⟨cellId, edgeType, baseSequence, lastWalId, csc.indices.length, checksum,
    sha256Hex payload⟩, payload)

/-- `build_graph_index`, at the snapshot `t` whose sequence is `baseSequence`. -/
def buildGraphIndex (t : Topology) : Except GraphError (GraphIndexGeneration × List UInt8) := do
  validateComponent "cell_id" cellId
  validateComponent "edge_type" edgeType
  let a ← canonicalAdjacencyAt limits t edgeType baseSequence
  encodeGeneration sha256Hex limits cellId edgeType baseSequence lastWalId a

/-- `graph_index_csc`: the matrix of a generation, given what the object store has at its path. -/
def graphIndexCsc (storePath : String) (generation : GraphIndexGeneration) :
    Option (List UInt8) → Except GraphError (Option GraphBlasCsc)
  | none => .ok none
  | some value => do
    let path := graphIndexGenerationPath storePath generation.cellId generation.edgeType
      generation.baseSequence generation.generation
    let csc ← decodeGraphIndexCsc path value generation.baseSequence generation.lastWalId
      generation.checksum
    if csc.indices.length ≠ generation.edgeCount then
      .error (.corruptValue path "index edge count does not match manifest")
    else .ok (some csc)

/-- The patch of the previous matrix. -/
def buildFromPrevious (overlay : GraphTopologyOverlay) (csc : GraphBlasCsc) :
    Except GraphError IncrementalBuild := do
  let a ← csc.toAdjacency
  let (manifest, payload) ← encodeGeneration sha256Hex limits cellId edgeType baseSequence
    lastWalId (a.patch overlay)
  return .built manifest payload overlay.entries.length

/-- `build_graph_index_incremental`, at the snapshot of the changelog `l` whose sequence is
`baseSequence`; `payload` is what the object store has for the previous generation. -/
def buildGraphIndexIncremental (storePath : String) (l : Changelog)
    (previous : Option GraphIndexGeneration) (payload : Option (List UInt8)) :
    Except GraphError IncrementalBuild := do
  validateComponent "cell_id" cellId
  validateComponent "edge_type" edgeType
  match previous with
  | none => return .declined
  | some previous =>
    if previous.baseSequence ≥ baseSequence then return .current previous
    else
      match l.xlogDeltaSince previous.baseSequence baseSequence edgeType with
      | .uninitialized | .coverageGap _ => return .declined
      | .complete overlay =>
        match ← graphIndexCsc storePath previous payload with
        | none => return .declined
        | some csc =>
          buildFromPrevious sha256Hex limits cellId edgeType baseSequence lastWalId overlay csc

end

section

variable {sha256Hex : List UInt8 → String} {limits : GraphLimits} {cellId : CellId}
  {edgeType : EdgeType} {baseSequence : StorageSequence} {lastWalId : UInt64}
  {manifest : GraphIndexGeneration} {payload : List UInt8}

theorem encodeGeneration_ok
    (h : encodeGeneration sha256Hex limits cellId edgeType baseSequence lastWalId a =
      .ok (manifest, payload)) :
    ∃ csc, graphblasCscFromAdjacency a = .ok csc ∧
      payload = encodeGraphIndexCsc baseSequence lastWalId (graphblasCscChecksum csc) csc ∧
      manifest = ⟨cellId, edgeType, baseSequence, lastWalId, csc.indices.length,
        graphblasCscChecksum csc, sha256Hex payload⟩ := by
  obtain ⟨csc, hcsc, h⟩ := bind_ok h
  replace h := seq_ok h
  cases h
  exact ⟨csc, hcsc, rfl, rfl⟩

/-- A full build encodes the canonical adjacency. -/
theorem buildGraphIndex_ok
    (h : buildGraphIndex sha256Hex limits cellId edgeType baseSequence lastWalId t =
      .ok (manifest, payload)) :
    validateComponent "cell_id" cellId = .ok () ∧ validateComponent "edge_type" edgeType = .ok () ∧
      ∃ a, canonicalAdjacencyAt limits t edgeType baseSequence = .ok a ∧
        encodeGeneration sha256Hex limits cellId edgeType baseSequence lastWalId a =
          .ok (manifest, payload) := by
  obtain ⟨_, hcell, h⟩ := bind_ok h
  obtain ⟨_, htype, h⟩ := bind_ok h
  obtain ⟨a, ha, h⟩ := bind_ok h
  exact ⟨hcell, htype, a, ha, h⟩

/-- The matrix of a generation reads back from its payload. -/
theorem graphIndexCsc_encodeGeneration
    (hbase : baseSequence < u64Bound) (fits : payload.length < u64Bound)
    (h : encodeGeneration sha256Hex limits cellId edgeType baseSequence lastWalId a =
      .ok (manifest, payload)) :
    ∃ csc, csc.Represents a ∧ graphIndexCsc storePath manifest (some payload) = .ok (some csc) := by
  obtain ⟨csc, hcsc, hpayload, rfl⟩ := encodeGeneration_ok h
  have represents := GraphBlasCsc.graphblasCscFromAdjacency_ok hcsc
  refine ⟨csc, represents, ?_⟩
  subst hpayload
  rw [graphIndexCsc]
  rw [(decodeGraphIndexCsc_eq_ok_iff fits).2 ⟨hbase, represents.formed, rfl, rfl⟩]
  exact if_neg (not_not.2 rfl)

/-- An incremental build of a snapshot that the previous generation covers. -/
theorem buildGraphIndexIncremental_current (hcell : validateComponent "cell_id" cellId = .ok ())
    (htype : validateComponent "edge_type" edgeType = .ok ())
    (h : baseSequence ≤ previous.baseSequence) :
    buildGraphIndexIncremental sha256Hex limits cellId edgeType baseSequence lastWalId storePath l
      (some previous) previousPayload = .ok (.current previous) := by
  rw [buildGraphIndexIncremental, hcell, htype]
  exact if_pos h

/-- An incremental build with a complete delta. -/
theorem buildGraphIndexIncremental_complete (hcell : validateComponent "cell_id" cellId = .ok ())
    (htype : validateComponent "edge_type" edgeType = .ok ())
    (h : previous.baseSequence < baseSequence)
    (hdelta : l.xlogDeltaSince previous.baseSequence baseSequence edgeType = .complete overlay)
    (hcsc : graphIndexCsc storePath previous previousPayload = .ok (some csc)) :
    buildGraphIndexIncremental sha256Hex limits cellId edgeType baseSequence lastWalId storePath l
        (some previous) previousPayload =
      buildFromPrevious sha256Hex limits cellId edgeType baseSequence lastWalId overlay csc := by
  rw [buildGraphIndexIncremental, hcell, htype]
  dsimp only [bind, Except.bind]
  rw [if_neg (Nat.not_le.2 h), hdelta]
  rw [hcsc]

/-- A generation of an incremental build encodes the previous matrix with the changes since. -/
theorem buildGraphIndexIncremental_built
    (h : buildGraphIndexIncremental sha256Hex limits cellId edgeType baseSequence lastWalId
      storePath l (some previous) previousPayload = .ok (.built manifest payload deltaEdges)) :
    validateComponent "cell_id" cellId = .ok () ∧ validateComponent "edge_type" edgeType = .ok () ∧
      previous.baseSequence < baseSequence ∧ ∃ overlay csc a,
        l.xlogDeltaSince previous.baseSequence baseSequence edgeType = .complete overlay ∧
        graphIndexCsc storePath previous previousPayload = .ok (some csc) ∧
        csc.toAdjacency = .ok a ∧
        encodeGeneration sha256Hex limits cellId edgeType baseSequence lastWalId
          (a.patch overlay) = .ok (manifest, payload) := by
  obtain ⟨_, hcell, h⟩ := bind_ok h
  obtain ⟨_, htype, h⟩ := bind_ok h
  obtain ⟨hlt, h⟩ := else_of_ne h nofun
  split at h
  · cases h
  · cases h
  next overlay hdelta =>
  obtain ⟨_ | csc, hcsc, h⟩ := bind_ok h
  · cases h
  obtain ⟨a, ha, h⟩ := bind_ok h
  obtain ⟨⟨_, _⟩, hencode, h⟩ := bind_ok h
  cases h
  exact ⟨hcell, htype, Nat.not_le.1 hlt, overlay, csc, a, hdelta, hcsc, ha, hencode⟩

end

end HydraDb
