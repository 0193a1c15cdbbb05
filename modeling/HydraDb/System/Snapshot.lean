import HydraDb.System.Index
import HydraDb.System.VertexDelete

/-!
# What compiled snapshots show

A compiled snapshot has the edges that are visible at the read. The matrix shows the state at its
base: a full build and an adjacency image read it there, and an incremental build patches an earlier
one by a complete delta. From the base to the read, either the tail of the log names every edge that
changed, or the generation of the type says that none has. This holds of every view that a process
can have of an index (`StoreRun.Served`), along every run whose imports without existence checks are
given absent edges and whose passes of garbage collection do not stop at their cap.

The log is that of the storage engine. Of it the model has what the engine promises: the writes of a
transaction are in the file of its sequence, if that can be read.
-/

namespace HydraDb

open OrdMap Publication

/-! ## Runs with their log -/

/-- A run of the store, and what the log has of a cell: the writes of a sequence, and their file. -/
structure StoreRun (g : Regime) (cellId : CellId) where
  state : Nat → Sys
  batches : StorageSequence → List TopologyWrite
  file : StorageSequence → Nat
  initial : state 0 = .initial
  step : ∀ i, state (i + 1) = state i ∨
    ∃ e, g.Allows (state i) e ∧ state (i + 1) = (state i).exec e
  /-- The writes of a sequence have the effect of its transaction. -/
  logged : ∀ i, (state (i + 1)).db.sequence ≠ (state i).db.sequence →
    (((state i).db.cells cellId).topology.writeAll
      (batches (state (i + 1)).db.sequence)).SameAdjacency
        ((state (i + 1)).db.cells cellId).topology

namespace StoreRun

variable {g : Regime}

section

variable {cellId : CellId} (run : StoreRun g cellId)

def sequence (i : Nat) : StorageSequence := (run.state i).db.sequence

def cell (i : Nat) : Cell := (run.state i).db.cells cellId

theorem reaches (h : i ≤ j) : Machine.Run Sys.exec g.Allows (run.state i) (run.state j) := by
  induction j, h using Nat.le_induction with
  | base => exact .refl
  | succ j _ ih =>
    rcases run.step j with hsame | ⟨e, allowed, hexec⟩
    · rwa [hsame]
    · rw [hexec]
      exact .tail ih allowed

theorem reachable (i : Nat) : (run.state i).Reachable g := by
  have hrun := run.reaches (Nat.zero_le i)
  rwa [run.initial] at hrun

theorem cellOk (i : Nat) : CellOk g (run.sequence i) (run.cell i) :=
  (run.reachable i).ok.cells cellId

/-- A step changes nothing, or the writes of its sequence name the edges that change. -/
theorem visible_step (i : Nat) :
    run.sequence i ≤ run.sequence (i + 1) ∧
      ∀ k, ((run.cell (i + 1)).topology.Visible k ↔ (run.cell i).topology.Visible k) ∨
        run.sequence i < run.sequence (i + 1) ∧
          Topology.Named (run.batches (run.sequence (i + 1))) k := by
  rcases run.step i with hsame | ⟨e, allowed, hexec⟩
  · rw [sequence, sequence, cell, cell, hsame]
    exact ⟨le_refl _, fun k => .inl Iff.rfl⟩
  have heffect := ((run.reachable i).ok.effect allowed).cell cellId
  have hlogged := run.logged i
  rw [← hexec] at heffect
  rcases heffect with ⟨hcell, hseq⟩ | ⟨hseq, hchange⟩
  · refine ⟨?_, fun k => .inl ?_⟩
    · rcases hseq with hseq | hseq
      · exact hseq.ge
      · exact (Nat.le_succ _).trans hseq.ge
    · rw [cell, cell, hcell]
  have hlt : run.sequence i < run.sequence (i + 1) := hseq.ge
  refine ⟨hlt.le, fun k => ?_⟩
  cases hchange with
  | transaction committed =>
    have heffect := hlogged hlt.ne'
    have covers := committed.covers (run.cellOk i).adjacency.bounded heffect
    rcases Topology.visible_writeAll (k := k) covers with hsame | hnamed
    · exact .inl ((heffect.visible k).symm.trans hsame)
    · exact .inr ⟨hlt, hnamed⟩
  | collection _ _ _ _ _ l _ _ _ written =>
    refine .inl ?_
    rw [cell, cell, written]

/-- Between two states an edge is unchanged, or the writes of a sequence between them name it. -/
theorem visible_at (h : i ≤ j) : run.sequence i ≤ run.sequence j ∧
    ∀ k, ((run.cell j).topology.Visible k ↔ (run.cell i).topology.Visible k) ∨
      ∃ n, run.sequence i < n ∧ n ≤ run.sequence j ∧ Topology.Named (run.batches n) k := by
  induction j, h using Nat.le_induction with
  | base => exact ⟨le_refl _, fun k => .inl Iff.rfl⟩
  | succ j _ ih =>
    obtain ⟨hle, ih⟩ := ih
    obtain ⟨hstep, hchange⟩ := run.visible_step j
    refine ⟨hle.trans hstep, fun k => ?_⟩
    rcases hchange k with hsame | ⟨hlt, hnamed⟩
    · refine (ih k).imp hsame.trans ?_
      rintro ⟨n, hn, hle', hnamed⟩
      exact ⟨n, hn, hle'.trans hstep, hnamed⟩
    · exact .inr ⟨_, hle.trans_lt hlt, le_refl _, hnamed⟩

/-- States of one sequence have the same edges. -/
theorem visible_of_sequence_eq (h : i ≤ j) (heq : run.sequence i = run.sequence j) (k : EdgeKey) :
    (run.cell j).topology.Visible k ↔ (run.cell i).topology.Visible k := by
  refine ((run.visible_at h).2 k).resolve_right ?_
  rintro ⟨n, hlt, hle, -⟩
  exact absurd (hlt.trans_le (heq ▸ hle)) (lt_irrefl _)

/-- A type whose generation is not newer than a state has the edges it had there. -/
theorem visible_of_generation (huncapped : g.uncapped = true) (h : i ≤ j)
    (hgeneration : (run.cell j).changelog.adjacencyGeneration.count k.edgeType ≤ run.sequence i) :
    (run.cell j).topology.Visible k ↔ (run.cell i).topology.Visible k := by
  have hrun := (run.reaches h).mono fun s e (allowed : g.Allows s e) =>
    (⟨allowed, allowed.uncapped huncapped⟩ : g.Allows s e ∧ e.Uncapped s)
  have since : Since (run.sequence i) (run.cell i) (run.sequence j) (run.cell j) :=
    ((run.reachable i).ok.since hrun).2
  refine (since.dirtied k).resolve_right ?_
  rintro ⟨n, hn, hlt⟩
  rw [(run.cellOk j).marked, count, hn] at hgeneration
  exact absurd (hlt.trans_le hgeneration) (lt_irrefl _)

/-- What a request reads of the shard is the state now, and the log up to it. -/
structure Reads (now : Nat) (env : SnapshotEnv) : Prop where
  cell : env.cell = run.cell now
  durable : ∀ n ≤ run.sequence now, run.file n ≤ env.lastDurableWalId
  wal : ∀ n ≤ run.sequence now, ∀ w ∈ run.batches n, ∀ file, env.wal (run.file n) = some file →
    ⟨cellId, n, w⟩ ∈ file

/-- The run of a list of events; each batch has a file of its own. -/
def ofEvents (events : List Event) (batches : StorageSequence → List TopologyWrite)
    (admitted : Machine.Admits Sys.exec g.Allows .initial events)
    (logged : ∀ i < events.length,
      ((((events.take i).foldl Sys.exec .initial).db.cells cellId).topology.writeAll (batches
        ((events.take (i + 1)).foldl Sys.exec .initial).db.sequence)).SameAdjacency
          (((events.take (i + 1)).foldl Sys.exec .initial).db.cells cellId).topology) :
    StoreRun g cellId where
  state i := (events.take i).foldl Sys.exec .initial
  batches := batches
  file n := n
  initial := rfl
  step i := by
    by_cases h : i < events.length
    · refine .inr ⟨events[i], admitted.get h, ?_⟩
      rw [List.take_succ_eq_append_getElem h, List.foldl_append]
      rfl
    · rw [List.take_of_length_le (Nat.not_lt.1 h), List.take_of_length_le (by omega)]
      exact .inl rfl
  logged i hne := by
    by_cases h : i < events.length
    · exact logged i h
    · rw [List.take_of_length_le (Nat.not_lt.1 h), List.take_of_length_le (by omega)] at hne
      exact absurd rfl hne

end

/-! ## Generations and payloads -/

variable {t : Target} (run : StoreRun g t.cellId)

/-- Some state up to now has the sequence, and the matrix has the edges it shows. -/
def ShowsAt (now : Nat) (base : StorageSequence) (csc : GraphBlasCsc) : Prop :=
  ∃ i ≤ now, run.sequence i = base ∧ csc.Shows (run.cell i).topology t.edgeType

/-- Some matrix that shows the state at the base has a number of edges. -/
def Counts (now : Nat) (base : StorageSequence) (count : Nat) : Prop :=
  ∃ csc, run.ShowsAt now base csc ∧ csc.indices.length = count

/-- What a build assumes of its state, up to now: what is logged after it is in the files after the
one that the build notes. -/
structure Builds (now i : Nat) (limits : GraphLimits) (lastWalId : UInt64) (payload : List UInt8) :
    Prop where
  le : i ≤ now
  after : ∀ n, run.sequence i < n → lastWalId.toNat < run.file n
  limit : limits.maxArtifactBuildEdges < 2 ^ 64
  fits : payload.length < u64Bound

/-- The builds up to now: of a state, or of the changes since a payload of an earlier build. -/
inductive Made (sha256Hex : List UInt8 → String) (now : Nat) :
    GraphIndexGeneration → List UInt8 → Prop where
  | full {i limits lastWalId generation payload}
      (builds : run.Builds now i limits lastWalId payload)
      (build : buildGraphIndex sha256Hex limits t.cellId t.edgeType (run.sequence i) lastWalId
        (run.cell i).topology = .ok (generation, payload)) :
      Made sha256Hex now generation payload
  | incremental {i limits lastWalId generation payload previous previous' stored deltaEdges}
      (builds : run.Builds now i limits lastWalId payload)
      (read : Made sha256Hex now previous' stored)
      (build : buildGraphIndexIncremental sha256Hex limits t.cellId t.edgeType (run.sequence i)
        lastWalId t.storePath (run.cell i).changelog (some previous) (some stored) =
          .ok (.built generation payload deltaEdges)) :
      Made sha256Hex now generation payload

/-- A view that has lost some of what another has. -/
structure Within (view' view : IndexView) : Prop where
  manifest : view'.objects.manifest = view.objects.manifest
  payloads : view'.objects.payloads.Within view.objects.payloads
  images : view'.images.Within view.images
  generations : view'.generations.Within view.generations
  artifacts : view'.artifacts.Within view.artifacts
  matrices : view'.matrices.Within view.matrices

/-- The views that a process can have of the index of a type: publishers write payloads and
manifests of builds, the process notes what it published, the shard stores images of its states,
objects are collected and caches evict, and requests fill the caches. -/
inductive Served (sha256Hex : List UInt8 → String) : Nat → IndexView → Prop where
  | empty : Served sha256Hex 0 ∅
  | later (h : Served sha256Hex now view) : Served sha256Hex (now + 1) view
  | putPayload (h : Served sha256Hex now view)
      (made : run.Made sha256Hex now generation payload) :
      Served sha256Hex now { view with
        objects := view.objects.putPayload true (generation.path t.storePath) payload }
  | putManifest (h : Served sha256Hex now view)
      (made : run.Made sha256Hex now generation payload) :
      Served sha256Hex now { view with
        objects := { view.objects with manifest := some (encodeGraphIndexManifest generation) } }
  | learn (h : Served sha256Hex now view)
      (made : run.Made sha256Hex now generation payload) :
      Served sha256Hex now (view.learn generation)
  | image (h : Served sha256Hex now view) (hi : i ≤ now)
      (read : canonicalAdjacencyAt limits (run.cell i).topology t.edgeType (run.sequence i) = .ok a)
      (compressed : graphblasCscFromAdjacency a = .ok csc) :
      Served sha256Hex now { view with images := view.images.put (run.sequence i) csc }
  | lose (h : Served sha256Hex now view) (within : Within view' view) :
      Served sha256Hex now view'
  | artifact (h : Served sha256Hex now view) (readEpoch : StorageSequence) :
      Served sha256Hex now ((latestMatrixArtifact t readEpoch).perform view).2
  | compiled (h : Served sha256Hex now view) (env : SnapshotEnv)
      (readEpoch base : StorageSequence) :
      Served sha256Hex now ((compiledGraphblasQuerySnapshot env t readEpoch base).perform view).2

theorem served_empty (run : StoreRun g t.cellId) (sha256Hex : List UInt8 → String)
    (now : Nat) : run.Served sha256Hex now ∅ := by
  induction now with
  | zero => exact .empty
  | succ now ih => exact .later ih

/-- What is known of a generation: which files have what is newer, and the size of its matrix. -/
structure Generation (now : Nat) (generation : GraphIndexGeneration) : Prop where
  valid : generation.Valid
  cellId : generation.cellId = t.cellId
  edgeType : generation.edgeType = t.edgeType
  after : ∀ n, generation.baseSequence < n → generation.lastWalId.toNat < run.file n
  counts : run.Counts now generation.baseSequence generation.edgeCount

/-- A payload has a matrix that shows the state at its base. -/
structure Payload (now : Nat) (payload : List UInt8) : Prop where
  fits : payload.length < u64Bound
  encodes : ∃ base walId csc, run.ShowsAt now base csc ∧
    payload = encodeGraphIndexCsc base walId (graphblasCscChecksum csc) csc

variable {run} {sha256Hex : List UInt8 → String} {now : Nat}

theorem ShowsAt.mono (h : run.ShowsAt now base csc) (hle : now ≤ now') :
    run.ShowsAt now' base csc :=
  let ⟨i, hi, hshows⟩ := h
  ⟨i, hi.trans hle, hshows⟩

theorem Counts.mono (h : run.Counts now base n) (hle : now ≤ now') : run.Counts now' base n :=
  let ⟨csc, hshows, hcount⟩ := h
  ⟨csc, hshows.mono hle, hcount⟩

theorem Generation.mono (h : run.Generation now generation) (hle : now ≤ now') :
    run.Generation now' generation :=
  { h with counts := h.counts.mono hle }

theorem Payload.mono (h : run.Payload now payload) (hle : now ≤ now') : run.Payload now' payload :=
  { h with encodes :=
      let ⟨base, walId, csc, hshows, hpayload⟩ := h.encodes
      ⟨base, walId, csc, hshows.mono hle, hpayload⟩ }

theorem ShowsAt.base_lt (h : run.ShowsAt now base csc) : base < u64Bound := by
  obtain ⟨i, -, rfl, -⟩ := h
  exact Nat.lt_of_succ_lt (run.reachable i).ok.bound

/-- Whatever payload is read for a generation, what it decodes to shows the generation's base. -/
theorem Payload.shows (h : run.Payload now payload)
    (hcsc : graphIndexCsc storePath generation (some payload) = .ok (some csc)) :
    run.ShowsAt now generation.baseSequence csc := by
  obtain ⟨csc₁, hdecode, hcsc⟩ := bind_ok hcsc
  obtain ⟨-, hcsc⟩ := else_of_ne hcsc nofun
  cases hcsc
  obtain ⟨base, walId, csc', hshows, hpayload⟩ := h.encodes
  have hdecoded := (decodeGraphIndexCsc_eq_ok_iff h.fits).1 hdecode
  obtain ⟨hbase, hwal, hsum⟩ := encodeGraphIndexCsc_header hshows.base_lt hdecoded.1
    (hpayload.symm.trans hdecoded.2.2.2)
  obtain ⟨i, hi, hseq, a, hcompact, represents, hedges⟩ := hshows
  have hdecode' : decodeGraphIndexCsc (generation.path storePath) payload base walId
      (graphblasCscChecksum csc') = .ok csc' :=
    (decodeGraphIndexCsc_eq_ok_iff h.fits).2 ⟨hbase ▸ hdecoded.1, represents.formed, rfl, hpayload⟩
  rw [hbase, hwal, hsum] at hdecode'
  cases hdecode'.symm.trans hdecode
  exact ⟨i, hi, hseq.trans hbase, a, hcompact, represents, hedges⟩

variable (digest : ∀ bytes, (sha256Hex bytes).toList.length = 64 ∧
  (sha256Hex bytes).toList.all isHexDigit = true)

include digest in
/-- The end of both builds, for an adjacency with the edges of the state. -/
theorem Builds.shows (builds : run.Builds now i limits lastWalId payload)
    (hcell : validateComponent "cell_id" t.cellId = .ok ())
    (htype : validateComponent "edge_type" t.edgeType = .ok ()) (hcompact : a.Compact)
    (hedges : ∀ u v, a.HasEdge u v ↔ VisibleEdge (run.cell i).topology t.edgeType u v)
    (hencode : encodeGeneration sha256Hex limits t.cellId t.edgeType (run.sequence i) lastWalId a =
      .ok (generation, payload)) :
    run.Generation now generation ∧ run.Payload now payload := by
  have hbase := Nat.lt_of_succ_lt (run.reachable i).ok.bound
  have valid := GraphIndexGeneration.valid_of_encodeGeneration digest hcell htype hbase
    builds.limit hencode
  obtain ⟨csc, hcsc, hpayload, rfl⟩ := encodeGeneration_ok hencode
  have hshows : run.ShowsAt now (run.sequence i) csc :=
    ⟨i, builds.le, rfl, a, hcompact, GraphBlasCsc.graphblasCscFromAdjacency_ok hcsc, hedges⟩
  exact ⟨⟨valid.1, rfl, rfl, builds.after, csc, hshows, rfl⟩,
    builds.fits, _, _, csc, hshows, hpayload⟩

variable (trusted : g.trusted = true) (huncapped : g.uncapped = true)

include digest trusted huncapped in
/-- What a build makes shows the state it was made of. -/
theorem Made.shows (h : run.Made sha256Hex now generation payload) :
    run.Generation now generation ∧ run.Payload now payload := by
  induction h with
  | full builds build =>
    obtain ⟨hcell, htype, a, ha, hencode⟩ := buildGraphIndex_ok build
    obtain ⟨hcompact, hedges⟩ := canonicalAdjacencyAt_ok (run.cellOk _).adjacency.bounded ha
    exact builds.shows digest hcell htype hcompact hedges hencode
  | @incremental i _ _ _ _ _ _ _ _ builds read build ih =>
    obtain ⟨hcell, htype, hlt, overlay, csc, a, hdelta, hcsc, ha, hencode⟩ :=
      buildGraphIndexIncremental_built build
    -- the stored matrix shows the base of the previous generation, and the delta goes from there
    obtain ⟨j, -, hseq, a', hcompact, represents, hedges⟩ := ih.2.shows hcsc
    cases (GraphBlasCsc.toAdjacency_eq represents hcompact).symm.trans ha
    rw [← hseq] at hlt hdelta
    have hle : j ≤ i := le_of_not_gt fun hgt => absurd (run.visible_at hgt.le).1 (not_le.2 hlt)
    have hvisible := (run.reachable j).ok.visible_of_delta trusted huncapped (run.reaches hle)
      hdelta
    refine builds.shows digest hcell htype
      (MatrixAdjacency.compact_patch hcompact) (fun u v => ?_) hencode
    rw [MatrixAdjacency.hasEdge_patch, hedges]
    exact (hvisible u v).symm

/-! ## Views of an index -/

/-- What a view has is what was built. -/
structure Holds (run : StoreRun g t.cellId) (now : Nat) (view : IndexView) : Prop where
  manifest : ∀ text, view.objects.manifest = some text →
    ∃ generation, run.Generation now generation ∧ text = encodeGraphIndexManifest generation
  payloads : ∀ path payload, view.objects.payloads.get path = some payload → run.Payload now payload
  images : ∀ base csc, view.images.get base = some csc → run.ShowsAt now base csc
  generations : ∀ base generation, view.generations.get base = some generation →
    run.Generation now generation ∧ generation.baseSequence = base
  artifacts : ∀ base count, view.artifacts.get base = some count → run.Counts now base count
  matrices : ∀ base m, view.matrices.get base = some m → run.ShowsAt now base m.csc

namespace Holds

theorem mono (h : Holds run now view) (hle : now ≤ now') : Holds run now' view where
  manifest text htext :=
    let ⟨generation, hgeneration, heq⟩ := h.manifest text htext
    ⟨generation, hgeneration.mono hle, heq⟩
  payloads path payload hget := (h.payloads path payload hget).mono hle
  images base csc hget := (h.images base csc hget).mono hle
  generations base generation hget := (h.generations base generation hget).imp_left (·.mono hle)
  artifacts base count hget := (h.artifacts base count hget).mono hle
  matrices base m hget := (h.matrices base m hget).mono hle

theorem within (h : Holds run now view) (hwithin : Within view' view) : Holds run now view' where
  manifest text htext := h.manifest text (hwithin.manifest ▸ htext)
  payloads path payload hget := h.payloads path payload (hwithin.payloads path payload hget)
  images base csc hget := h.images base csc (hwithin.images base csc hget)
  generations base generation hget :=
    h.generations base generation (hwithin.generations base generation hget)
  artifacts base count hget := h.artifacts base count (hwithin.artifacts base count hget)
  matrices base m hget := h.matrices base m (hwithin.matrices base m hget)

theorem learn (h : Holds run now view) (hgeneration : run.Generation now generation) :
    Holds run now (view.learn generation) :=
  { h with
    generations := forall_get_put h.generations ⟨hgeneration, rfl⟩
    artifacts := forall_get_put h.artifacts hgeneration.counts }

theorem forget (h : Holds run now view) : Holds run now (view.forget generation) :=
  h.within ⟨rfl, fun _ _ => id, fun _ _ => id, within_del, fun _ _ => id, within_del⟩

/-- The published generation was built. -/
theorem currentGraphIndex_ok (h : Holds run now view)
    (hcurrent : currentGraphIndex t view.objects.manifest = .ok (some generation)) :
    run.Generation now generation := by
  cases htext : view.objects.manifest with
  | none =>
    rw [htext] at hcurrent
    cases hcurrent
  | some text =>
    obtain ⟨generation', hgeneration, rfl⟩ := h.manifest text htext
    rw [htext, currentGraphIndex_encode hgeneration.valid hgeneration.cellId hgeneration.edgeType]
      at hcurrent
    cases hcurrent
    exact hgeneration

end Holds

section

open Request

theorem keeps_discoverGraphIndex : Keeps (Holds run now) (discoverGraphIndex t) fun o =>
    ∀ generation ∈ o, run.Generation now generation := by
  refine keeps_bind keeps_get fun view hview => keeps_bind
    (Q := fun o => ∀ generation ∈ o, run.Generation now generation)
    (keeps_ofExcept fun o ho generation hsome => ?_) fun o ho => ?_
  · subst hsome
    exact hview.currentGraphIndex_ok ho
  · cases o with
    | none => exact keeps_pure nofun
    | some generation =>
      exact keeps_bind (keeps_modify fun _ hview => hview.learn (ho generation rfl)) fun _ _ =>
        keeps_pure ho

theorem keeps_graphIndexGenerationAt :
    Keeps (Holds run now) (graphIndexGenerationAt t base) fun o => ∀ generation ∈ o,
      run.Generation now generation ∧ generation.baseSequence = base := by
  refine keeps_bind keeps_get fun view hview => ?_
  split
  · next generation hget =>
    exact keeps_pure fun _ hsome => Option.some.inj hsome ▸ hview.generations base generation hget
  · refine keeps_bind keeps_discoverGraphIndex fun o ho => keeps_pure fun generation hsome => ?_
    obtain ⟨hsome, hbase⟩ := Option.filter_eq_some_iff.1 hsome
    exact ⟨ho generation hsome, of_decide_eq_true hbase⟩

/-- An artifact has a base that was shown, and the size of its matrix. -/
theorem keeps_latestMatrixArtifact (readEpoch : StorageSequence) :
    Keeps (Holds run now) (latestMatrixArtifact t readEpoch) fun o =>
      ∀ artifact ∈ o, run.Counts now artifact.1 artifact.2 := by
  refine keeps_bind keeps_get fun view hview => ?_
  split
  · next artifact hlast =>
    refine keeps_pure fun _ hsome => ?_
    cases hsome
    exact hview.artifacts _ _ (mem_entries.1 (List.mem_of_mem_filter (List.mem_of_getLast? hlast)))
  refine keeps_bind keeps_discoverGraphIndex fun o ho => ?_
  split
  · next generation hsome =>
    refine keeps_pure fun _ hsome' => ?_
    cases hsome'
    exact (ho generation (Option.filter_eq_some_iff.1 hsome).1).counts
  -- the images of the shard are decoded, and noted as artifacts
  refine keeps_bind keeps_get fun view hview => ?_
  have hdecoded : ∀ artifact ∈ view.images.entries.map fun image =>
      (image.1, image.2.indices.length), run.Counts now artifact.1 artifact.2 := by
    intro artifact hmem
    obtain ⟨image, himage, rfl⟩ := List.mem_map.1 hmem
    exact ⟨image.2, hview.images _ _ (mem_entries.1 himage), rfl⟩
  refine keeps_bind (keeps_modify fun view' hview' => { hview' with artifacts := ?_ }) fun _ _ =>
    keeps_pure fun artifact hsome => ?_
  · exact List.foldl_invariant (P := fun artifacts : OrdMap StorageSequence Nat =>
      ∀ base count, artifacts.get base = some count → run.Counts now base count)
      hview'.artifacts fun artifact hmem _ ih => forall_get_put ih (hdecoded artifact hmem)
  · exact hdecoded artifact (List.mem_of_mem_filter (List.mem_of_getLast? hsome))

/-- A matrix without entries shows a state without edges. -/
theorem ShowsAt.of_empty (h : run.ShowsAt now base csc) (hempty : csc.indices.length = 0)
    (hcsc : graphblasCscFromAdjacency ∅ = .ok csc') : run.ShowsAt now base csc' := by
  obtain ⟨i, hi, hseq, a, -, represents, hedges⟩ := h
  refine ⟨i, hi, hseq, ∅, nofun, GraphBlasCsc.graphblasCscFromAdjacency_ok hcsc, fun u v => ?_⟩
  rw [← hedges, ← represents.edge_iff]
  refine iff_of_false (fun ⟨_, hget, _⟩ => nomatch hget) fun hedge => ?_
  rw [GraphBlasCsc.Edge, GraphBlasCsc.containsEdge] at hedge
  split at hedge
  · rw [GraphBlasCsc.neighbors, List.length_eq_zero_iff.1 hempty] at hedge
    simp at hedge
  · cases hedge

theorem keeps_imageCsc : Keeps (Holds run now) (imageCsc t base) (run.ShowsAt now base) := by
  refine keeps_bind keeps_get fun view hview => ?_
  split
  · next csc hget => exact keeps_pure (hview.images base csc hget)
  refine keeps_bind (keeps_latestMatrixArtifact base) fun o ho => ?_
  split
  · exact keeps_throw
  next artifact hsome =>
  split
  · exact keeps_throw
  · next hcount =>
    obtain ⟨hsome, hbase⟩ := Option.filter_eq_some_iff.1 hsome
    obtain ⟨csc, hshows, hlength⟩ := ho artifact hsome
    rw [of_decide_eq_true hbase] at hshows
    exact keeps_ofExcept fun _ => hshows.of_empty (hlength.trans (not_not.1 hcount))

theorem keeps_compileMatrix (hshows : run.ShowsAt now base csc) :
    Keeps (Holds run now) (compileMatrix kernel base csc) fun o =>
      ∀ m ∈ o, run.ShowsAt now base m.csc := by
  refine keeps_bind (Q := fun m => m.csc = csc) (keeps_ofExcept fun m hm => ?_) fun m hm => ?_
  · unfold CompiledGraphBlasMatrix.newFromCsc at hm
    split at hm
    · cases hm
    · cases hm
      rfl
  · rw [← hm] at hshows
    refine keeps_bind (keeps_modify fun view hview => ?_) fun _ _ =>
      keeps_pure fun _ hsome => Option.some.inj hsome ▸ hshows
    exact { hview with matrices := forall_get_put hview.matrices hshows }

/-- A cached matrix shows the state at its base. -/
theorem keeps_cachedGraphblasMatrix :
    Keeps (Holds run now) (cachedGraphblasMatrix kernel t base) fun o =>
      ∀ m ∈ o, run.ShowsAt now base m.csc := by
  unfold cachedGraphblasMatrix
  split
  · exact keeps_pure nofun
  refine keeps_bind keeps_get fun view hview => ?_
  split
  · next m hget =>
    exact keeps_pure fun _ hsome => Option.some.inj hsome ▸ hview.matrices base m hget
  refine keeps_bind keeps_graphIndexGenerationAt fun o ho => ?_
  cases o with
  | none => exact keeps_bind keeps_imageCsc fun csc hshows => keeps_compileMatrix hshows
  | some generation =>
    refine keeps_bind keeps_get fun view hview => keeps_bind
      (Q := fun o => ∀ csc ∈ o, run.ShowsAt now base csc)
      (keeps_ofExcept fun o hcsc csc hsome => ?_) fun o hshows => ?_
    · subst hsome
      rw [← (ho generation rfl).2]
      cases hget : view.objects.payloads.get (generation.path t.storePath) with
      | none =>
        rw [hget] at hcsc
        cases hcsc
      | some payload =>
        rw [hget] at hcsc
        exact (hview.payloads _ payload hget).shows hcsc
    · cases o with
      | none =>
        exact keeps_bind (keeps_modify fun _ hview => hview.forget) fun _ _ => keeps_pure nofun
      | some csc => exact keeps_compileMatrix (hshows csc rfl)

end

/-! ## The answer -/

/-- A request for the state now answers nothing, or a snapshot with the edges of the state. -/
def Answers (run : StoreRun g t.cellId) (now : Nat) (env : SnapshotEnv)
    (readEpoch : StorageSequence) (o : Option CompiledSnapshot) : Prop :=
  run.Reads now env → readEpoch = run.sequence now →
    ∀ snapshot, o = some snapshot → snapshot.Shows (run.cell now).topology t.edgeType

/-- A matrix and an overlay that has what changed since the matrix. -/
theorem ShowsAt.snapshot (h : run.ShowsAt now base m.csc)
    (hchanges : ∀ i ≤ now, run.sequence i = base → ∀ u v,
      (overlay.bind fun o => o.state u v).elim
        (VisibleEdge (run.cell i).topology t.edgeType u v) (· = true) ↔
      VisibleEdge (run.cell now).topology t.edgeType u v) :
    CompiledSnapshot.Shows (m, overlay) (run.cell now).topology t.edgeType := by
  obtain ⟨i, hi, hseq, a, -, represents, hedges⟩ := h
  refine fun u v => Iff.trans ?_ (hchanges i hi hseq u v)
  rw [CompiledSnapshot.contains]
  cases overlay.bind fun o => o.state u v with
  | none => exact represents.edge_iff.trans (hedges u v)
  | some present => exact Iff.rfl

/-- A complete tail has every edge that changed since the base of its generation. -/
theorem elim_tail (hgeneration : run.Generation now generation) (reads : run.Reads now env)
    (htail : topologyTailSince limits generation (run.sequence now) env.cell.topology
      (run.sequence now) env.lastDurableWalId env.wal = .ok (.complete overlay))
    (hi : i ≤ now) (hseq : run.sequence i = generation.baseSequence) (u v : VertexId) :
    (overlay.state u v).elim (VisibleEdge (run.cell i).topology t.edgeType u v) (· = true) ↔
      VisibleEdge (run.cell now).topology t.edgeType u v := by
  rw [reads.cell] at htail
  obtain ⟨hstate, hnamed⟩ := topologyTailSince_ok (run.cellOk now).adjacency.bounded htail
  rw [hgeneration.edgeType] at hstate hnamed
  cases hsome : overlay.state u v with
  | some present => exact hstate u v present hsome
  | none =>
    refine (((run.visible_at hi).2 ⟨t.edgeType, u, v⟩).resolve_right ?_).symm
    rintro ⟨n, hlt, hle, w, hw, hk⟩
    rw [hseq] at hlt
    exact hnamed (run.file n) ⟨t.cellId, n, w⟩ (hgeneration.after n hlt) (reads.durable n hle)
      (reads.wal n hle w hw) hlt hle hgeneration.cellId.symm _ hk rfl hsome

section

open Request

variable {env : SnapshotEnv} {readEpoch : StorageSequence}

theorem keeps_newerGraphIndex :
    Keeps (Holds run now) (newerGraphIndex t readEpoch generation) fun o =>
      ∀ latest ∈ o, run.Generation now latest := by
  refine keeps_bind keeps_discoverGraphIndex fun o ho => keeps_pure fun latest hsome => ?_
  exact ho latest (Option.filter_eq_some_iff.1 hsome).1

theorem keeps_compiledAttempt (hsnapshot : env.snapshotSequence = readEpoch)
    (hretry : ∀ f, retry = some f → ∀ latest, run.Generation now latest →
      Keeps (Holds run now) (f latest) (run.Answers now env readEpoch))
    (hgeneration : run.Generation now generation) :
    Keeps (Holds run now) (compiledAttempt env t readEpoch retry generation)
      (run.Answers now env readEpoch) := by
  refine keeps_bind keeps_cachedGraphblasMatrix fun o ho => ?_
  cases o with
  | none =>
    dsimp only
    split
    · exact keeps_pure fun _ _ => nofun
    next f =>
    refine keeps_bind keeps_newerGraphIndex fun o ho => ?_
    cases o with
    | none => exact keeps_pure fun _ _ => nofun
    | some latest => exact hretry f rfl latest (ho latest rfl)
  | some m =>
    have hshows := ho m rfl
    dsimp only
    split
    · -- the matrix is not older than the read
      next hbase =>
      refine keeps_pure fun reads hread _ hsome => Option.some.inj hsome ▸ hshows.snapshot ?_
      intro i hi hseq u v
      have hle := (run.visible_at hi).1
      exact (run.visible_of_sequence_eq hi (le_antisymm hle (hread ▸ hseq ▸ hbase))
        ⟨t.edgeType, u, v⟩).symm
    split
    · next overlay htail =>
      refine keeps_pure fun reads hread _ hsome => Option.some.inj hsome ▸ hshows.snapshot ?_
      rw [hsnapshot, hread] at htail
      exact fun i hi hseq => elim_tail hgeneration reads htail hi hseq
    · exact keeps_pure fun _ _ => nofun
    · split
      · exact keeps_throw
      next f hf =>
      refine keeps_bind keeps_newerGraphIndex fun o ho => ?_
      cases o with
      | none => exact keeps_throw
      | some latest => exact hretry f (Option.filter_eq_some_iff.1 hf).1 latest (ho latest rfl)

/-- A compiled snapshot has the edges that are visible at the read. -/
theorem keeps_compiledGraphblasQuerySnapshot (huncapped : g.uncapped = true)
    (base : StorageSequence) :
    Keeps (Holds run now) (compiledGraphblasQuerySnapshot env t readEpoch base)
      (run.Answers now env readEpoch) := by
  refine keeps_bind keeps_graphIndexGenerationAt fun o ho => ?_
  cases o with
  | some generation =>
    dsimp only
    split
    · exact keeps_pure fun _ _ => nofun
    · next hsnapshot =>
      refine keeps_compiledAttempt (not_not.1 hsnapshot) ?_ (ho generation rfl).1
      intro f hf latest hlatest
      cases hf
      exact keeps_compiledAttempt (not_not.1 hsnapshot) nofun hlatest
  | none =>
    dsimp only
    split
    · exact keeps_pure fun _ _ => nofun
    · next hcurrent =>
      refine keeps_bind keeps_cachedGraphblasMatrix fun o hm => keeps_pure ?_
      intro reads hread snapshot hsome
      obtain ⟨m, rfl, rfl⟩ := Option.map_eq_some_iff.1 hsome
      refine (hm m rfl).snapshot fun i hi hseq u v => Iff.symm ?_
      rw [reads.cell, hread, ← hseq, not_and, not_or] at hcurrent
      by_cases hlt : run.sequence i < run.sequence now
      · exact run.visible_of_generation huncapped hi (Nat.not_lt.1 (hcurrent hlt).2)
      · exact run.visible_of_sequence_eq hi (le_antisymm (run.visible_at hi).1 (Nat.not_lt.1 hlt))
          ⟨t.edgeType, u, v⟩

end

/-- Every view holds what was built. -/
theorem Served.holds (trusted : g.trusted = true) (huncapped : g.uncapped = true)
    (digest : ∀ bytes, (sha256Hex bytes).toList.length = 64 ∧
      (sha256Hex bytes).toList.all isHexDigit = true)
    (h : run.Served sha256Hex now view) : Holds run now view := by
  induction h with
  | empty => exact ⟨nofun, nofun, nofun, nofun, nofun, nofun⟩
  | later h ih => exact ih.mono (Nat.le_succ _)
  | putPayload h made ih =>
    have hpayload := (made.shows digest trusted huncapped).2
    exact { ih with payloads := forall_get_put ih.payloads hpayload }
  | putManifest h made ih =>
    have hgeneration := (made.shows digest trusted huncapped).1
    exact { ih with manifest := fun text htext => ⟨_, hgeneration, (Option.some.inj htext).symm⟩ }
  | learn h made ih => exact ih.learn (made.shows digest trusted huncapped).1
  | image h hi read compressed ih =>
    obtain ⟨hcompact, hedges⟩ := canonicalAdjacencyAt_ok (run.cellOk _).adjacency.bounded read
    have represents := GraphBlasCsc.graphblasCscFromAdjacency_ok compressed
    exact { ih with
      images := forall_get_put ih.images ⟨_, hi, rfl, _, hcompact, represents, hedges⟩ }
  | lose h within ih => exact ih.within within
  | artifact h readEpoch ih => exact (keeps_latestMatrixArtifact readEpoch _ ih).1
  | compiled h env readEpoch base ih =>
    exact (keeps_compiledGraphblasQuerySnapshot huncapped base _ ih).1

end StoreRun

end HydraDb
