import HydraDb.System.Snapshot
import Mathlib.Data.Finset.Lattice.Fold

/-!
# Reachability across runs

Whichever view a process has of the index, and whichever kernel is asked for, a reachability request
answers what is within the hops of its starts and not a start; except that the search from storage
finds the only start again if a walk leads back to it (`matrixReachableWithKernel_iff`).
-/

namespace HydraDb

open Publication (Target sampleTarget sampleDigest sampleDigest_hex)
open GraphBlasCsc (Mxv)

variable {g : Regime} {t : Target} {now : Nat}

/-- A view of no generation and one image. -/
def IndexView.ofImage (base : StorageSequence) (csc : GraphBlasCsc) : IndexView :=
  { (∅ : IndexView) with images := (∅ : OrdMap StorageSequence GraphBlasCsc).put base csc }

/-- The image is of the empty state. -/
def firstImage : IndexView := .ofImage 0 ⟨[], [0], []⟩

section

variable (run : StoreRun g t.cellId) (sha256Hex : List UInt8 → String)

theorem StoreRun.served_ofImage (hi : i ≤ now) (csc : GraphBlasCsc)
    (image : (canonicalAdjacencyAt .default (run.cell i).topology t.edgeType (run.sequence i) >>=
      graphblasCscFromAdjacency) = .ok csc) :
    run.Served sha256Hex now (.ofImage (run.sequence i) csc) := by
  obtain ⟨a, read, compressed⟩ := bind_ok image
  exact (run.served_empty sha256Hex now).image hi read compressed

theorem StoreRun.served_firstImage (now : Nat) : run.Served sha256Hex now firstImage := by
  have hview := run.served_ofImage sha256Hex (Nat.zero_le now) ⟨[], [0], []⟩
  rw [cell, sequence, run.initial] at hview
  exact hview rfl

end

/-- The view after a request has looked for an artifact. -/
def firstImageNoted : IndexView :=
  { firstImage with artifacts := (∅ : OrdMap StorageSequence Nat).put 0 0 }

/-- An image of the empty state does not serve a state with a commit: the search is from storage. -/
theorem perform_firstImage {mxv : Mxv} {env : SnapshotEnv}
    (hpolicy : env.policyKernel = .compactCsc) (hvalid : validateReachable env t hops = .ok ())
    (hpos : 0 < e)
    (hsearch : reachableFromStorageFrontier env.limits env.cell.topology t.edgeType s 1 hops e =
      .ok traversal) :
    (matrixReachableWithKernel mxv env t [s] hops e .compactCsc).perform firstImage =
      (.ok ⟨.directSnapshot, traversal.vertices, hops, 0, traversal.edgeVisits, traversal.backend⟩,
        firstImageNoted) := by
  have hchecked : (Request.ofExcept (validateReachable env t hops)).perform firstImage =
      (.ok (), firstImage) := by
    rw [hvalid]
    rfl
  have hartifact : (latestMatrixArtifact t e).perform firstImage =
    (.ok (some (0, 0)), firstImageNoted) := rfl
  have hdiscovered : (graphIndexGenerationAt t 0).perform firstImageNoted =
    (.ok none, firstImageNoted) := rfl
  have hcompiled : (compiledGraphblasQuerySnapshot env t e 0).perform firstImageNoted =
      (.ok none, firstImageNoted) := by
    refine (Request.perform_bind_ok hdiscovered).trans ?_
    have hstale : 0 < e ∧ (env.cell.changelog.adjacencyGeneration.count t.edgeType = 0 ∨
        env.cell.changelog.adjacencyGeneration.count t.edgeType > 0) :=
      ⟨hpos, Nat.eq_zero_or_pos _⟩
    dsimp only
    rw [if_pos hstale]
    rfl
  have hserved : (serveReachable mxv env t [s] hops e .compactCsc (some (0, 0))).perform
      firstImageNoted = (.ok (.directSnapshot, traversal), firstImageNoted) := by
    refine (Request.perform_bind_ok hcompiled).trans ?_
    dsimp only
    rw [fallbackReachable, hsearch]
    rfl
  rw [matrixReachableWithKernel]
  refine (Request.perform_bind_ok hchecked).trans ((Request.perform_bind_ok hartifact).trans ?_)
  rw [if_neg (by rw [hpolicy]; decide)]
  exact Request.perform_bind_ok hserved

/-- Whichever way a request is served, the answer is what it asks for, except when a walk of the
hops comes back to the only start. -/
theorem matrixReachableWithKernel_iff {reverseIndex : Bool}
    (run : StoreRun ⟨reverseIndex, true, false, true⟩ t.cellId) {sha256Hex : List UInt8 → String}
    (digest : ∀ bytes, (sha256Hex bytes).toList.length = 64 ∧
      (sha256Hex bytes).toList.all isHexDigit = true)
    (hcell : validateComponent "cell_id" t.cellId = .ok ())
    (htype : validateComponent "edge_type" t.edgeType = .ok ()) (now : Nat)
    (starts : List VertexId) (hops : UInt8) :
    (∀ mxv env kernel view r, mxv.Standard → run.Reads now env → run.Served sha256Hex now view →
      ((matrixReachableWithKernel mxv env t starts hops (run.sequence now) kernel).perform view).1 =
        .ok r →
      Lists r.vertices (reachableSet (run.cell now).topology t.edgeType starts hops)) ↔
    ¬ ∃ s, starts = [s] ∧ ∃ k, 1 ≤ k ∧ k ≤ hops.toNat ∧
      Walk.Path (VisibleEdge (run.cell now).topology t.edgeType) k s s := by
  have bounded := (run.cellOk now).adjacency.bounded
  constructor
  · rintro h ⟨s, rfl, k, hk, hn, hpath⟩
    -- the only artifact is an image of the empty state, and the limits are out of reach
    let env : SnapshotEnv := ⟨⟨⟨0, 0, 2 ^ 64, 2 ^ 64, 0⟩, 2 ^ 64, 2 ^ 64⟩, .compactCsc,
      run.cell now, run.sequence now, (Finset.range (run.sequence now + 1)).sup run.file,
      fun _ => none⟩
    have reads : run.Reads now env :=
      ⟨rfl, fun n hn => Finset.le_sup (Finset.mem_range_succ_iff.2 hn), by simp [env]⟩
    obtain ⟨r, hr⟩ : ∃ r, reachableFromStorageFrontier env.limits (run.cell now).topology t.edgeType
        s 1 hops (run.sequence now) = .ok r :=
      reachableFromStorageFrontier_isOk (le_refl _) (le_refl _) (le_refl _)
    have hvalid : validateReachable env t hops = .ok () := by
      rw [validateReachable, hcell, htype]
      have hle : (2 : Nat) ^ 8 ≤ 2 ^ 64 := by decide
      exact ensureLimit_ok (hops.toNat_lt.le.trans hle)
    have hpos : 0 < run.sequence now := Nat.pos_of_ne_zero fun hzero => by
      have hempty := (run.cellOk now).fresh hzero
      cases hpath with
      | refl => omega
      | step _ hedge =>
        rw [hempty] at hedge
        exact Topology.not_visible_empty hedge
    have hlists := h setMxv env .compactCsc firstImage _ standard_setMxv reads
      (run.served_firstImage sha256Hex now)
      (congrArg Prod.fst (perform_firstImage rfl hvalid hpos hr))
    have hfound : s ∈ r.vertices := ((reachableFromStorageFrontier_lists bounded (by decide) hr).2
      s).2 ⟨k, hk, hn, Walk.mem_layer_singleton.2 hpath⟩
    exact ((hlists.2 s).1 hfound).1 (List.mem_singleton_self s)
  · intro hreturn mxv env kernel view r standard reads served hr
    rw [← reads.cell] at bounded hreturn ⊢
    have artifact : Request.Keeps (run.Holds now) (latestMatrixArtifact t (run.sequence now))
        fun _ => True := fun view hview =>
      ⟨(StoreRun.keeps_latestMatrixArtifact _ view hview).1, fun _ _ => trivial⟩
    have compiled : ∀ base, Request.Keeps (run.Holds now)
        (compiledGraphblasQuerySnapshot env t (run.sequence now) base) fun o =>
          ∀ snapshot, o = some snapshot → snapshot.Shows env.cell.topology t.edgeType := by
      intro base view hview
      obtain ⟨hview, hanswer⟩ := StoreRun.keeps_compiledGraphblasQuerySnapshot rfl base view hview
      exact ⟨hview, fun o ho => reads.cell ▸ hanswer o ho reads rfl⟩
    exact (keeps_matrixReachableWithKernel standard bounded hreturn artifact compiled view
      (served.holds rfl rfl digest)).2 r hr

/-- A run of one write, of an edge from the vertex 1. -/
def oneEdgeRun : StoreRun ⟨false, true, false, true⟩ sampleTarget.cellId :=
  .ofEvents [.mutate (smallEnv false) (.writeEdge ⟨"c", "T", 1, 2, "k"⟩)]
    (fun _ => [.putEdge ⟨"T", 1, 2⟩]) ⟨Event.Plain.allows rfl, trivial⟩ (by decide +kernel)

/-- What a request reads after it. -/
def oneEdgeEnv : SnapshotEnv :=
  ⟨generousLimits, .suiteSparse, oneEdgeRun.cell 1, 1, 1, fun _ => none⟩

/-- The image of the state after the write. -/
def oneEdgeImage : IndexView := .ofImage 1 ⟨[1, 2], [0, 1, 1], [1]⟩

/-- The request is served by the matrix of the image. -/
theorem matrixReachableWithKernel_iff_oneEdge :
    ∃ r, ((matrixReachableWithKernel setMxv oneEdgeEnv sampleTarget [1] 2 1 .suiteSparse).perform
        oneEdgeImage).1 = .ok r ∧ r.backend = .matrixSnapshot ∧ r.vertices = [2] ∧
      Lists r.vertices (reachableSet (oneEdgeRun.cell 1).topology "T" [1] 2) := by
  have hcell : validateComponent "cell_id" sampleTarget.cellId = .ok () := by decide +kernel
  have htype : validateComponent "edge_type" sampleTarget.edgeType = .ok () := by decide +kernel
  have hstore : oneEdgeStore.SameAdjacency (oneEdgeRun.cell 1).topology := by decide +kernel
  have hreturn : ¬ ∃ s, [1] = [s] ∧ ∃ k, 1 ≤ k ∧ k ≤ (2 : UInt8).toNat ∧
      Walk.Path (VisibleEdge (oneEdgeRun.cell 1).topology "T") k s s := by
    rintro ⟨s, hs, k, hk, -, hpath⟩
    cases hpath with
    | refl => omega
    | step _ hedge =>
      obtain rfl := (List.cons.inj hs).1
      exact absurd (visibleEdge_oneEdgeStore.1 ((hstore.visible _).2 hedge)).2 (by decide)
  have served := oneEdgeRun.served_ofImage (fun _ => sampleDigest) (le_refl 1)
    ⟨[1, 2], [0, 1, 1], [1]⟩ (by decide +kernel)
  have hanswer : ((matrixReachableWithKernel setMxv oneEdgeEnv sampleTarget [1] 2 1
      .suiteSparse).perform oneEdgeImage).1 = .ok ⟨.matrixSnapshot, [2], 2, 1, 1, .suiteSparse⟩ :=
    by decide +kernel
  exact ⟨_, hanswer, rfl, rfl, (matrixReachableWithKernel_iff oneEdgeRun (fun _ => sampleDigest_hex)
    hcell htype 1 [1] 2).2 hreturn setMxv oneEdgeEnv .suiteSparse oneEdgeImage _ standard_setMxv
      ⟨rfl, fun _ hn => hn, nofun⟩ served hanswer⟩

/-- A run that writes a self loop. -/
def selfLoopRun : StoreRun ⟨false, true, false, true⟩ sampleTarget.cellId :=
  .ofEvents [.mutate (smallEnv false) (.writeEdge ⟨"c", "T", 1, 1, "k"⟩)]
    (fun _ => [.putEdge ⟨"T", 1, 1⟩]) ⟨Event.Plain.allows rfl, trivial⟩ (by decide +kernel)

/-- What a request reads after it. -/
def selfLoopEnv : SnapshotEnv :=
  ⟨generousLimits, .compactCsc, selfLoopRun.cell 1, 1, 1, fun _ => none⟩

/-- With an image that the write has made stale, a request from the vertex of a self loop answers
that vertex; without an image it does not. -/
theorem matrixReachableWithKernel_ne_of_self_loop :
    selfLoopRun.Reads 1 selfLoopEnv ∧
      (selfLoopRun.Served (fun _ => sampleDigest) 1 firstImage ∧
        ∃ r, ((matrixReachableWithKernel setMxv selfLoopEnv sampleTarget [1] 1 1
          .compactCsc).perform firstImage).1 = .ok r ∧ r.vertices = [1]) ∧
      (selfLoopRun.Served (fun _ => sampleDigest) 1 ∅ ∧
        ∃ r, ((matrixReachableWithKernel setMxv selfLoopEnv sampleTarget [1] 1 1
          .compactCsc).perform ∅).1 = .ok r ∧ r.vertices = []) ∧
      1 ∉ reachableSet (selfLoopRun.cell 1).topology "T" [1] 1 := by
  refine ⟨⟨rfl, fun n hn => hn, nofun⟩, ⟨selfLoopRun.served_firstImage _ 1,
    ⟨.directSnapshot, [1], 1, 0, 1, .adjacency⟩, ?_, rfl⟩, ⟨selfLoopRun.served_empty _ 1,
    ⟨.matrixSnapshot, [], 1, 0, 1, .compactCsc⟩, ?_, rfl⟩,
    fun h => h.1 (List.mem_singleton_self 1)⟩
  · decide +kernel
  · decide +kernel

end HydraDb
