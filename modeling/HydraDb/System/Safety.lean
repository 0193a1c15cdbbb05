import HydraDb.System.Invariant

/-!
# Safety of the store

What the invariant of the store says about every reachable state, in terms of the keys of a cell:
the adjacency keys and the degree counters agree, the relationship tables agree with each other and
with the edges, and the ends of an edge have records. Each result names the contracts it rests on
and holds whatever the other contracts do. Short runs on a small graph show that the conditions can
be met, and what goes wrong without them.
-/

namespace HydraDb

variable {reverseIndex : Bool} {s : Sys}

variable {g : Regime}

/-! ## Small runs -/

/-- A shard with the default limits whose cache knows no low-water mark. -/
def smallEnv (reverseIndex : Bool) : WriteEnv :=
  ⟨reverseIndex, fun _ _ => false, .default, fun a b => a = b⟩

/-- A list of events that no condition restrains beyond the policy. -/
def Event.Plain (reverseIndex : Bool) : Event → Prop
  | .mutate env (.writeEdge _) | .mutate env (.deleteEdge _)
  | .mutate env (.appendOutSegment _ _ _ _ _) | .prepareDelete env _ _ | .commitDelete env _ =>
    env.reverseIndex = reverseIndex
  | _ => False

theorem Event.Plain.allows (h : e.Plain g.reverseIndex) : g.Allows s e := by
  unfold Event.Plain at h
  split at h
  case h_6 => exact h.elim
  all_goals exact ⟨h, trivial, fun _ => trivial, fun _ => trivial, fun _ => trivial⟩

/-! ## Adjacency and degrees -/

/-- In every reachable state, whatever the index policy, the out-degree of a source is the number
of destinations visible from it and no edge is stored in both forms; with a reverse index its keys
mirror the direct keys and the in-degree of a vertex is the number of its reverse keys. An import
that makes no existence check must have been given absent edges. -/
theorem adjacency_of_reachable (h : s.Reachable ⟨reverseIndex, true, false, false⟩)
    (cellId : CellId) (edgeType : EdgeType) :
    (∀ src, (s.db.cells cellId).topology.degreeOut.count ⟨edgeType, src⟩ =
      ((s.db.cells cellId).topology.destinations edgeType src).card) ∧
    (∀ src dst, ¬ ((s.db.cells cellId).topology.Direct ⟨edgeType, src, dst⟩ ∧
      (s.db.cells cellId).topology.SegVisible ⟨edgeType, src, dst⟩)) ∧
    (reverseIndex = true →
      (∀ src dst, (s.db.cells cellId).topology.inEdges.contains ⟨edgeType, dst, src⟩ = true ↔
        (s.db.cells cellId).topology.outEdges.contains ⟨edgeType, src, dst⟩ = true) ∧
      ∀ v, (s.db.cells cellId).topology.degreeIn.count ⟨edgeType, v⟩ =
        ((s.db.cells cellId).topology.sources edgeType v).card) := by
  have ok := (h.ok.cells cellId).adjacency
  refine ⟨fun src => ?_, fun src dst hboth => ?_, fun hr => ⟨fun src dst => ?_, fun v => ?_⟩⟩
  · have hdegree := ok.outDegree rfl ⟨edgeType, src⟩
    simp only at hdegree
    omega
  · exact ok.disjoint rfl _ hboth.1 hboth.2
  · exact (ok.mirror ⟨edgeType, src, dst⟩).trans (and_iff_right hr)
  · have hdegree := ok.inDegree rfl ⟨edgeType, v⟩
    simp only at hdegree
    omega

/-- Two segment destinations and a direct edge, one of the segment destinations deleted. -/
def segmentRun : List Event :=
  [.mutate (smallEnv false) (.appendOutSegment "c" "T" 1 [2, 3] "k1"),
   .mutate (smallEnv false) (.writeEdge ⟨"c", "T", 1, 4, "k2"⟩),
   .mutate (smallEnv false) (.deleteEdge ⟨"c", "T", 1, 2, "k3"⟩)]

theorem reachable_segmentRun (h : g.reverseIndex = false) :
    (segmentRun.foldl Sys.exec .initial).Reachable g :=
  .of_admits ⟨Event.Plain.allows h.symm, Event.Plain.allows h.symm, Event.Plain.allows h.symm,
    trivial⟩

theorem adjacency_of_reachable_segmentRun :
    ((segmentRun.foldl Sys.exec .initial).db.cells "c").topology.degreeOut.count ⟨"T", 1⟩ = 2 ∧
      (((segmentRun.foldl Sys.exec .initial).db.cells "c").topology.destinations "T" 1).card = 2 :=
  have hdegree : ((segmentRun.foldl Sys.exec .initial).db.cells "c").topology.degreeOut.count
      ⟨"T", 1⟩ = 2 := by decide +kernel
  ⟨hdegree, ((adjacency_of_reachable (reachable_segmentRun rfl) "c" "T").1 1).symm.trans hdegree⟩

/-! ## Relationships -/

/-- Two relationships on one pair, one of them deleted. -/
def relationshipRun : List Event :=
  [.mutate (smallEnv true) (.createRelationship ⟨"c", "T", 1, 2, "k1"⟩ default default default),
   .mutate (smallEnv true) (.createRelationship ⟨"c", "T", 1, 2, "k2"⟩ default default default),
   .mutate (smallEnv true) (.deleteRelationship ⟨"c", "T", 1, 2, "k3"⟩ 1)]

theorem canonical_default : Properties.Canonical (default : EdgeMetadata).properties := by
  intro e he
  cases he

theorem reachable_relationshipRun :
    (relationshipRun.foldl Sys.exec .initial).Reachable ⟨true, false, true, false⟩ :=
  have create : ∀ {s : Sys} {mutation : EdgeMutation}, Regime.Allows ⟨true, false, true, false⟩ s
      (.mutate (smallEnv true) (.createRelationship mutation default default default)) :=
    ⟨rfl, trivial, fun _ => trivial, fun _ => canonical_default, fun _ => trivial⟩
  .of_admits ⟨create, create, ⟨rfl, trivial, fun _ => trivial, fun _ => trivial, fun _ => trivial⟩,
    trivial⟩

/-- In every reachable state of a run in which no import that makes no existence check is given an
edge that exists, and no pass of garbage collection stops at its cap: both ends of a visible edge
have vertex records. The transaction of a vertex delete changes nothing when it fails, and leaves
no visible edge at a vertex that has no record afterwards. -/
theorem endpoints_of_reachable (h : s.Reachable ⟨reverseIndex, true, false, true⟩) :
    (∀ (cellId : CellId) (k : EdgeKey), (s.db.cells cellId).topology.Visible k →
      (s.db.cells cellId).vertices.records.contains k.src = true ∧
      (s.db.cells cellId).vertices.records.contains k.dst = true) ∧
    ∀ (env : WriteEnv) (index : Nat) (f : PendingRequest), env.reverseIndex = reverseIndex →
      s.pending[index]? = some f →
      ((∃ e, deleteVertexMutationRequestsBatchWithMode env f.cellId f.request.batch.1
          f.request.batch.2 f.prepared s.db.sequence (s.db.cells f.cellId) = .error e) →
        (s.exec (.commitDelete env index)).db = s.db) ∧
      ∀ v, ((s.exec (.commitDelete env index)).db.cells f.cellId).vertices.records.contains v =
          false →
        ∀ k : EdgeKey, k.Meets v →
          ¬ ((s.exec (.commitDelete env index)).db.cells f.cellId).topology.Visible k := by
  have hends : ∀ {s : Sys}, s.Reachable ⟨reverseIndex, true, false, true⟩ →
      ∀ cellId k v, (s.db.cells cellId).topology.Visible k →
      k.Meets v → (s.db.cells cellId).vertices.records.contains v = true :=
    fun h cellId k v hv hm =>
      ((h.ok.cells cellId).endpoints rfl rfl k v hv hm).resolve_right id
  refine ⟨fun cellId k hv => ⟨hends h cellId k _ hv (.inl rfl), hends h cellId k _ hv (.inr rfl)⟩,
    fun env index f policy hf => ⟨?_, fun v hv k hm hvisible => ?_⟩⟩
  · rintro ⟨e, he⟩
    rw [Sys.exec, hf]
    simp [Sys.commitDelete, he, Mutation.committedCell, Db.commit]
  · have hnext : (s.exec (.commitDelete env index)).Reachable ⟨reverseIndex, true, false, true⟩ :=
      h.tail (Event.Plain.allows policy)
    cases (hends hnext f.cellId k v hvisible hm).symm.trans hv

/-- Two vertices that are adjacent to each other are deleted in one batch, under the policy that
keeps a reverse index. -/
def detachRun : List Event :=
  [.mutate (smallEnv true) (.writeEdge ⟨"c", "T", 1, 2, "k1"⟩),
   .mutate (smallEnv true) (.writeEdge ⟨"c", "T", 2, 1, "k2"⟩),
   .mutate (smallEnv true) (.writeEdge ⟨"c", "T", 3, 4, "k3"⟩),
   .prepareDelete (smallEnv true) "c" (.vertices [(1, "k4"), (2, "k5")] true),
   .commitDelete (smallEnv true) 0]

theorem reachable_detachRun (h : g.reverseIndex = true) :
    (detachRun.foldl Sys.exec .initial).Reachable g :=
  .of_admits ⟨Event.Plain.allows h.symm, Event.Plain.allows h.symm, Event.Plain.allows h.symm,
    Event.Plain.allows h.symm, Event.Plain.allows h.symm, trivial⟩

theorem endpoints_of_reachable_detachRun :
    ((detachRun.foldl Sys.exec .initial).db.cells "c").vertices.records.keys = [3, 4] ∧
      ((detachRun.foldl Sys.exec .initial).db.cells "c").topology.Visible ⟨"T", 3, 4⟩ ∧
      ((detachRun.foldl Sys.exec .initial).db.cells "c").vertices.records.contains 3 = true :=
  have hvisible : ((detachRun.foldl Sys.exec .initial).db.cells "c").topology.Visible
      ⟨"T", 3, 4⟩ := by decide +kernel
  ⟨by decide +kernel, hvisible,
    ((endpoints_of_reachable (reachable_detachRun rfl)).1 "c" _ hvisible).1⟩

/-- An edge that a segment shows is imported once more without an existence check, and its source
is then deleted with its edges. -/
def trustedImportRun : List Event :=
  [.mutate (smallEnv false) (.appendOutSegment "c" "T" 1 [2] "k1"),
   .mutate (smallEnv false) (.bulkImportEdges "c" "T" [(1, 2)] "k2" .trustNoExisting),
   .prepareDelete (smallEnv false) "c" (.vertices [(1, "k3")] true),
   .commitDelete (smallEnv false) 0]

/-- Without the contract of an import that makes no existence check, the delete of a vertex removes
only the direct key of an edge that is also in a segment: the edge stays visible, and its source
has no record. -/
theorem endpoint_missing_of_trusted_import :
    (trustedImportRun.foldl Sys.exec .initial).Reachable ⟨false, false, false, true⟩ ∧
      ((trustedImportRun.foldl Sys.exec .initial).db.cells "c").topology.Visible ⟨"T", 1, 2⟩ ∧
      ((trustedImportRun.foldl Sys.exec .initial).db.cells "c").vertices.records.contains 1 =
        false := by
  refine ⟨.of_admits ⟨Event.Plain.allows rfl, ?_, Event.Plain.allows rfl, Event.Plain.allows rfl,
    trivial⟩, by decide +kernel, by decide +kernel⟩
  exact ⟨rfl, trivial, nofun, fun _ => trivial, fun _ => trivial⟩

end HydraDb
