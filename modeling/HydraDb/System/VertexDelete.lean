import HydraDb.System.Changelog

/-!
# Prepared vertex deletes across runs

The edges at the vertices of a delete are discovered at a snapshot, ahead of the transaction that
deletes them, and other writers and passes of garbage collection commit in between. The transaction
uses the discovery when the changelog shows no change at a requested vertex. This file shows what
that check is good for: the edges discovered at the snapshot are those of the state the transaction
runs on, and a candidate keeps an edge there exactly when the discovery has one.

The check rests on the low-water mark, so it fails after a pass that stops at its cap: the pass
deletes entries of the commit at which it leaves the mark.
-/

namespace HydraDb

open OrdMap

variable {c : Cell} {reverseIndex : Bool} {s later : Sys}
  {cellId : CellId}

variable {vertices : OrdMap VertexId Unit} {limits : GraphLimits} {k : EdgeKey}

/-! ## What a discovery decides -/

/-- The edges of a discovery say of a state what a vertex delete asks. Without candidates they are
the visible edges at the requested vertices. With candidates they have the visible edges at the
detached vertices, and an edge of a candidate that no detached vertex takes away exactly when there
is one. -/
structure Decides (t : Topology) (vertices : OrdMap VertexId Unit)
    (isolation : Option (OrdMap VertexId Unit)) (edges : OrdMap EdgeKey Unit) : Prop where
  all : isolation = none → ∀ k, edges.contains k = true ↔ t.Visible k ∧ k.touches vertices = true
  detached : ∀ detach, isolation = some detach → ∀ k, k.touches detach = true →
    (edges.contains k = true ↔ t.Visible k)
  candidate : ∀ detach, isolation = some detach → ∀ v, vertices.contains v = true →
    ((∃ k, edges.contains k = true ∧ k.Meets v ∧ k.touches detach = false) ↔
      ∃ k, t.Visible k ∧ k.Meets v ∧ k.touches detach = false)

/-- A discovery that has what it should, and nothing else, decides. -/
theorem SoundDiscovery.decides (h : SoundDiscovery t vertices isolation edges)
    (hdetach : ∀ detach, isolation = some detach → ∀ v, detach.contains v = true →
      vertices.contains v = true) : Decides t vertices isolation edges where
  all hnone k := by
    refine ⟨h.sound k, fun ⟨hvisible, htouch⟩ => ?_⟩
    obtain ⟨v, hv, hm⟩ := EdgeKey.touches_iff.1 htouch
    exact h.complete v hv (fun detach hsome => nomatch hnone.symm.trans hsome) k hvisible hm
  detached detach hiso k htouch := by
    refine ⟨fun hk => (h.sound k hk).1, fun hvisible => ?_⟩
    obtain ⟨v, hv, hm⟩ := EdgeKey.touches_iff.1 htouch
    refine h.complete v (hdetach detach hiso v hv) (fun detach' hiso' => ?_) k hvisible hm
    obtain rfl := Option.some.inj (hiso.symm.trans hiso')
    exact hv
  candidate detach hiso v hv := by
    constructor
    · rintro ⟨k, hk, hm, htouch⟩
      exact ⟨k, (h.sound k hk).1, hm, htouch⟩
    · rintro ⟨k, hvisible, hm, htouch⟩
      exact h.witness v detach hv hiso k hvisible hm htouch

theorem contains_of_isolationDetachSet (h : isolationDetachSet mode deletions = some detach)
    (hv : detach.contains v = true) : (deletionVertices deletions).contains v = true := by
  cases (Option.ite_none_right_eq_some.1 h).2
  obtain ⟨d, hd, -, rfl⟩ := contains_detachVertices.1 hv
  exact contains_deletionVertices.2 ⟨d, hd, rfl⟩

/-- Along a run whose passes do not stop at their cap, a cell is related to what it was. -/
theorem Sys.Ok.since (ok : s.Ok g)
    (hrun : Machine.Run Sys.exec (fun s e => g.Allows s e ∧ e.Uncapped s) s later) :
    later.Ok g ∧ Since s.db.sequence (s.db.cells cellId) later.db.sequence
      (later.db.cells cellId) := by
  refine hrun.invariant (I := fun later => later.Ok g ∧ Since s.db.sequence (s.db.cells cellId)
    later.db.sequence (later.db.cells cellId)) ⟨ok, .refl _⟩ ?_
  rintro later e ⟨allowed, uncapped⟩ ⟨ok, since⟩
  refine ⟨ok.exec allowed, (ok.effect allowed).keeps
    (fun n c => Since s.db.sequence (s.db.cells cellId) n c) (fun h => ?_) (fun c' h hc => ?_)
    since⟩
  · exact h.mono (Nat.le_succ _) (Nat.succ_ne_self _)
  · exact h.change (ok.cells cellId) ok.bound uncapped hc

/-- In every run whose passes of garbage collection do not stop at their cap between the preparation
and the transaction: a preparation that passes the currency check decides the state it is checked
in. So do the edges that a transaction without a preparation discovers itself, through the indexes
or by a full scan. -/
theorem decides_of_current (h : s.Reachable ⟨reverseIndex, false, false, false⟩)
    (hrun : Machine.Run Sys.exec (fun s e =>
      Regime.Allows ⟨reverseIndex, false, false, false⟩ s e ∧ e.Uncapped s) s later)
    {env : WriteEnv} (policy : env.reverseIndex = reverseIndex) (cellId : CellId)
    (deletions : List VertexDeletion) (mode : VertexDeleteBatchMode) :
    (∀ p limits, prepareVertexDelete env cellId deletions mode s.db.sequence (s.db.cells cellId) =
        .ok (some p) →
      vertexDeletePreparationIsCurrent limits later.db.sequence (later.db.cells cellId).changelog
        p = true →
      Decides (later.db.cells cellId).topology p.vertices
        (isolationDetachSet mode (pendingDeletions (s.db.cells cellId) mode deletions))
        p.discovery.edges) ∧
    ∀ edges, vertexDeleteIncidentEdges env cellId mode deletions none later.db.sequence
        (later.db.cells cellId) = .ok edges →
      Decides (later.db.cells cellId).topology (deletionVertices deletions)
        (isolationDetachSet mode deletions) edges := by
  obtain ⟨ok', since⟩ := h.ok.since hrun
  refine ⟨fun p limits hprepare hcurrent => ?_, fun edges hedges => ?_⟩
  · obtain ⟨hvertices, hepoch, hcatalog, hfound⟩ :=
      prepareVertexDelete_ok (h.ok.cells cellId) policy hprepare
    refine (hfound.congr fun k v hv hm => ?_).decides fun detach hiso v hv => ?_
    · exact visible_iff_of_current ok'.bound (hepoch ▸ h.ok.cells cellId) (hepoch ▸ since) hcatalog
        hcurrent hv hm
    · rw [hvertices]
      exact contains_of_isolationDetachSet hiso hv
  · exact (vertexDeleteIncidentEdges_none (ok'.cells cellId) policy hedges).decides
      fun detach hiso v hv => contains_of_isolationDetachSet hiso hv

deriving instance DecidableEq for VertexDeleteDiscovery, PreparedVertexDelete

/-- The delete of vertex 1 is prepared while its only edge is to 2; another writer adds an edge
between two other vertices. -/
def unrelatedRun : List Event :=
  [.mutate (smallEnv true) (.writeEdge ⟨"c", "T", 1, 2, "k1"⟩),
   .mutate (smallEnv true) (.writeEdge ⟨"c", "T", 3, 4, "k2"⟩)]

/-- The request of the runs of this file. -/
def deleteOne : List VertexDeletion := [⟨1, "k3", true, default⟩]

/-- Its preparation after the first event. -/
def preparedOne : PreparedVertexDelete :=
  ⟨OrdMap.addAll ∅ [1], 1, OrdMap.addAll ∅ [⟨"T", 1, 2⟩], (∅ : OrdMap _ _).put "T" 1⟩

theorem decides_of_current_unrelatedRun :
    prepareVertexDelete (smallEnv true) "c" deleteOne .detach 1
        (((unrelatedRun.take 1).foldl Sys.exec .initial).db.cells "c") = .ok (some preparedOne) ∧
      (unrelatedRun.foldl Sys.exec .initial).db.sequence = 2 ∧
      vertexDeletePreparationIsCurrent .default 2
        ((unrelatedRun.foldl Sys.exec .initial).db.cells "c").changelog preparedOne = true ∧
      Decides ((unrelatedRun.foldl Sys.exec .initial).db.cells "c").topology preparedOne.vertices
        none preparedOne.discovery.edges := by
  have hprepare : prepareVertexDelete (smallEnv true) "c" deleteOne .detach
      ((unrelatedRun.take 1).foldl Sys.exec .initial).db.sequence
      (((unrelatedRun.take 1).foldl Sys.exec .initial).db.cells "c") = .ok (some preparedOne) := by
    decide +kernel
  have hcurrent : vertexDeletePreparationIsCurrent .default
      (unrelatedRun.foldl Sys.exec .initial).db.sequence
      ((unrelatedRun.foldl Sys.exec .initial).db.cells "c").changelog preparedOne = true := by
    decide +kernel
  have reached : ((unrelatedRun.take 1).foldl Sys.exec .initial).Reachable
      ⟨true, false, false, false⟩ := .of_admits ⟨Event.Plain.allows rfl, trivial⟩
  have allowed : Regime.Allows ⟨true, false, false, false⟩
      ((unrelatedRun.take 1).foldl Sys.exec .initial)
      (.mutate (smallEnv true) (.writeEdge ⟨"c", "T", 3, 4, "k2"⟩)) := Event.Plain.allows rfl
  have policy : (smallEnv true).reverseIndex = true := rfl
  exact ⟨hprepare, by decide +kernel, hcurrent,
    (decides_of_current reached (.tail .refl ⟨allowed, trivial⟩) policy "c" deleteOne .detach).1
      preparedOne .default hprepare hcurrent⟩

/-- After the preparation another writer adds an edge of vertex 1 and one between two other
vertices in one commit, and a pass deletes two entries. -/
def staleRun : List Event :=
  [.mutate (smallEnv true) (.writeEdge ⟨"c", "T", 1, 2, "k1"⟩),
   .mutate (smallEnv true) (.writeEdgeBatch "c" [⟨"c", "T", 1, 5, "k4"⟩, ⟨"c", "T", 8, 9, "k5"⟩]),
   .collect 2 "c" "T" 2 2]

/-- A pass that stops at its cap makes the currency check answer for a vertex that has a new edge:
the entry of the edge is deleted, and the mark is left at its commit. -/
theorem not_decides_of_capped_pass :
    (staleRun.foldl Sys.exec .initial).Reachable ⟨true, true, true, false⟩ ∧
      prepareVertexDelete (smallEnv true) "c" deleteOne .detach 1
        (((staleRun.take 1).foldl Sys.exec .initial).db.cells "c") = .ok (some preparedOne) ∧
      (staleRun.foldl Sys.exec .initial).db.sequence = 3 ∧
      vertexDeletePreparationIsCurrent .default 3
        ((staleRun.foldl Sys.exec .initial).db.cells "c").changelog preparedOne = true ∧
      ((staleRun.foldl Sys.exec .initial).db.cells "c").topology.Visible ⟨"T", 1, 5⟩ ∧
      preparedOne.discovery.edges.contains ⟨"T", 1, 5⟩ = false := by
  have hpublished : 0 < 2 ∧ 2 ≤ ((staleRun.take 2).foldl Sys.exec .initial).db.sequence ∧
    2 ≤ ((staleRun.take 2).foldl Sys.exec .initial).db.sequence := by decide +kernel
  refine ⟨.of_admits ⟨Event.Plain.allows rfl,
    ⟨rfl, trivial, fun _ => trivial, fun _ => trivial, fun _ => trivial⟩,
    ⟨trivial, hpublished, fun _ => trivial, fun _ => trivial,
      nofun⟩, trivial⟩, ?_, ?_, ?_, ?_, ?_⟩ <;> decide +kernel

end HydraDb
