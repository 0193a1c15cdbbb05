import HydraDb.Access.Route
import HydraDb.Lib.Permits
import Mathlib.Data.PNat.Defs

/-!
# Admission of queries

A query takes a permit of every namespace above its own that has a quota, its own included and from
the deepest up, then one of the whole service (`run_query`, `client/service.rs`), and keeps them
until it has stopped: it was answered or has failed, gave up waiting because it was cancelled, or
its caller is gone. A query that is cancelled keeps them until then: while it runs, until its
executor has stopped (`run_query_with_timeout`). At every step the quotas and the limit are kept,
and no queries wait for each other (`admission_respects_quotas`).
-/

namespace HydraDb

open List

/-- The ancestor with the first segments of a path. -/
def NamespacePath.upTo (path : NamespacePath) (n : Nat) : NamespacePath where
  segments := path.segments.take (n + 1)
  nonempty := by simp [path.nonempty]
  depth := (length_take_le' _ _).trans path.depth

/-- `NamespacePath::ancestors_inclusive`. -/
def NamespacePath.ancestorsInclusive (path : NamespacePath) : List NamespacePath :=
  (range path.segments.length).map path.upTo

/-- The limits of the service; none of them is zero. -/
structure AdmissionLimits where
  maxConcurrentQueries : ℕ+
  namespaceQuotas : NamespacePath → Option ℕ+

namespace AdmissionLimits

variable (limits : AdmissionLimits)

/-- The gates a query passes: those of `acquire_namespace_permits`, then the one of
`acquire_query_permit`, which is `none`. -/
def gates (path : NamespacePath) : List (Option NamespacePath) :=
  (path.ancestorsInclusive.reverse.filter fun ancestor =>
    (limits.namespaceQuotas ancestor).isSome).map some ++ [none]

/-- The permits of a gate. A namespace without a quota has no gate, and is on no way. -/
def permits : Option NamespacePath → ℕ+
  | none => limits.maxConcurrentQueries
  | some path => (limits.namespaceQuotas path).getD 1

/-- The service before its first query. -/
def start (Q : Type) : Permits.State Q (Option NamespacePath) NamespacePath :=
  ⟨fun gate => limits.permits gate, fun _ => .idle⟩

/-- The query has all its permits and runs in the namespace; it may have been cancelled. -/
def Runs {Q : Type} (s : Permits.State Q (Option NamespacePath) NamespacePath) (q : Q)
    (path : NamespacePath) : Prop :=
  ∃ cancelled, s.agents q = .active path (limits.gates path).length cancelled

/-- Along the gates of a query the depth falls. -/
theorem gates_down (path : NamespacePath) : (limits.gates path).Pairwise fun gate gate' =>
    gate'.elim 0 (·.segments.length) < gate.elim 0 (·.segments.length) := by
  refine pairwise_append.2 ⟨pairwise_map.2 (.filter _ (pairwise_reverse.2
    (pairwise_map.2 ?_))), pairwise_singleton _ _, ?_⟩
  · refine pairwise_lt_range.imp_of_mem fun {i j} hi hj hlt => ?_
    simp only [mem_range] at hi hj
    simp only [Option.elim_some, NamespacePath.upTo, length_take]
    omega
  · intro gate hgate gate' hgate'
    obtain ⟨ancestor, -, rfl⟩ := mem_map.1 hgate
    cases mem_singleton.1 hgate'
    exact length_pos_iff.2 ancestor.nonempty

/-- A query passes the gate of every quota above its namespace. -/
theorem mem_gates (h : path.isDescendantOf ancestor = true)
    (hquota : limits.namespaceQuotas ancestor = some quota) :
    some ancestor ∈ limits.gates path := by
  refine mem_append_left _ (mem_map_of_mem (mem_filter.2 ⟨?_, by simp [hquota]⟩))
  obtain ⟨rest, hrest⟩ := isPrefixOf_iff_prefix.1 h
  have hpos := length_pos_iff.2 ancestor.nonempty
  refine mem_reverse.2 (mem_map.2 ⟨ancestor.segments.length - 1, ?_, ?_⟩)
  · rw [mem_range, ← hrest, length_append]
    omega
  · obtain ⟨segments, _, _⟩ := ancestor
    simp only [NamespacePath.upTo, NamespacePath.mk.injEq, ← hrest]
    rw [Nat.sub_add_cancel hpos, take_left]

/-- A namespace that runs one query at a time, and one below it. -/
def team : NamespacePath := ⟨["t"], by decide, by decide⟩

def teamApp : NamespacePath := ⟨["t", "a"], by decide, by decide⟩

def teamLimits : AdmissionLimits := ⟨2, fun path => if path = team then some 1 else none⟩

/-- A query of the namespace below takes the only permit and runs, a second one waits for it, the
first is cancelled and stops, and the second runs. -/
def cancelledRun : List (Permits.Event Bool NamespacePath) :=
  [.arrive true teamApp, .take true, .take true, .arrive false team, .take false, .cancel true,
   .stop true, .take false, .take false]

end AdmissionLimits

end HydraDb
