import Mathlib.Logic.Relation

/-!
# Runs of an event machine

A machine is a function that says what each event does to a state. Which events may happen in a
state is a condition on the run, not on the machine: a caller's contract, a policy that is fixed, a
pass that is not interrupted. A run is a sequence of events each of which meets the condition in
the state it happens in. The file has the invariant rule for runs and the rule that builds a run
from a list of events.
-/

namespace Machine

variable {σ ε : Type*} (exec : σ → ε → σ) (P Q : σ → ε → Prop)

/-- One event that meets the condition. -/
def Step (s s' : σ) : Prop := ∃ e, P s e ∧ s' = exec s e

/-- A sequence of events that all meet the condition. -/
def Run : σ → σ → Prop := Relation.ReflTransGen (Step exec P)

/-- Every event of the list meets the condition in the state it happens in. -/
def Admits : σ → List ε → Prop
  | _, [] => True
  | s, e :: es => P s e ∧ Admits (exec s e) es

instance Admits.decidable [∀ s e, Decidable (P s e)] :
    ∀ (es : List ε) (s : σ), Decidable (Admits exec P s es)
  | [], _ => .isTrue trivial
  | e :: es, s => @instDecidableAnd _ _ _ (Admits.decidable es (exec s e))

variable {exec P Q} {s s' : σ} {I : σ → Prop}

theorem Run.refl : Run exec P s s := Relation.ReflTransGen.refl

section

variable (h : Run exec P s s')

include h

theorem Run.tail (he : P s' e) : Run exec P s (exec s' e) :=
  Relation.ReflTransGen.tail h ⟨e, he, rfl⟩

/-- What holds at the start and is kept by every event holds in every state of a run. -/
theorem Run.invariant (init : I s) (step : ∀ s e, P s e → I s → I (exec s e)) : I s' := by
  induction h with
  | refl => exact init
  | tail _ hs ih =>
    obtain ⟨e, he, rfl⟩ := hs
    exact step _ e he ih

/-- A run under a condition is a run under a weaker one. -/
theorem Run.mono (hPQ : ∀ s e, P s e → Q s e) : Run exec Q s s' :=
  h.invariant .refl fun s e he hrun => hrun.tail (hPQ s e he)

end

/-- The events of an admitted list make a run. -/
theorem Admits.get {es : List ε} {s : σ} (h : Admits exec P s es) (hi : i < es.length) :
    P ((es.take i).foldl exec s) es[i] := by
  induction es generalizing s i with
  | nil => cases hi
  | cons e es ih =>
    cases i with
    | zero => exact h.1
    | succ i => exact ih h.2 (Nat.lt_of_succ_lt_succ hi)

theorem Run.of_admits : ∀ {es : List ε} {s : σ}, Admits exec P s es → Run exec P s (es.foldl exec s)
  | [], _, _ => .refl
  | _ :: _, _, h => Relation.ReflTransGen.head ⟨_, h.1, rfl⟩ (of_admits h.2)

end Machine
