import Mathlib.Data.Finset.Card
import Mathlib.Order.WellFounded

/-!
# Permits that are taken along a route

Any number of agents take permits of gates, each along the route of the place it goes to. An agent
takes one permit after the other and waits where none is free, with those it has; when it stops, for
whatever reason and wherever it is, it gives all of them back, and it does not come again
(`held_of_stopped`). An agent that is cancelled keeps its permits until it stops. The permits that
are out are those of the agents on their way (`Counted`), and if every route goes down no agents can
wait for each other (`Counted.not_circular`).
-/

namespace Permits

variable {Q G P : Type*}

/-- An agent: not there yet, on its way with its first permits, or gone. -/
inductive Agent (P : Type*) where
  | idle
  | active (place : P) (taken : Nat) (cancelled : Bool)
  | ended
  deriving DecidableEq

structure State (Q G P : Type*) where
  available : G → Nat
  agents : Q → Agent P

inductive Event (Q P : Type*) where
  | arrive (q : Q) (place : P)
  | take (q : Q)
  | cancel (q : Q)
  | stop (q : Q)

variable (route : P → List G)

/-- The gates whose permits an agent has. -/
def Agent.held : Agent P → List G
  | active place taken _ => (route place).take taken
  | _ => []

/-- The gate whose permit an agent takes next. -/
def Agent.ahead : Agent P → Option G
  | active place taken _ => (route place)[taken]?
  | _ => none

/-- The agent waits at a gate that has no permit left. -/
def State.Waits (s : State Q G P) (q : Q) (g : G) : Prop :=
  (s.agents q).ahead route = some g ∧ s.available g = 0

/-- The permits that are out of a gate are those that agents have. -/
def Counted (capacity : G → Nat) (s : State Q G P) : Prop :=
  ∀ g, ∃ H : Finset Q, (∀ q, q ∈ H ↔ g ∈ (s.agents q).held route) ∧
    H.card + s.available g = capacity g

section

variable [DecidableEq Q] [DecidableEq G]

def exec (s : State Q G P) : Event Q P → State Q G P
  | .arrive q place =>
    match s.agents q with
    | .idle => { s with agents := Function.update s.agents q (.active place 0 false) }
    | _ => s
  | .take q =>
    match s.agents q, (s.agents q).ahead route with
    | .active place taken cancelled, some g =>
      if 0 < s.available g then
        { available := Function.update s.available g (s.available g - 1)
          agents := Function.update s.agents q (.active place (taken + 1) cancelled) }
      else s
    | _, _ => s
  | .cancel q =>
    match s.agents q with
    | .active place taken _ =>
      { s with agents := Function.update s.agents q (.active place taken true) }
    | _ => s
  | .stop q =>
    match s.agents q with
    | .active _ _ _ =>
      { available := fun g => s.available g + if g ∈ (s.agents q).held route then 1 else 0
        agents := Function.update s.agents q .ended }
    | _ => s

variable {route} {capacity : G → Nat} {s : State Q G P} {q : Q}

/-- What one agent gives back is free again, and what it takes was free. -/
theorem Counted.update (h : Counted route capacity s)
    (hsame : ∀ g, available g + (if g ∈ agent.held route then 1 else 0) =
      s.available g + if g ∈ (s.agents q).held route then 1 else 0) :
    Counted route capacity ⟨available, Function.update s.agents q agent⟩ := by
  intro g
  obtain ⟨H, hH, hcard⟩ := h g
  have hg := hsame g
  refine ⟨if g ∈ agent.held route then insert q (H.erase q) else H.erase q, fun q' => ?_, ?_⟩
  · by_cases hq : q' = q
    · split <;> simp_all
    · split <;> simp [hq, hH]
  have herase : (H.erase q).card + (if g ∈ (s.agents q).held route then 1 else 0) = H.card := by
    split
    · next hmem => exact Finset.card_erase_add_one ((hH q).2 hmem)
    · next hmem => rw [Finset.erase_eq_of_notMem (mt (hH q).1 hmem), Nat.add_zero]
  dsimp only
  split at hg
  · next hmem =>
    rw [if_pos hmem, Finset.card_insert_of_notMem (Finset.notMem_erase q H)]
    omega
  · next hmem =>
    rw [if_neg hmem]
    omega

/-- An agent that is gone stays so. -/
theorem ended_exec (h : s.agents q = .ended) (event : Event Q P) :
    (exec route s event).agents q = .ended := by
  have update {q' : Q} {agent : Agent P} (hq' : s.agents q' ≠ .ended) :
      Function.update s.agents q' agent q = .ended := by
    have hne : q ≠ q' := fun heq => hq' (heq ▸ h)
    rwa [Function.update_of_ne hne]
  cases event <;> simp only [exec] <;> split
  all_goals first
    | exact h
    | next hq' => exact update (by simp [hq'])
    | next hq' _ =>
      split
      · exact update (by simp [hq'])
      · exact h

/-- An agent that has stopped once holds nothing from then on. -/
theorem held_of_stopped {before after : List (Event Q P)}
    (harrived : (before.foldl (exec route) s).agents q ≠ .idle) :
    (((before ++ .stop q :: after).foldl (exec route) s).agents q).held route = [] := by
  have hstop : (exec route (before.foldl (exec route) s) (.stop q)).agents q = .ended := by
    simp only [exec]
    split
    · exact Function.update_self ..
    · next hactive =>
      cases hq : (before.foldl (exec route) s).agents q with
      | idle => exact absurd hq harrived
      | active place taken cancelled => exact absurd hq (hactive place taken cancelled)
      | ended => rfl
  have hended : ∀ (after : List (Event Q P)) s, s.agents q = .ended →
      (after.foldl (exec route) s).agents q = .ended := by
    intro after
    induction after with
    | nil => exact fun s h => h
    | cons event after ih => exact fun s h => ih _ (ended_exec h event)
  rw [List.foldl_append, List.foldl_cons, hended after _ hstop]
  rfl

end

variable {route} {capacity : G → Nat} {s : State Q G P} {height : G → Nat}

/-- No more agents have a permit of a gate than it has permits. -/
theorem Counted.card_le (h : Counted route capacity s) {A : Finset Q}
    (hA : ∀ q ∈ A, g ∈ (s.agents q).held route) : A.card ≤ capacity g := by
  obtain ⟨H, hH, hcard⟩ := h g
  have hle : A.card ≤ H.card := Finset.card_le_card fun q hq => (hH q).2 (hA q hq)
  omega

variable (down : ∀ place, (route place).Pairwise fun g g' => height g' < height g)

include down

/-- Along a route that goes down, the gate an agent comes to is below those it has passed. -/
theorem Agent.lt_of_held {agent : Agent P} (hheld : g ∈ agent.held route)
    (hahead : agent.ahead route = some g') : height g' < height g := by
  cases agent with
  | idle | ended => cases hahead
  | active place taken cancelled =>
    obtain ⟨i, hi, rfl⟩ := List.mem_take_iff_getElem.1 hheld
    obtain ⟨htaken, rfl⟩ := List.getElem?_eq_some_iff.1 hahead
    exact List.pairwise_iff_getElem.1 (down place) i taken _ htaken (by omega)

/-- Every event keeps the count. -/
theorem Counted.exec [DecidableEq Q] [DecidableEq G] (h : Counted route capacity s)
    (event : Event Q P) : Counted route capacity (exec route s event) := by
  cases event with
  | arrive =>
    simp only [Permits.exec]
    split
    · next hq => exact h.update fun g => by simp [Agent.held, hq]
    · exact h
  | take q =>
    simp only [Permits.exec]
    split
    · next place taken cancelled g hq hg =>
      split
      · next hfree =>
        have hnew : g ∉ (s.agents q).held route := fun hmem =>
          lt_irrefl _ (Agent.lt_of_held down hmem hg)
        refine h.update fun g' => ?_
        rw [hq] at hg hnew
        have htake : (route place).take (taken + 1) = (route place).take taken ++ [g] := by
          rw [List.take_add_one, show (route place)[taken]? = some g from hg, Option.toList_some]
        simp only [Agent.held, hq, htake, List.mem_append, List.mem_singleton] at hnew ⊢
        by_cases hsame : g' = g
        · subst hsame
          simp [hnew, Nat.sub_add_cancel hfree]
        · simp [hsame]
      · exact h
    · exact h
  | cancel =>
    simp only [Permits.exec]
    split
    · next hq =>
      refine h.update fun g => ?_
      rw [hq]
      rfl
    · exact h
  | stop =>
    simp only [Permits.exec]
    split
    · exact h.update fun g => by simp [Agent.held]
    · exact h

/-- **No circular waiting.** If every route goes down, there are no agents that wait only for
permits of one another. -/
theorem Counted.not_circular (h : Counted route capacity s) (pos : ∀ g, 0 < capacity g) {W : Set Q}
    (hW : ∀ q ∈ W, ∃ g, s.Waits route q g ∧ ∀ q', g ∈ (s.agents q').held route → q' ∈ W) :
    W = ∅ := by
  by_contra hne
  -- the agent at the lowest gate: who has a permit of it waits at a gate further down
  obtain ⟨q, hq, hlowest⟩ := (measure fun q => ((s.agents q).ahead route).elim 0 height).wf.has_min
    W (Set.nonempty_iff_ne_empty.2 hne)
  obtain ⟨g, ⟨hahead, hnone⟩, hholders⟩ := hW q hq
  obtain ⟨H, hH, hcard⟩ := h g
  obtain ⟨q', hq'⟩ := Finset.card_pos.1 (by have := pos g; omega : 0 < H.card)
  have hheld := (hH q').1 hq'
  obtain ⟨g', ⟨hahead', -⟩, -⟩ := hW q' (hholders q' hheld)
  refine hlowest q' (hholders q' hheld) ?_
  show ((s.agents q').ahead route).elim 0 height < ((s.agents q).ahead route).elim 0 height
  rw [hahead, hahead']
  exact Agent.lt_of_held down hheld hahead'

end Permits
