import HydraDb.Lib.Loop

/-!
# Computations in lockstep

Two computations that may fail are in lockstep for a relation when both fail with the same error or
both return related values. The relation goes through `bind` and through loops, so that a program
run on two related states is compared one step at a time: the proof follows the program's text and
never looks at the error paths.
-/

universe u v

namespace Except

variable {ε : Type v} {α α' β β' : Type u}

/-- Both fail with the same error, or both return related values. -/
def Lockstep (R : α → α' → Prop) : Except ε α → Except ε α' → Prop
  | .ok a, .ok a' => R a a'
  | .error e, .error e' => e = e'
  | _, _ => False

namespace Lockstep

variable {R : α → α' → Prop} {x : Except ε α}

theorem ok (h : R a a') : Lockstep R (.ok a : Except ε α) (.ok a') := h

theorem error : Lockstep R (.error e : Except ε α) (.error e) := rfl

/-- A computation is in lockstep with itself for every reflexive relation. -/
theorem refl {R : α → α → Prop} (h : ∀ a, R a a) (x : Except ε α) : Lockstep R x x := by
  cases x with
  | error => rfl
  | ok a => exact h a

theorem mono (h : Lockstep R x x') (hRT : ∀ a a', R a a' → T a a') : Lockstep T x x' := by
  cases x with
  | error => cases x' with
    | error => exact h
    | ok => exact h.elim
  | ok a => cases x' with
    | error => exact h.elim
    | ok a' => exact hRT a a' h

theorem bind (h : Lockstep R x x')
    (hf : ∀ a a', R a a' → Lockstep S (f a) (f' a')) : Lockstep S (x >>= f) (x' >>= f') := by
  cases x with
  | error => cases x' with
    | error => exact h
    | ok => exact h.elim
  | ok a => cases x' with
    | error => exact h.elim
    | ok a' => exact hf a a' h

/-- Both sides start with the same computation. -/
theorem bind_same
    (hf : ∀ a, x = .ok a → Lockstep S (f a) (f' a)) : Lockstep S (x >>= f) (x >>= f') := by
  cases x with
  | error => rfl
  | ok a => exact hf a rfl

/-- Both sides start with the same check. -/
theorem seq (h : Lockstep S y y') : Lockstep S (x >>= fun _ => y) (x >>= fun _ => y') :=
  bind_same fun _ _ => h

/-- A loop whose steps are in lockstep, with an invariant that may mention what has been done. -/
theorem foldlM (I : List α → β → β' → Prop) (init : I [] b b')
    (step : ∀ done a rest c c', done ++ a :: rest = l → I done c c' →
      Lockstep (I (done ++ [a])) (f c a) (f' c' a)) :
    Lockstep (I l) (l.foldlM f b) (l.foldlM f' b') := by
  suffices aux : ∀ (rest done : List α) c c', done ++ rest = l → I done c c' →
      Lockstep (I l) (rest.foldlM f c) (rest.foldlM f' c') from aux l [] b b' rfl init
  intro rest
  induction rest with
  | nil =>
    intro done c c' hl hI
    rw [List.append_nil] at hl
    exact hl ▸ hI
  | cons a rest ih =>
    intro done c c' hl hI
    rw [List.foldlM_cons, List.foldlM_cons]
    refine (step done a rest c c' hl hI).bind fun d d' hd => ih (done ++ [a]) d d' ?_ hd
    rw [List.append_assoc, ← hl]
    rfl

/-- The related values are what the two sides return. -/
theorem with_ok (h : Lockstep R x x') :
    Lockstep (fun a a' => R a a' ∧ x = .ok a ∧ x' = .ok a') x x' := by
  cases x with
  | error => cases x' with
    | error => exact h
    | ok => exact h.elim
  | ok => cases x' with
    | error => exact h.elim
    | ok => exact ⟨h, rfl, rfl⟩

end Lockstep

end Except
