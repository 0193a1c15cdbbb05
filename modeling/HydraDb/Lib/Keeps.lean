import Mathlib.Logic.Basic

/-!
# Requests that keep an invariant

A request reads and writes a state and may fail; what it wrote before it failed stays written. The
file has the rules to prove, step by step, that a request keeps an invariant of the state and that
its answer has a property.
-/

/-- A request on states `σ` that may fail with `ε`. -/
abbrev Request (ε σ α : Type) := ExceptT ε (StateM σ) α

namespace Request

variable {ε σ α β : Type} {I : σ → Prop} {Q Q' : α → Prop} {R : β → Prop}
  {x : Request ε σ α} {f : α → Request ε σ β}

/-- The answer of a request, and the state it leaves. -/
def perform (x : Request ε σ α) (s : σ) : Except ε α × σ := x.run.run s

/-- A request that fails or answers without looking at the state. -/
def ofExcept (r : Except ε α) : Request ε σ α := ExceptT.mk (pure r)

theorem perform_bind (s : σ) : (x >>= f).perform s = match x.perform s with
    | (.ok a, s') => (f a).perform s'
    | (.error e, s') => (.error e, s') := by
  simp only [perform, ExceptT.run_bind, StateT.run_bind]
  rcases x.run.run s with ⟨_ | _, s'⟩ <;> rfl

theorem perform_bind_ok (h : x.perform s = (.ok a, s')) :
    (x >>= f).perform s = (f a).perform s' := by
  rw [perform_bind, h]

/-- The request keeps the invariant, and its answer has the property. -/
def Keeps (I : σ → Prop) (x : Request ε σ α) (Q : α → Prop) : Prop :=
  ∀ s, I s → I (x.perform s).2 ∧ ∀ a, (x.perform s).1 = .ok a → Q a

theorem keeps_pure (h : Q a) : Keeps I (pure a : Request ε σ α) Q :=
  fun _ hs => ⟨hs, fun _ ha => Except.ok.inj ha ▸ h⟩

theorem keeps_throw : Keeps I (throw e : Request ε σ α) Q :=
  fun _ hs => ⟨hs, nofun⟩

theorem keeps_ofExcept (h : ∀ a, r = .ok a → Q a) : Keeps I (ofExcept r : Request ε σ α) Q :=
  fun _ hs => ⟨hs, h⟩

theorem keeps_get : Keeps I (get : Request ε σ σ) I :=
  fun _ hs => ⟨hs, fun _ ha => Except.ok.inj ha ▸ hs⟩

theorem keeps_modify {f : σ → σ} (h : ∀ s, I s → I (f s)) :
    Keeps I (modify f : Request ε σ PUnit) fun _ => True :=
  fun s hs => ⟨h s hs, fun _ _ => trivial⟩

theorem keeps_bind (hx : Keeps I x Q) (hf : ∀ a, Q a → Keeps I (f a) R) :
    Keeps I (x >>= f) R := by
  intro s hs
  have hkept := hx s hs
  rw [perform_bind]
  split
  · next a s' hperform =>
    rw [hperform] at hkept
    exact hf a (hkept.2 a rfl) s' hkept.1
  · next hperform =>
    rw [hperform] at hkept
    exact ⟨hkept.1, nofun⟩

end Request
