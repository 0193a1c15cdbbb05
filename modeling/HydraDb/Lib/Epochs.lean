import Mathlib.Logic.Function.Basic
import Mathlib.Order.Nat

/-!
# Handles that are named by epochs

A log is written through handles that are opened one after the other, each under the number of its
epoch, and each knows the log up to a sequence. `Ok` says what opening a handle and writing through
the last one keep: the last handle knows the whole log, and an older one no more than a newer one.
-/

namespace Epochs

variable {α : Type*} {durable : α → Nat} {handles : Nat → Option α}

theorem update_eq_some_iff :
    Function.update handles epoch (some w) e = some y ↔
      (e = epoch ∧ w = y) ∨ (e ≠ epoch ∧ handles e = some y) := by
  by_cases he : e = epoch
  · simp [he]
  · simp [he]

/-- The handles of a log of a size, when `last` is the last epoch. -/
structure Ok (durable : α → Nat) (handles : Nat → Option α) (last size : Nat) : Prop where
  bound : ∀ epoch h, handles epoch = some h → epoch ≤ last ∧ durable h ≤ size
  current : ∀ h, handles last = some h → durable h = size
  monotone : ∀ epoch h epoch' h', handles epoch = some h → handles epoch' = some h' →
    epoch ≤ epoch' → durable h ≤ durable h'

variable {last last' size size' : Nat} (ok : Ok durable handles last size)

include ok

/-- A handle changes that keeps its sequence. -/
theorem Ok.keep (hx : handles epoch = some x) (hsame : durable w = durable x) :
    Ok durable (Function.update handles epoch (some w)) last size := by
  have old {e : Nat} {y : α} (hy : Function.update handles epoch (some w) e = some y) :
      ∃ y₀, handles e = some y₀ ∧ durable y₀ = durable y := by
    rcases update_eq_some_iff.1 hy with ⟨rfl, rfl⟩ | ⟨-, hy⟩
    · exact ⟨x, hx, hsame.symm⟩
    · exact ⟨y, hy, rfl⟩
  refine ⟨fun e y hy => ?_, fun y hy => ?_, fun e y e' z hy hz hle => ?_⟩
  · obtain ⟨y₀, hy₀, hd⟩ := old hy
    exact hd ▸ ok.bound e y₀ hy₀
  · obtain ⟨y₀, hy₀, hd⟩ := old hy
    exact hd ▸ ok.current y₀ hy₀
  · obtain ⟨y₀, hy₀, hd⟩ := old hy
    obtain ⟨z₀, hz₀, hd'⟩ := old hz
    exact hd ▸ hd' ▸ ok.monotone e y₀ e' z₀ hy₀ hz₀ hle

/-- The last handle knows the whole log. -/
theorem Ok.top (hlast : last ≤ last') (hle : size ≤ size') (hw : durable w = size') :
    Ok durable (Function.update handles last' (some w)) last' size' := by
  have below {e : Nat} {y : α} (hy : Function.update handles last' (some w) e = some y) :
      e ≤ last' ∧ durable y ≤ size' := by
    rcases update_eq_some_iff.1 hy with ⟨rfl, rfl⟩ | ⟨-, hy⟩
    · exact ⟨le_rfl, hw.le⟩
    · obtain ⟨he, hd⟩ := ok.bound e y hy
      exact ⟨he.trans hlast, hd.trans hle⟩
  refine ⟨fun e y hy => below hy, fun y hy => ?_, fun e y e' z hy hz hle => ?_⟩
  · cases (Function.update_self ..).symm.trans hy
    exact hw
  rcases update_eq_some_iff.1 hz with ⟨rfl, rfl⟩ | ⟨hne, hz⟩
  · exact hw ▸ (below hy).2
  -- the other handle is below the last one, and so is the one below it
  have hlt : e' < last' := lt_of_le_of_ne ((ok.bound e' z hz).1.trans hlast) hne
  rcases update_eq_some_iff.1 hy with ⟨rfl, -⟩ | ⟨-, hy⟩
  · exact absurd hle hlt.not_ge
  · exact ok.monotone e y e' z hy hz hle

end Epochs
