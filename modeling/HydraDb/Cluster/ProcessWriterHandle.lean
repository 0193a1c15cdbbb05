import HydraDb.Cluster.ProcessWriterGate
import Mathlib.Data.Fintype.Defs

/-!
# One writer handle per process

A task that has a handle in its hands holds the gate, and while it does the slot is empty
(`State.SlotOk`). So the state never has two handles, provided that a promotion which goes on to
open a handle found the slot empty. The code does not see to that: a final release sets the flag,
and the flag alone makes `open_writer` answer that there is no writer. Nor does a promotion wait
for the cleanups that were scheduled before its store was registered, and a cleanup takes whatever
is in the slot. `OpensAlone` is the condition that rules both out.
-/

namespace HydraDb.ProcessWriter

variable {S T R : Type}

namespace State

/-- The handles of the state: the one in the slot, and those that a task has in its hands. -/
def Has (s : State S T R) (epoch : Nat) : Prop :=
  s.writer = some epoch ∨ ∃ t, (s.tasks t).handle = some epoch

/-- The store was registered before the release. -/
def RegisteredBefore (s : State S T R) (store : S) (release : Nat) : Prop :=
  (s.stores store).registeredAfter ≤ release

/-- The condition: a promotion goes on to open a handle only if the slot is empty and no cleanup is
still to look at it. -/
def OpensAlone (s : State S T R) : Event S T R → Prop
  | .check t => ∀ store, s.tasks t = .promoteChecking store →
      (s.stores store).retiring = false → s.openWriter store = none →
      s.writer = none ∧ ∀ t', (s.tasks t').pending = none
  | _ => True

instance [DecidableEq S] [Fintype S] [Fintype T] (s : State S T R) (event : Event S T R) :
    Decidable (s.OpensAlone event) := by
  apply event.casesOn (motive := fun event => Decidable (s.OpensAlone event)) <;> intros <;>
    dsimp only [OpensAlone] <;> infer_instance

/-! ## The invariant -/

/-- The invariant of the slot and the tasks. -/
structure SlotOk (s : State S T R) : Prop where
  alone : ∀ t, (s.tasks t).Busy → s.writer = none
  registered : ∀ store, (s.stores store).registeredAfter ≤ s.releases
  promoter : ∀ t store, (s.tasks t).promotes = some store → (s.stores store).registered = true
  owner : ∀ epoch h, s.handles epoch = some h → (s.stores h.store).registered = true
  installing : ∀ t store epoch, s.tasks t = .promoteInstalling store epoch →
    ∃ h, s.handles epoch = some h ∧ h.store = store
  slot : ∀ epoch, s.writer = some epoch → ∃ h, s.handles epoch = some h ∧
    ∀ t release, (s.tasks t).pending = some release → s.RegisteredBefore h.store release
  opening : ∀ t store, (s.tasks t).opens = some store →
    ∀ t' release, (s.tasks t').pending = some release → s.RegisteredBefore store release
  cleaned : ∀ release epoch, (release, epoch) ∈ s.cleaned → ∀ h, s.handles epoch = some h →
    s.RegisteredBefore h.store release
  /-- The next handle has a new name. -/
  named : ∀ epoch h, s.handles epoch = some h → epoch ≤ s.epoch
  cleaned_le : ∀ release epoch, (release, epoch) ∈ s.cleaned → epoch ≤ s.epoch

variable {s : State S T R}

/-- The state has at most one handle. -/
theorem SlotOk.has_unique (ok : s.SlotOk) (gated : s.Gated) {epoch : Nat} (h : s.Has epoch)
    (h' : s.Has epoch') : epoch = epoch' := by
  have busy {t : T} {epoch : Nat} (h : (s.tasks t).handle = some epoch) : (s.tasks t).Busy :=
    .inl (by rw [h]; rfl)
  rcases h with hslot | ⟨t, ht⟩
  · rcases h' with hslot' | ⟨t', ht'⟩
    · exact Option.some.inj (hslot.symm.trans hslot')
    · rw [ok.alone t' (busy ht')] at hslot
      cases hslot
  · rcases h' with hslot' | ⟨t', ht'⟩
    · rw [ok.alone t (busy ht)] at hslot'
      cases hslot'
    · obtain rfl := gated.eq_of_holdsGate (busy ht).holdsGate (busy ht').holdsGate
      exact Option.some.inj (ht.symm.trans ht')

theorem SlotOk.keeps (ok : s.SlotOk) (k : s.Keeps s') : s'.SlotOk := by
  have before {store : S} {release : Nat} (hr : (s.stores store).registered = true)
      (h : s.RegisteredBefore store release) : s'.RegisteredBefore store release := by
    unfold RegisteredBefore
    rw [(k.registered store hr).2]
    exact h
  constructor
  · intro t h
    rw [k.tasks] at h
    have hnone := ok.alone t h
    cases hw : s'.writer with
    | none => rfl
    | some epoch =>
      rw [k.writer epoch hw] at hnone
      cases hnone
  · exact fun store => k.releases.symm ▸ k.bound store (ok.registered store)
  · intro t store h
    rw [k.tasks] at h
    exact (k.registered store (ok.promoter t store h)).1
  · intro epoch h' hh'
    obtain ⟨h, hh, hstore⟩ := k.handles epoch h' hh'
    exact (k.registered _ (hstore ▸ ok.owner epoch h hh)).1
  · intro t store epoch h
    rw [k.tasks] at h
    obtain ⟨h₀, hh₀, hstore⟩ := ok.installing t store epoch h
    obtain ⟨h₁, hh₁, hstore₁⟩ := k.kept epoch h₀ hh₀
    exact ⟨h₁, hh₁, hstore₁.trans hstore⟩
  · intro epoch hw
    obtain ⟨h₀, hh₀, hpending⟩ := ok.slot epoch (k.writer epoch hw)
    obtain ⟨h₁, hh₁, hstore⟩ := k.kept epoch h₀ hh₀
    refine ⟨h₁, hh₁, fun t release hp => ?_⟩
    rw [k.tasks] at hp
    exact hstore ▸ before (ok.owner epoch h₀ hh₀) (hpending t release hp)
  · intro t store h t' release hp
    rw [k.tasks] at h hp
    exact before (ok.promoter t store (Task.opens_promotes h)) (ok.opening t store h t' release hp)
  · intro release epoch hmem h' hh'
    rw [k.cleaned] at hmem
    obtain ⟨h, hh, hstore⟩ := k.handles epoch h' hh'
    exact hstore ▸ before (ok.owner epoch h hh) (ok.cleaned release epoch hmem h hh)
  · intro epoch h' hh'
    obtain ⟨h, hh, -⟩ := k.handles epoch h' hh'
    exact (ok.named epoch h hh).trans k.epoch
  · intro release epoch hmem
    rw [k.cleaned] at hmem
    exact (ok.cleaned_le release epoch hmem).trans k.epoch

/-! ## Changes of a task -/

section Tasks

variable [DecidableEq T]

variable {t : T}

/-- A task goes on. -/
theorem SlotOk.setTask (ok : s.SlotOk) (hbusy : task.Busy → s.writer = none)
    (hpromotes : ∀ store, task.promotes = some store → (s.stores store).registered = true)
    (hinstalling : ∀ store epoch, task = .promoteInstalling store epoch →
      ∃ h, s.handles epoch = some h ∧ h.store = store)
    (hopens : ∀ store, task.opens = some store → ∀ t' ≠ t, ∀ release,
      (s.tasks t').pending = some release → s.RegisteredBefore store release)
    (hpending : ∀ release, task.pending = some release →
      (∀ epoch h, s.writer = some epoch → s.handles epoch = some h →
        s.RegisteredBefore h.store release) ∧
      ∀ t' ≠ t, ∀ store, (s.tasks t').opens = some store → s.RegisteredBefore store release) :
    (s.setTask t task).SlotOk := by
  have at_t : (s.setTask t task).tasks t = task := by simp [State.setTask]
  have off_t {t' : T} (h : t' ≠ t) : (s.setTask t task).tasks t' = s.tasks t' := by
    simp [State.setTask, h]
  constructor
  · intro t' h
    by_cases ht : t' = t
    · rw [ht, at_t] at h
      exact hbusy h
    · rw [off_t ht] at h
      exact ok.alone t' h
  · exact ok.registered
  · intro t' store h
    by_cases ht : t' = t
    · rw [ht, at_t] at h
      exact hpromotes store h
    · rw [off_t ht] at h
      exact ok.promoter t' store h
  · exact ok.owner
  · intro t' store epoch h
    by_cases ht : t' = t
    · rw [ht, at_t] at h
      exact hinstalling store epoch h
    · rw [off_t ht] at h
      exact ok.installing t' store epoch h
  · intro epoch hw
    obtain ⟨h, hh, hold⟩ := ok.slot epoch hw
    refine ⟨h, hh, fun t' release hp => ?_⟩
    by_cases ht : t' = t
    · rw [ht, at_t] at hp
      exact (hpending release hp).1 epoch h hw hh
    · rw [off_t ht] at hp
      exact hold t' release hp
  · intro t₁ store h₁ t₂ release h₂
    by_cases ht₁ : t₁ = t
    · rw [ht₁, at_t] at h₁
      by_cases ht₂ : t₂ = t
      · rw [ht₂, at_t] at h₂
        cases task with
        | promoteOpening | promoteInstalling => cases h₂
        | _ => cases h₁
      · rw [off_t ht₂] at h₂
        exact hopens store h₁ t₂ ht₂ release h₂
    · rw [off_t ht₁] at h₁
      by_cases ht₂ : t₂ = t
      · rw [ht₂, at_t] at h₂
        exact (hpending release h₂).2 t₁ ht₁ store h₁
      · rw [off_t ht₂] at h₂
        exact ok.opening t₁ store h₁ t₂ release h₂
  · exact ok.cleaned
  · exact ok.named
  · exact ok.cleaned_le

/-- A task goes on that is no promotion and has no other release to see to than before. -/
theorem SlotOk.setOther (ok : s.SlotOk) (hbusy : task.handle.isSome = true → s.writer = none)
    (hpromotes : task.promotes = none)
    (hpending : ∀ release, task.pending = some release → (s.tasks t).pending = some release) :
    (s.setTask t task).SlotOk := by
  have hopens : task.opens = none := by
    cases h : task.opens with
    | none => rfl
    | some => simp [Task.opens_promotes h] at hpromotes
  refine ok.setTask ?_ ?_ ?_ ?_ ?_
  · rintro (h | h)
    · exact hbusy h
    · simp [hopens] at h
  · intro store h
    simp [hpromotes] at h
  · rintro store epoch rfl
    cases hpromotes
  · intro store h
    simp [hopens] at h
  intro release h
  have hold := hpending release h
  refine ⟨fun epoch h hw hh => ?_, fun t' _ store h => ok.opening t' store h t release hold⟩
  obtain ⟨h', hh', hbefore⟩ := ok.slot epoch hw
  cases hh.symm.trans hh'
  exact hbefore t release hold

/-- A task goes on that has no handle, is no promotion and has no release to see to. -/
theorem SlotOk.setIdle (ok : s.SlotOk)
    (h : (task.handle, task.promotes, task.pending) = (none, none, none)) :
    (s.setTask t task).SlotOk := by
  simp only [Prod.mk.injEq] at h
  exact ok.setOther (by simp [h.1]) h.2.1 (by simp [h.2.2])

omit [DecidableEq T] in
theorem SlotOk.setFlags (ok : s.SlotOk) (closing : Bool) (gate : Option T) :
    ({ s with closing := closing, openGate := gate }).SlotOk :=
  { ok with }

omit [DecidableEq T] in
/-- A final release is counted. -/
theorem SlotOk.addRelease (ok : s.SlotOk) : ({ s with releases := s.releases + 1 }).SlotOk :=
  { ok with registered := fun store => (ok.registered store).trans (Nat.le_succ _) }

section

variable (ok : s.SlotOk)

include ok

omit [DecidableEq T] in
/-- The handle in the slot is closed or discarded on behalf of a release. -/
theorem SlotOk.addCleaned {release epoch : Nat} (hepoch : epoch ≤ s.epoch)
    (h : ∀ h, s.handles epoch = some h → s.RegisteredBefore h.store release) :
    ({ s with cleaned := (release, epoch) :: s.cleaned }).SlotOk :=
  { ok with
    cleaned := fun release' epoch' hmem => by
      rcases List.mem_cons.1 hmem with heq | hmem
      · cases heq
        exact h
      · exact ok.cleaned release' epoch' hmem
    cleaned_le := fun release' epoch' hmem => by
      rcases List.mem_cons.1 hmem with heq | hmem
      · cases heq
        exact hepoch
      · exact ok.cleaned_le release' epoch' hmem }

/-! ## Every event -/

theorem SlotOk.release [DecidableEq S] : (s.release store t).SlotOk := by
  simp only [State.release]
  split
  · have left : (({ s with owners := s.owners - 1 }).setStore store
        { s.stores store with writerOwnerActive := false }).SlotOk := by
      have fewer : s.Keeps { s with owners := s.owners - 1 } := { Keeps.refl with }
      exact ok.keeps (fewer.trans (keeps_setStore (fun hr => hr) rfl))
    split
    · have final := ((left.setFlags true s.openGate).addRelease).keeps keeps_expose
      refine final.setTask ?_ (by rintro _ ⟨⟩) (by rintro _ _ ⟨⟩) (by rintro _ ⟨⟩) ?_
      · rintro (h | h) <;> cases h
      · -- every store there is was registered before this release
        rintro release ⟨⟩
        exact ⟨fun _ h _ _ => left.registered h.store, fun _ _ store _ => left.registered store⟩
    · exact left
  · exact ok

theorem SlotOk.promote
    (hregistered : (s.stores store).registered = true) : (s.promote t store).SlotOk := by
  unfold State.promote
  split
  · exact ok
  split
  · exact ok
  refine ok.setTask ?_ ?_ nofun nofun nofun
  · rintro (h | h) <;> cases h
  · rintro store' ⟨⟩
    exact hregistered

theorem SlotOk.grant : (s.grant t).SlotOk := by
  have locked : ({ s with openGate := some t }).SlotOk := ok.setFlags s.closing (some t)
  simp only [State.grant]
  split
  · next store ht =>
    refine locked.setTask ?_ ?_ (by rintro _ _ ⟨⟩) (by rintro _ ⟨⟩) (by rintro _ ⟨⟩)
    · rintro (h | h) <;> cases h
    · rintro store' ⟨⟩
      exact ok.promoter t store (by rw [ht]; rfl)
  · exact locked.setIdle rfl
  · next release ht => exact locked.setOther (by rintro ⟨⟩) rfl fun _ h => ht ▸ h
  · next release ht => exact locked.setOther (by rintro ⟨⟩) rfl fun _ h => ht ▸ h
  · exact ok

theorem SlotOk.check (alone : s.OpensAlone (.check t)) : (s.check t).SlotOk := by
  unfold State.check
  split
  · next store ht =>
    have failed : (s.setTask t (.unlocking none)).SlotOk :=
      ok.setIdle rfl
    split
    · exact failed
    next hretiring =>
    split
    · exact failed
    next hnone =>
    obtain ⟨hslot, hpending⟩ := alone store ht (by simpa using hretiring) (by simpa using hnone)
    refine ok.setTask (fun _ => hslot) ?_ nofun ?_ nofun
    · rintro store' ⟨⟩
      exact ok.promoter t store (by rw [ht]; rfl)
    · intro store' _ t' _ release hp
      rw [hpending t'] at hp
      cases hp
  · exact ok

/-- A promotion opens a handle under a new name. -/
theorem SlotOk.opened : (s.opened t).SlotOk := by
  unfold State.opened
  split
  · next store ht =>
    have hregistered := ok.promoter t store (by rw [ht]; rfl)
    have hnew {h : WriterHandle S} {epoch : Nat} hh :
        epoch ≠ s.epoch + 1 := Nat.ne_of_lt (Nat.lt_succ_of_le (ok.named epoch h hh))
    have opened : (({ s with epoch := s.epoch + 1 }).setHandle (s.epoch + 1)
        ⟨store, s.durable, false, false⟩).SlotOk := by
      refine { ok with
        owner := ?_, installing := ?_, slot := ?_, cleaned := ?_, named := ?_, cleaned_le := ?_ }
      · intro epoch h hh
        by_cases he : epoch = s.epoch + 1
        · obtain rfl : ⟨store, s.durable, false, false⟩ = h := by simpa [setHandle, he] using hh
          exact hregistered
        · exact ok.owner epoch h (by simpa [setHandle, he] using hh)
      · intro t' store' epoch h
        obtain ⟨h, hh, hstore⟩ := ok.installing t' store' epoch h
        exact ⟨h, by simpa [setHandle, hnew hh] using hh, hstore⟩
      · intro epoch hw
        obtain ⟨h, hh, hbefore⟩ := ok.slot epoch hw
        exact ⟨h, by simpa [setHandle, hnew hh] using hh, hbefore⟩
      · intro release epoch hmem h hh
        have he : epoch ≠ s.epoch + 1 :=
          Nat.ne_of_lt (Nat.lt_succ_of_le (ok.cleaned_le release epoch hmem))
        exact ok.cleaned release epoch hmem h (by simpa [setHandle, he] using hh)
      · intro epoch h hh
        by_cases he : epoch = s.epoch + 1
        · exact he.le
        · exact (ok.named epoch h (by simpa [setHandle, he] using hh)).trans (Nat.le_succ _)
      · exact fun release epoch hmem => (ok.cleaned_le release epoch hmem).trans (Nat.le_succ _)
    refine opened.setTask (fun _ => ok.alone t (.inr (by rw [ht]; rfl))) ?_ ?_ ?_ (by rintro _ ⟨⟩)
    · rintro store' ⟨⟩
      exact hregistered
    · rintro store' epoch ⟨⟩
      exact ⟨⟨store, s.durable, false, false⟩, by simp [setHandle], rfl⟩
    · rintro store' ⟨⟩ t' _ release hp
      exact ok.opening t store (by rw [ht]; rfl) t' release hp
  · exact ok

/-- The new handle is put in the slot. -/
theorem SlotOk.install (gated : s.Gated) : (s.install t).SlotOk := by
  unfold State.install
  split
  · next store epoch ht =>
    split
    · next h hh =>
      have done : (s.setTask t (.unlocking none)).SlotOk :=
        ok.setIdle rfl
      have installed : (({ s with writer := some epoch }).setTask t (.unlocking none)).SlotOk := by
        refine { done with alone := ?_, slot := ?_ }
        · intro t' hbusy
          by_cases he : t' = t
          · rcases hbusy with hbusy | hbusy <;>
              simp [State.setTask, he, Task.handle, Task.opens] at hbusy
          · -- another task with a handle would hold the gate as well
            have hother : (s.tasks t').Busy := by simpa [State.setTask, he] using hbusy
            exact absurd (gated.eq_of_busy ht rfl hother) he
        · rintro epoch' ⟨⟩
          obtain ⟨h', hh', hstore⟩ := ok.installing t store epoch ht
          refine ⟨h', hh', fun t' release hp => ?_⟩
          by_cases he : t' = t
          · simp [State.setTask, he, Task.pending] at hp
          · subst hstore
            exact ok.opening t h'.store (by rw [ht]; rfl) t' release
              (by simpa [State.setTask, he] using hp)
      exact installed.keeps (keeps_setHandle hh rfl)
    · exact ok
  · exact ok

theorem SlotOk.setClosing (t : T) : (s.setClosing t).SlotOk := by
  unfold State.setClosing
  split
  · next store ht =>
    have flagged := (ok.setFlags true s.openGate).keeps keeps_expose
    exact flagged.setIdle rfl
  · exact ok

theorem SlotOk.take (t : T) : (s.take t).SlotOk := by
  have emptied := ok.keeps (keeps_emptied.trans keeps_expose)
  have cleaned {release epoch : Nat} (hp : (s.tasks t).pending = some release)
      (hw : s.writer = some epoch) :
      ({ ({ s with writer := none }).expose with
        cleaned := (release, epoch) :: s.cleaned }).SlotOk := by
    obtain ⟨h, hh, hbefore⟩ := ok.slot epoch hw
    refine emptied.addCleaned (ok.named epoch h hh) fun h' hh' => ?_
    cases hh.symm.trans hh'
    exact hbefore t release hp
  simp only [State.take]
  split
  · next store ht =>
    split
    · exact emptied.setOther (fun _ => rfl) rfl (by rintro _ ⟨⟩)
    · exact ok.setIdle rfl
  · next release ht =>
    split
    · next epoch hw =>
      exact (cleaned (by rw [ht]; rfl) hw).setOther (fun _ => rfl) rfl (by rintro _ ⟨⟩)
    · exact ok.setIdle rfl
  · next release ht =>
    split
    · next epoch hw =>
      exact (cleaned (by rw [ht]; rfl) hw).setIdle rfl
    · exact ok.setIdle rfl
  · exact ok

theorem SlotOk.closed (t : T) (success : Bool) : (s.closed t success).SlotOk := by
  simp only [State.closed]
  split
  · exact (ok.keeps (keeps_closeHandle _)).setIdle rfl
  · exact (ok.keeps (keeps_closeHandle _)).setIdle rfl
  · exact ok

theorem SlotOk.resetClosing (t : T) : (s.resetClosing t).SlotOk := by
  have reset := ok.setFlags false s.openGate
  simp only [State.resetClosing]
  split
  · exact reset.setIdle rfl
  · exact reset.setIdle rfl
  · exact reset.setIdle rfl
  · exact ok

theorem SlotOk.unlock (t : T) : (s.unlock t).SlotOk := by
  have unlocked := ok.setFlags s.closing none
  unfold State.unlock
  split
  · exact unlocked.setIdle rfl
  · exact unlocked.setIdle rfl
  · exact ok

theorem SlotOk.cancel (t : T) : (s.cancel t).SlotOk := by
  unfold State.cancel
  split
  · exact ok.setIdle rfl
  · exact (ok.setFlags false none).setIdle rfl
  · exact ok

theorem SlotOk.stopRuntime (gated : s.Gated) : (s.stopRuntime t).SlotOk := by
  unfold State.stopRuntime
  split
  · next release ht => exact ok.setOther (by rintro ⟨⟩) rfl fun _ h => ht ▸ h
  · next release epoch ht =>
    have hslot : s.writer = none := ok.alone t (.inl (by rw [ht]; rfl))
    refine (ok.setFlags s.closing none).setTask ?_ nofun nofun
      nofun fun release' _ => ⟨fun epoch h hw _ => ?_, fun t' ht' store hopens => ?_⟩
    · rintro (h | h) <;> cases h
    · rw [hslot] at hw
      cases hw
    · exact absurd (gated.eq_of_busy ht rfl (.inr (by rw [hopens]; rfl))) ht'
  · exact ok

theorem SlotOk.count [DecidableEq S] (t : T) : (s.count t).SlotOk := by
  unfold State.count
  split
  · next store ht =>
    have raised : s.Keeps (s.setStore store (s.stores store).raiseGeneration) :=
      keeps_setStore (fun hr => hr) rfl
    exact (ok.keeps raised).setIdle rfl
  · exact ok

end

end Tasks

theorem slotOk_initial : (initial : State S T R).SlotOk where
  alone _ _ := rfl
  registered _ := le_rfl
  promoter _ _ h := nomatch h
  owner _ _ h := nomatch h
  installing _ _ _ h := nomatch h
  slot _ h := nomatch h
  opening _ _ h := nomatch h
  cleaned _ _ h := nomatch h
  named _ _ h := nomatch h
  cleaned_le _ _ h := nomatch h

variable [DecidableEq S] [DecidableEq T] [DecidableEq R]

/-- Every event that can happen and meets the condition keeps the invariant. -/
theorem SlotOk.exec (ok : s.SlotOk) (gated : s.Gated) (feasible : s.Feasible event)
    (alone : s.OpensAlone event) : (s.exec event).SlotOk := by
  cases event with
  | register => exact ok.keeps (keeps_register feasible)
  | beginClose => exact ok.keeps (keeps_setStore (fun hr => hr) rfl)
  | release => exact ok.release
  | promote => exact ok.promote feasible.1
  | retire => exact ok.setIdle rfl
  | grant => exact ok.grant
  | check => exact ok.check alone
  | opened => exact ok.opened
  | openFailed =>
    simp only [State.exec]
    split
    · exact ok.setIdle rfl
    · exact ok
  | install => exact ok.install gated
  | setClosing t => exact ok.setClosing t
  | take t => exact ok.take t
  | closed t success => exact ok.closed t success
  | resetClosing t => exact ok.resetClosing t
  | unlock t => exact ok.unlock t
  | count t => exact ok.count t
  | cancel t => exact ok.cancel t
  | stopRuntime => exact ok.stopRuntime gated
  | rivalOpen => exact ok.keeps { Keeps.refl with epoch := Nat.le_succ _ }
  | rivalCommit => exact ok.keeps { Keeps.refl with }
  | fence epoch => exact ok.keeps (keeps_closeHandle epoch)
  | clearClosed store => exact ok.keeps (keeps_clearClosed store)
  | commit epoch => exact ok.keeps (keeps_commit epoch)
  | openReader store | refreshReader store | readerFailed store | pollReader store sequence =>
    exact ok.keeps (keeps_setStore (fun hr => hr) rfl)
  | readerDone store sequence => exact ok.keeps (keeps_readerDone sequence)
  | read r store | failRead r => exact ok.keeps (keeps_setRead _ _)
  | pickWriter r => exact ok.keeps (keeps_pickWriter r)
  | useWriter => exact ok.keeps keeps_useWriter
  | pickReader r => exact ok.keeps (keeps_pickReader r)
  | useReader r => exact ok.keeps (keeps_useReader r)
  | missing =>
    simp only [State.exec]
    split
    · exact ok.keeps (keeps_setRead _ _)
    · exact ok

end State

open State in
/-- In every run of any number of stores, tasks and reads in which every promotion that opens a
handle meets the condition: the state never has two open handles, and a handle that is closed or
discarded on behalf of a release was opened for a store that was registered before that release. -/
theorem process_has_one_writer {S T R : Type} [DecidableEq S] [DecidableEq T] [DecidableEq R]
    {s : State S T R}
    (run : Machine.Run exec (fun s event => s.Feasible event ∧ s.OpensAlone event) initial s) :
    (∀ epoch epoch', s.Has epoch → s.Has epoch' → epoch = epoch') ∧
    ∀ release epoch, (release, epoch) ∈ s.cleaned → ∀ h, s.handles epoch = some h →
      (s.stores h.store).registeredAfter ≤ release := by
  have ok := run.invariant (I := fun s => s.SlotOk ∧ s.Gated) ⟨slotOk_initial, gated_initial⟩
    fun s event he ok => ⟨ok.1.exec ok.2 he.1 he.2, ok.2.exec he.1⟩
  exact ⟨fun _ _ => ok.1.has_unique ok.2, ok.1.cleaned⟩

/-! ## Runs -/

/-- The state after a list of events. -/
def afterEvents (events : List (Event Bool Bool Unit)) : State Bool Bool Unit :=
  events.foldl State.exec State.initial

/-- The steps of a promotion from the gate on. -/
def promotionSteps (t : Bool) : List (Event Bool Bool Unit) :=
  [.grant t, .check t, .opened t, .install t, .unlock t]

/-- The first store has a writer and is being closed. -/
def releasedRun : List (Event Bool Bool Unit) :=
  [.register false, .promote false false] ++ promotionSteps false ++
  [.beginClose false, .release false true]

/-- The cleanup is done before the second store opens its writer. -/
def cleanedRun : List (Event Bool Bool Unit) :=
  releasedRun ++ [.grant true, .take true, .closed true true, .resetClosing true, .unlock true] ++
  [.register true, .promote false true] ++ promotionSteps false

/-- The handle of the first store was cleaned up, and the second store has one of its own. -/
theorem process_has_one_writer_cleanedRun :
    (afterEvents cleanedRun).writer = some 2 ∧
      (∀ epoch, (afterEvents cleanedRun).Has epoch → epoch = 2) ∧
      (0, 1) ∈ (afterEvents cleanedRun).cleaned ∧
      ∀ h, (afterEvents cleanedRun).handles 1 = some h →
        ((afterEvents cleanedRun).stores h.store).registeredAfter ≤ 0 := by
  have hrun : Machine.Run State.exec
      (fun s event => s.Feasible event ∧ s.OpensAlone event) State.initial
        (afterEvents cleanedRun) := .of_admits (by decide +kernel)
  obtain ⟨unique, before⟩ := process_has_one_writer hrun
  have hwriter : (afterEvents cleanedRun).writer = some 2 := by decide +kernel
  have hcleaned : (0, 1) ∈ (afterEvents cleanedRun).cleaned := by decide +kernel
  exact ⟨hwriter, fun epoch h => unique epoch 2 h (.inl hwriter), hcleaned, before 0 1 hcleaned⟩

/-- The second store is opened and reaches the gate before the cleanup does. -/
def overtakingRun : List (Event Bool Bool Unit) :=
  releasedRun ++ [.register true, .promote false true, .grant false, .check false, .opened false]

/-- The cleanup follows. -/
def overtakenRun : List (Event Bool Bool Unit) :=
  overtakingRun ++ [.install false, .unlock false, .grant true, .take true]

/-- Two handles are open at once, and the cleanup for the first store takes the handle that was
opened for the second one, which was registered after the release. -/
theorem not_one_writer_overtakingRun :
    Machine.Admits State.exec State.Feasible State.initial overtakenRun ∧
      (afterEvents overtakingRun).writer = some 1 ∧
      (afterEvents overtakingRun).tasks false = .promoteInstalling true 2 ∧
      (afterEvents overtakingRun).handleClosed 1 = false ∧
      (afterEvents overtakingRun).handleClosed 2 = false ∧
      (afterEvents overtakenRun).cleaned = [(0, 2)] ∧
      ((afterEvents overtakenRun).handles 2).map (·.store) = some true ∧
      ((afterEvents overtakenRun).stores true).registeredAfter = 1 := by
  decide +kernel

end HydraDb.ProcessWriter
