import HydraDb.Cluster.ProcessWriter

/-!
# The gate of a writer state

Promotions, retirements, cleanups and abandonments work on the slot only while they hold the gate
(`Task.holdsGate`), and in every run at most one task holds it (`State.Gated.exec`). The file also
has the changes of the state that no task sees (`State.Keeps`).
-/

namespace HydraDb.ProcessWriter

variable {S T R : Type}

variable {task : Task S} {store : S}

/-! ## What a task has -/

namespace Task

/-- The tasks that hold the gate. -/
def holdsGate : Task S → Bool
  | .idle | .promoteWaiting _ | .retireWaiting _ | .retireCounting _ | .cleanupWaiting _
  | .abandonWaiting _ => false
  | _ => true

/-- The handle that a task has opened and not installed, or taken and not closed. -/
def handle : Task S → Option Nat
  | .promoteInstalling _ epoch | .retireClosing _ epoch | .cleanupClosing _ epoch => some epoch
  | _ => none

/-- The store of a promotion. -/
def promotes : Task S → Option S
  | .promoteWaiting store | .promoteChecking store | .promoteOpening store
  | .promoteInstalling store _ => some store
  | _ => none

/-- The store of a promotion that is past its last check. -/
def opens : Task S → Option S
  | .promoteOpening store | .promoteInstalling store _ => some store
  | _ => none

/-- The release of a cleanup or abandonment that has not looked at the slot yet. -/
def pending : Task S → Option Nat
  | .cleanupWaiting release | .cleanupTaking release | .abandonWaiting release
  | .abandonTaking release => some release
  | _ => none

/-- A task that opens a handle or has one. -/
def Busy (task : Task S) : Prop := task.handle.isSome ∨ task.opens.isSome

theorem Busy.holdsGate (h : task.Busy) : task.holdsGate = true := by
  cases task with
  | promoteOpening | promoteInstalling | retireClosing | cleanupClosing => rfl
  | _ => rcases h with h | h <;> cases h

theorem opens_promotes (h : task.opens = some store) : task.promotes = some store := by
  cases task with
  | promoteOpening | promoteInstalling => exact h
  | _ => cases h

end Task

namespace State

variable {s s' : State S T R}

variable {t : T}

/-! ## Changes that the tasks do not see -/

/-- Nothing changes that the invariant is about, apart from a slot that is emptied. -/
structure Keeps (s s' : State S T R) : Prop where
  tasks : s'.tasks = s.tasks
  openGate : s'.openGate = s.openGate
  releases : s'.releases = s.releases
  cleaned : s'.cleaned = s.cleaned
  epoch : s.epoch ≤ s'.epoch
  writer : ∀ epoch, s'.writer = some epoch → s.writer = some epoch
  handles : ∀ epoch h', s'.handles epoch = some h' →
    ∃ h, s.handles epoch = some h ∧ h.store = h'.store
  kept : ∀ epoch h, s.handles epoch = some h →
    ∃ h', s'.handles epoch = some h' ∧ h'.store = h.store
  registered : ∀ store, (s.stores store).registered = true →
    (s'.stores store).registered = true ∧
      (s'.stores store).registeredAfter = (s.stores store).registeredAfter
  bound : ∀ store, (s.stores store).registeredAfter ≤ s.releases →
    (s'.stores store).registeredAfter ≤ s.releases

theorem Keeps.refl : s.Keeps s :=
  ⟨rfl, rfl, rfl, rfl, le_rfl, fun _ h => h, fun _ h hh => ⟨h, hh, rfl⟩, fun _ h hh => ⟨h, hh, rfl⟩,
    fun _ h => ⟨h, rfl⟩, fun _ h => h⟩

theorem Keeps.trans (h : s.Keeps s') (h' : s'.Keeps s'') : s.Keeps s'' where
  tasks := h'.tasks.trans h.tasks
  openGate := h'.openGate.trans h.openGate
  releases := h'.releases.trans h.releases
  cleaned := h'.cleaned.trans h.cleaned
  epoch := h.epoch.trans h'.epoch
  writer epoch hw := h.writer epoch (h'.writer epoch hw)
  handles epoch h₂ hh₂ := by
    obtain ⟨h₁, hh₁, hstore⟩ := h'.handles epoch h₂ hh₂
    obtain ⟨h₀, hh₀, hstore₀⟩ := h.handles epoch h₁ hh₁
    exact ⟨h₀, hh₀, hstore₀.trans hstore⟩
  kept epoch h₀ hh₀ := by
    obtain ⟨h₁, hh₁, hstore⟩ := h.kept epoch h₀ hh₀
    obtain ⟨h₂, hh₂, hstore₂⟩ := h'.kept epoch h₁ hh₁
    exact ⟨h₂, hh₂, hstore₂.trans hstore⟩
  registered store hr := by
    obtain ⟨hr', hafter⟩ := h.registered store hr
    obtain ⟨hr'', hafter'⟩ := h'.registered store hr'
    exact ⟨hr'', hafter'.trans hafter⟩
  bound store hb := h.releases ▸ h'.bound store (h.releases.symm ▸ h.bound store hb)

theorem keeps_setStore [DecidableEq S]
    (hregistered : (s.stores store).registered = true → g.registered = true)
    (hafter : g.registeredAfter = (s.stores store).registeredAfter) :
    s.Keeps (s.setStore store g) := by
  refine { Keeps.refl with registered := fun x hr => ?_, bound := fun x hb => ?_ }
  · by_cases hx : x = store
    · subst hx
      simpa [setStore] using ⟨hregistered hr, hafter⟩
    · simpa [setStore, hx] using hr
  · by_cases hx : x = store
    · subst hx
      simpa [setStore, hafter] using hb
    · simpa [setStore, hx] using hb

theorem keeps_expose : s.Keeps s.expose :=
  { Keeps.refl with registered := fun _ hr => ⟨hr, rfl⟩, bound := fun _ hb => hb }

theorem keeps_setRead [DecidableEq R] (r : R) (read : Read S) :
    s.Keeps (s.setRead r read) := { Keeps.refl with }

theorem keeps_setHandle {epoch : Nat} (hh : s.handles epoch = some h)
    (hstore : h'.store = h.store) : s.Keeps (s.setHandle epoch h') := by
  refine { Keeps.refl with handles := fun e h₁ hh₁ => ?_, kept := fun e h₀ hh₀ => ?_ }
  · by_cases he : e = epoch
    · subst he
      have heq : h' = h₁ := by simpa [setHandle] using hh₁
      exact ⟨h, hh, heq ▸ hstore.symm⟩
    · exact ⟨h₁, by simpa [setHandle, he] using hh₁, rfl⟩
  · by_cases he : e = epoch
    · subst he
      cases hh.symm.trans hh₀
      exact ⟨h', by simp [setHandle], hstore⟩
    · exact ⟨h₀, by simpa [setHandle, he] using hh₀, rfl⟩

theorem keeps_emptied : s.Keeps { s with writer := none } :=
  { Keeps.refl with writer := nofun }

theorem keeps_raiseFloor (sequence : StorageSequence) : s.Keeps (s.raiseFloor sequence) := by
  have raised : s.Keeps { s with floor := max s.floor sequence } := { Keeps.refl with }
  unfold raiseFloor
  dsimp only
  split
  · exact raised
  · exact raised.trans keeps_expose

theorem keeps_clearClosed [DecidableEq S] (store : S) : s.Keeps (s.clearClosed store) := by
  unfold clearClosed
  split
  · exact (keeps_emptied.trans keeps_expose).trans (keeps_setStore (fun hr => hr) rfl)
  · exact .refl

theorem keeps_register [DecidableEq S] (h : (s.stores store).registered = false) :
    s.Keeps (s.register store) := by
  refine { Keeps.refl with registered := fun x hr => ?_, bound := fun x hb => ?_ }
  · have hx : x ≠ store := by
      rintro rfl
      simp [h] at hr
    simpa [register, setStore, hx] using hr
  · by_cases hx : x = store
    · simp [register, setStore, hx]
    · simpa [register, setStore, hx] using hb

theorem keeps_commit (epoch : Nat) : s.Keeps (s.commit epoch) := by
  unfold commit
  split
  · next h hh =>
    split
    · have grown : s.Keeps { s with durable := s.durable + 1 } := { Keeps.refl with }
      have handle : ({ s with durable := s.durable + 1 }).Keeps
          (({ s with durable := s.durable + 1 }).setHandle epoch
            { h with durable := s.durable + 1 }) := keeps_setHandle hh rfl
      exact (grown.trans handle).trans (keeps_raiseFloor _)
    · exact .refl
  · exact .refl

theorem keeps_pickWriter [DecidableEq S] [DecidableEq R] (r : R) : s.Keeps (s.pickWriter r) := by
  unfold pickWriter
  split
  · split
    · exact keeps_setRead _ _
    · split
      · exact (keeps_clearClosed _).trans (keeps_setRead _ _)
      · exact keeps_setRead _ _
  · exact .refl

theorem keeps_useWriter [DecidableEq S] [DecidableEq R] : s.Keeps (s.useWriter r) := by
  unfold useWriter
  split
  · split
    · exact .refl
    · split
      · exact (keeps_clearClosed _).trans (keeps_setRead _ _)
      · exact (keeps_raiseFloor _).trans (keeps_setRead _ _)
  · exact .refl

theorem keeps_pickReader [DecidableEq R] (r : R) : s.Keeps (s.pickReader r) := by
  simp only [pickReader]
  split
  · split
    · exact keeps_setRead _ _
    · split
      · exact keeps_setRead _ _
      · exact .refl
  · exact .refl

theorem keeps_useReader [DecidableEq R] (r : R) : s.Keeps (s.useReader r) := by
  unfold useReader
  split
  · split
    · exact keeps_setRead _ _
    · exact .refl
  · exact .refl

theorem keeps_readerDone [DecidableEq S] (sequence : StorageSequence) :
    s.Keeps (s.setStore store ((s.stores store).readerDone sequence)) := by
  refine keeps_setStore (fun hr => ?_) ?_
  · unfold GraphStore.readerDone
    split <;> exact hr
  · unfold GraphStore.readerDone
    split <;> rfl

/-! ## Who holds the gate -/

/-- Whoever works under the gate holds it. -/
def Gated (s : State S T R) : Prop := ∀ t, (s.tasks t).holdsGate = true → s.openGate = some t

/-- Two tasks that hold the gate are one. -/
theorem Gated.eq_of_holdsGate (gated : s.Gated) (h : (s.tasks t).holdsGate = true)
    (h' : (s.tasks t').holdsGate = true) : t = t' :=
  Option.some.inj ((gated t h).symm.trans (gated t' h'))

/-- While a task holds the gate, no other one opens a handle or has one. -/
theorem Gated.eq_of_busy (gated : s.Gated) (ht : s.tasks t = task) (h : task.holdsGate = true)
    (hbusy : (s.tasks t').Busy) : t' = t :=
  gated.eq_of_holdsGate hbusy.holdsGate (ht ▸ h)

theorem Gated.keeps (gated : s.Gated) (k : s.Keeps s') : s'.Gated := by
  intro t h
  rw [k.tasks] at h
  exact k.openGate.trans (gated t h)

section Gated

variable [DecidableEq T]

section

variable (gated : s.Gated)

include gated

theorem Gated.setTask (h : task.holdsGate = true → s.openGate = some t) :
    (s.setTask t task).Gated := by
  intro t' ht'
  by_cases ht : t' = t
  · subst ht
    exact h (by simpa [setTask] using ht')
  · exact gated t' (by simpa [State.setTask, ht] using ht')

/-- A task that works under the gate goes on under it. -/
theorem Gated.setHolder (ht : s.tasks t = old) (h : old.holdsGate = true) :
    (s.setTask t task).Gated :=
  gated.setTask fun _ => gated t (ht ▸ h)

/-- A task releases the gate. -/
theorem Gated.leave (ht : s.tasks t = old) (h : old.holdsGate = true)
    (hleaves : task.holdsGate = false) : (({ s with openGate := none }).setTask t task).Gated := by
  intro t' ht'
  by_cases he : t' = t
  · simp [State.setTask, he, hleaves] at ht'
  · have hother : (s.tasks t').holdsGate = true := by simpa [State.setTask, he] using ht'
    exact absurd (gated.eq_of_holdsGate hother (ht ▸ h)) he

theorem Gated.grant (hfree : s.openGate = none) : (s.grant t).Gated := by
  have locked : ({ s with openGate := some t }).Gated := fun t' h => by
    have hgate := gated t' h
    rw [hfree] at hgate
    cases hgate
  simp only [State.grant]
  split
  · exact locked.setTask fun _ => rfl
  · exact locked.setTask fun _ => rfl
  · exact locked.setTask fun _ => rfl
  · exact locked.setTask fun _ => rfl
  · exact gated

theorem Gated.release [DecidableEq S] : (s.release store t).Gated := by
  simp only [State.release]
  split
  · have left : (({ s with owners := s.owners - 1 }).setStore store
        { s.stores store with writerOwnerActive := false }).Gated := gated
    split
    · exact left.setTask nofun
    · exact left
  · exact gated

theorem Gated.check (t : T) : (s.check t).Gated := by
  unfold State.check
  split
  · next store ht =>
    split
    · exact gated.setHolder ht rfl
    · split
      · exact gated.setHolder ht rfl
      · exact gated.setHolder ht rfl
  · exact gated

theorem Gated.opened : (s.opened t).Gated := by
  unfold State.opened
  split
  · next store ht => exact gated.setHolder ht rfl
  · exact gated

theorem Gated.install : (s.install t).Gated := by
  unfold State.install
  split
  · next store epoch ht =>
    split
    · exact gated.setHolder ht rfl
    · exact gated
  · exact gated

theorem Gated.take (t : T) : (s.take t).Gated := by
  simp only [State.take]
  split
  · next store ht =>
    split
    · exact gated.setHolder ht rfl
    · exact gated.setHolder ht rfl
  · next release ht =>
    split
    · exact gated.setHolder ht rfl
    · exact gated.setHolder ht rfl
  · next release ht =>
    split
    · exact gated.setHolder ht rfl
    · exact gated.setHolder ht rfl
  · exact gated

end

omit [DecidableEq T] in
/-- The handle that a task was closing is closed. -/
theorem keeps_closeHandle (epoch : Nat) : s.Keeps (match s.handles epoch with
    | some h => s.setHandle epoch { h with closed := true }
    | none => s) := by
  split
  · next h hh => exact keeps_setHandle hh rfl
  · exact .refl

section

variable (gated : s.Gated)

include gated

theorem Gated.closed (t : T) (success : Bool) : (s.closed t success).Gated := by
  simp only [State.closed]
  split
  · next store epoch ht =>
    refine (gated.keeps (keeps_closeHandle epoch)).setTask fun _ => ?_
    exact (keeps_closeHandle epoch).openGate.trans (gated t (by rw [ht]; rfl))
  · next release epoch ht =>
    refine (gated.keeps (keeps_closeHandle epoch)).setTask fun _ => ?_
    exact (keeps_closeHandle epoch).openGate.trans (gated t (by rw [ht]; rfl))
  · exact gated

theorem Gated.resetClosing (t : T) : (s.resetClosing t).Gated := by
  simp only [State.resetClosing]
  split
  · next store retired ht => exact gated.setHolder ht rfl
  · next ht => exact gated.setHolder ht rfl
  · next ht => exact gated.setHolder ht rfl
  · exact gated

theorem Gated.unlock (t : T) : (s.unlock t).Gated := by
  unfold State.unlock
  split
  · next ht => exact gated.leave ht rfl rfl
  · next store ht => exact gated.leave ht rfl rfl
  · exact gated

theorem Gated.cancel (t : T) : (s.cancel t).Gated := by
  unfold State.cancel
  split
  · exact gated.setTask nofun
  · next store epoch ht => exact gated.leave ht rfl rfl
  · exact gated

theorem Gated.stopRuntime : (s.stopRuntime t).Gated := by
  unfold State.stopRuntime
  split
  · exact gated.setTask nofun
  · next release epoch ht => exact gated.leave ht rfl rfl
  · exact gated

end

end Gated

theorem gated_initial : (initial : State S T R).Gated := nofun

variable [DecidableEq S] [DecidableEq T] [DecidableEq R]

/-- At most one task holds the gate, whatever happens. -/
theorem Gated.exec (gated : s.Gated) (feasible : s.Feasible event) : (s.exec event).Gated := by
  cases event with
  | release => exact gated.release
  | promote =>
    simp only [State.exec, State.promote]
    split
    · exact gated
    · split
      · exact gated
      · exact gated.setTask nofun
  | retire => exact gated.setTask nofun
  | grant => exact gated.grant feasible
  | check t => exact gated.check t
  | opened => exact gated.opened
  | openFailed =>
    simp only [State.exec]
    split
    · next store ht => exact gated.setHolder ht rfl
    · exact gated
  | install => exact gated.install
  | setClosing =>
    simp only [State.exec, State.setClosing]
    split
    · next store ht => exact gated.setHolder ht rfl
    · exact gated
  | take t => exact gated.take t
  | closed t success => exact gated.closed t success
  | resetClosing t => exact gated.resetClosing t
  | unlock t => exact gated.unlock t
  | count =>
    simp only [State.exec, State.count]
    split
    · exact gated.setTask nofun
    · exact gated
  | cancel t => exact gated.cancel t
  | stopRuntime => exact gated.stopRuntime
  | fence epoch => exact gated.keeps (keeps_closeHandle epoch)
  | clearClosed store => exact gated.keeps (keeps_clearClosed store)
  | commit epoch => exact gated.keeps (keeps_commit epoch)
  | pickWriter r => exact gated.keeps (keeps_pickWriter r)
  | useWriter => exact gated.keeps keeps_useWriter
  | pickReader r => exact gated.keeps (keeps_pickReader r)
  | useReader r => exact gated.keeps (keeps_useReader r)
  | missing =>
    simp only [State.exec]
    split <;> exact gated
  | _ => exact gated

end State

end HydraDb.ProcessWriter
