import HydraDb.Cluster.ProcessWriterGate
import HydraDb.Cluster.ProcessWriterStore
import HydraDb.Lib.Epochs

/-!
# Reads do not go back when the writer goes away

While a handle is visible, it has everything that the process has acknowledged or served, and when
it is withdrawn every store is marked. So a read is served what it must be (`reads_never_go_back`),
as long as it does not fall back to a marked store.

The mark is not in the code. A retirement hides the handle first and raises the generation of its
own store last, and the other stores of the process raise theirs only when they find the closed
handle themselves. `Counted` is the condition that the store which is read has no mark.
-/

namespace HydraDb.ProcessWriter

/-- The read does not fall back to a marked store. -/
def Read.Counted {S : Type} (stores : S → GraphStore) : Read S → Prop
  | .reader store _ => (stores store).stale = false
  | _ => True

instance {S : Type} (stores : S → GraphStore) (read : Read S) :
    Decidable (read.Counted stores) := by
  cases read <;> dsimp only [Read.Counted] <;> infer_instance

/-! ## The invariant -/

namespace State

variable {S T R : Type} {s s' : State S T R}

variable {b : StorageSequence} {store : S} {t : T}

/-- A call that falls back to the reader of the store reaches the sequence. A store that is being
closed refuses the call. -/
def FallsBack (s : State S T R) (store : S) (b : StorageSequence) : Prop :=
  (s.stores store).retiring = true ∨ (s.stores store).Sees b

/-- What holds of a read. -/
def ReadOk (s : State S T R) : Read S → Prop
  | .idle => True
  | .writer store floor => (s.stores store).registered = true ∧ floor ≤ s.floor
  | .handle store floor epoch =>
    (s.stores store).registered = true ∧ floor ≤ s.floor ∧
      (∃ h, s.handles epoch = some h ∧ h.installed = true ∧ floor ≤ h.durable) ∧
        (s.writer = some epoch ∨ s.FallsBack store floor)
  | .reader store floor =>
    (s.stores store).registered = true ∧ floor ≤ s.floor ∧ s.FallsBack store floor
  | .ready store floor => (s.stores store).registered = true ∧ (s.stores store).ReaderAt floor
  | .served floor sequence => floor ≤ sequence

/-- The handle has everything that a read may ask for, and no handle above it has been in the
slot. -/
structure Leads (handles : Nat → Option (WriterHandle S)) (floor : StorageSequence) (epoch : Nat)
    (installed : Bool) : Prop where
  handle : ∃ h, handles epoch = some h ∧ h.installed = installed ∧ floor ≤ h.durable
  last : ∀ epoch' h', handles epoch' = some h' → h'.installed = true → epoch' ≤ epoch

/-- The invariant of the handles, the stores and the reads. -/
structure ReadsOk (s : State S T R) : Prop where
  floor_le : s.floor ≤ s.durable
  bound : ∀ epoch h, s.handles epoch = some h → epoch ≤ s.epoch ∧ h.durable ≤ s.durable
  /-- The last writer knows everything that is durable. -/
  current : ∀ h, s.handles s.epoch = some h → h.durable = s.durable
  monotone : ∀ epoch h epoch' h', s.handles epoch = some h → s.handles epoch' = some h' →
    epoch ≤ epoch' → h.durable ≤ h'.durable
  slot : ∀ epoch, s.writer = some epoch → Leads s.handles s.floor epoch true
  installing : ∀ t store epoch, s.tasks t = .promoteInstalling store epoch →
    Leads s.handles s.floor epoch false
  /-- A promotion opens a handle while none is visible. -/
  opening : ∀ t, (s.tasks t).opens.isSome = true → s.visible = none
  stores : ∀ store, (s.stores store).Ok
  hidden : s.visible = none → ∀ store, (s.stores store).Sees s.floor
  reads : ∀ r, s.ReadOk (s.reads r)

section

variable (ok : s.ReadsOk)

include ok

/-- The condition: a read uses the reader of a store only if the store is not marked. -/
def Counted (s : State S T R) : Event S T R → Prop
  | .pickReader r => (s.reads r).Counted s.stores
  | _ => True

instance (s : State S T R) (event : Event S T R) : Decidable (s.Counted event) := by
  apply event.casesOn (motive := fun event => Decidable (s.Counted event)) <;> intros <;>
    dsimp only [Counted] <;> infer_instance

/-! ## Changes of one part of the state -/

theorem ReadsOk.read {read : Read S} (hr : s.reads r = read) : s.ReadOk read :=
  hr ▸ ok.reads r

/-- While no handle is visible, every store can be fallen back to. -/
theorem ReadsOk.fallsBack (h : s.visible = none) (hb : b ≤ s.floor) : s.FallsBack store b :=
  .inr ((ok.hidden h store).mono hb)

/-- The stores change. -/
theorem ReadsOk.changeStores {stores : S → GraphStore}
    (h : ∀ store, GraphStore.Change s.durable (s.stores store) (stores store)) :
    ({ s with stores := stores }).ReadsOk := by
  have back {store : S} {b : StorageSequence} (hb : b ≤ s.floor) (hback : s.FallsBack store b) :
      State.FallsBack { s with stores := stores } store b :=
    hback.imp (h store).retiring fun sees =>
      sees.change (ok.stores store) (hb.trans ok.floor_le) (h store)
  refine { ok with stores := ?_, hidden := ?_, reads := ?_ }
  · exact fun store => (ok.stores store).change (h store)
  · exact fun hv store => (ok.hidden hv store).change (ok.stores store) ok.floor_le (h store)
  intro r
  have hread := ok.reads r
  cases hr : s.reads r with
    rw [hr] at hread
  | idle => trivial
  | writer store =>
    exact ⟨(h store).registered hread.1, hread.2⟩
  | handle store =>
    obtain ⟨hregistered, hfloor, hhandle, hback⟩ := hread
    exact ⟨(h store).registered hregistered, hfloor, hhandle, hback.imp_right (back hfloor)⟩
  | reader store =>
    obtain ⟨hregistered, hfloor, hback⟩ := hread
    exact ⟨(h store).registered hregistered, hfloor, back hfloor hback⟩
  | ready store =>
    exact ⟨(h store).registered hread.1, hread.2.change (ok.stores store) (h store)⟩
  | served =>
    exact hread

/-- One store changes. -/
theorem ReadsOk.setStore [DecidableEq S]
    (h : GraphStore.Change s.durable (s.stores store) g) : (s.setStore store g).ReadsOk := by
  refine ok.changeStores fun x => ?_
  by_cases hx : x = store
  · subst hx
    simpa using h
  · simpa [hx] using GraphStore.Change.same

/-- A task goes on. -/
theorem ReadsOk.setTask [DecidableEq T]
    (hinstalling : ∀ store epoch, task = .promoteInstalling store epoch →
      Leads s.handles s.floor epoch false) (hopens : task.opens.isSome = true → s.visible = none) :
    (s.setTask t task).ReadsOk := by
  refine { ok with installing := ?_, opening := ?_ }
  · intro t' store epoch ht'
    by_cases ht : t' = t
    · exact hinstalling store epoch (by simpa [State.setTask, ht] using ht')
    · exact ok.installing t' store epoch (by simpa [State.setTask, ht] using ht')
  · intro t' ht'
    by_cases ht : t' = t
    · exact hopens (by simpa [State.setTask, ht] using ht')
    · exact ok.opening t' (by simpa [State.setTask, ht] using ht')

/-- A task goes on that opens no handle. -/
theorem ReadsOk.setOther [DecidableEq T] (h : task.opens = none) :
    (s.setTask t task).ReadsOk := by
  refine ok.setTask (fun store epoch ht => ?_) fun hopens => ?_
  · subst ht
    cases h
  · rw [h] at hopens
    cases hopens

/-- A read goes on. -/
theorem ReadsOk.setRead [DecidableEq R] {read : Read S}
    (h : s.ReadOk read) : (s.setRead r read).ReadsOk := by
  refine { ok with reads := fun r' => ?_ }
  by_cases hr : r' = r
  · have hread : (s.setRead r read).reads r' = read := by simp [State.setRead, hr]
    rw [hread]
    exact h
  · have hread : (s.setRead r read).reads r' = s.reads r' := by simp [State.setRead, hr]
    rw [hread]
    exact ok.reads r'

/-- The handle is hidden or taken from the slot, and every store is marked. -/
theorem ReadsOk.hide {closing : Bool} {writer : Option Nat}
    (hwriter : ∀ epoch, writer = some epoch → s.writer = some epoch)
    (hvisible : State.visible { s with closing := closing, writer := writer } = none) :
    (State.expose { s with closing := closing, writer := writer }).ReadsOk := by
  have exposed : (State.expose s).ReadsOk := ok.changeStores fun _ => .exposed
  refine { exposed with
    slot := fun epoch h => ok.slot epoch (hwriter epoch h)
    opening := fun _ _ => hvisible
    hidden := fun _ store => GraphStore.sees_expose
    reads := fun r => ?_ }
  have hread := exposed.reads r
  show State.ReadOk _ (s.reads r)
  cases hr : s.reads r with
    rw [show (State.expose s).reads r = s.reads r from rfl, hr] at hread
  | handle =>
    obtain ⟨hregistered, hfloor, hhandle, -⟩ := hread
    exact ⟨hregistered, hfloor, hhandle, .inr (.inr GraphStore.sees_expose)⟩
  | _ => exact hread

/-- The flag is reset while no promotion opens a handle. -/
theorem ReadsOk.show (gate : Option T) (hopens : ∀ t, (s.tasks t).opens = none) :
    ({ s with closing := false, openGate := gate }).ReadsOk := by
  refine { ok with opening := fun t h => ?_, hidden := fun h => ?_ }
  · rw [hopens t] at h
    cases h
  · have hwriter : s.writer = none := h
    exact ok.hidden (by simp [State.visible, hwriter])

end

/-! ## Handles and the floor -/

/-- A read that is under way does not mind that handles learn of more and stores are registered. -/
theorem ReadOk.mono {read : Read S} (h : s.ReadOk read)
    (hstores : ∀ store, (s.stores store).registered = true → s'.stores store = s.stores store)
    (hwriter : s'.writer = s.writer) (hfloor : s.floor ≤ s'.floor)
    (hhandles : ∀ epoch h, s.handles epoch = some h → h.installed = true →
      ∃ h', s'.handles epoch = some h' ∧ h'.installed = true ∧ h.durable ≤ h'.durable) :
    s'.ReadOk read := by
  cases read with
  | idle | served => exact h
  | writer store =>
    simp only [State.ReadOk, hstores store h.1]
    exact ⟨h.1, h.2.trans hfloor⟩
  | handle store floor epoch =>
    obtain ⟨hregistered, hle, ⟨h, hh, hinstalled, hdurable⟩, hback⟩ := h
    obtain ⟨h', hh', hinstalled', hdurable'⟩ := hhandles epoch h hh hinstalled
    simp only [State.ReadOk, State.FallsBack, hstores store hregistered, hwriter]
    exact ⟨hregistered, hle.trans hfloor, ⟨h', hh', hinstalled', hdurable.trans hdurable'⟩, hback⟩
  | reader store =>
    simp only [State.ReadOk, State.FallsBack, hstores store h.1]
    exact ⟨h.1, h.2.1.trans hfloor, h.2.2⟩
  | ready store =>
    simp only [State.ReadOk, hstores store h.1]
    exact h

/-- The floor is raised to what every leading handle has. -/
theorem ReadsOk.setFloor (ok : s.ReadsOk) {floor : StorageSequence} (hle : s.floor ≤ floor)
    (hdurable : floor ≤ s.durable)
    (hleads : ∀ epoch installed, Leads s.handles s.floor epoch installed →
      Leads s.handles floor epoch installed)
    (hidden : s.visible = none → ∀ store, (s.stores store).Sees floor) :
    ({ s with floor := floor }).ReadsOk :=
  { ok with
    floor_le := hdurable
    slot := fun epoch h => hleads epoch true (ok.slot epoch h)
    installing := fun t store epoch h => hleads epoch false (ok.installing t store epoch h)
    hidden := hidden
    reads := fun r => (ok.reads r).mono (fun _ _ => rfl) rfl hle
      fun _ h hh hi => ⟨h, hh, hi, le_rfl⟩ }

/-- The writer works up to a sequence that every leading handle has. -/
theorem ReadsOk.raiseFloor {sequence} (ok : s.ReadsOk) (hdurable : sequence ≤ s.durable)
    (hleads : ∀ epoch installed, Leads s.handles s.floor epoch installed →
      Leads s.handles (max s.floor sequence) epoch installed) :
    (s.raiseFloor sequence).ReadsOk := by
  have hle := Nat.le_max_left s.floor sequence
  have hmax := Nat.max_le.2 ⟨ok.floor_le, hdurable⟩
  simp only [State.raiseFloor]
  split
  · next hvisible =>
    refine ok.setFloor hle hmax hleads fun hnone => ?_
    have hsome : s.visible.isSome = true := hvisible
    simp [hnone] at hsome
  · have exposed : s.expose.ReadsOk := ok.changeStores fun _ => .exposed
    exact exposed.setFloor hle hmax hleads fun _ store => GraphStore.sees_expose

/-! ### One handle changes -/

section Handles

variable {handles : Nat → Option (WriterHandle S)} {epoch : Nat} {floor : StorageSequence}
  {w : WriterHandle S} {installed : Bool}

/-- The part of the invariant that is about the sequences of the handles. -/
abbrev HandlesOk (handles : Nat → Option (WriterHandle S)) (last : Nat)
    (durable : StorageSequence) : Prop := Epochs.Ok WriterHandle.durable handles last durable

/-- What a handle may become while another one leads: it learns of more, or it is new. -/
def Grows (old : Option (WriterHandle S)) (w : WriterHandle S) : Prop :=
  match old with
  | some x => w.installed = x.installed ∧ x.durable ≤ w.durable
  | none => w.installed = false

theorem Leads.update (hl : Leads handles floor e installed) (hgrows : Grows (handles epoch) w) :
    Leads (Function.update handles epoch (some w)) floor e installed := by
  obtain ⟨x, hx, hinstalled, hfloor⟩ := hl.handle
  refine ⟨?_, fun e' y hy hyi => ?_⟩
  · by_cases he : e = epoch
    · subst he
      rw [hx] at hgrows
      exact ⟨w, Function.update_self .., hgrows.1.trans hinstalled, hfloor.trans hgrows.2⟩
    · exact ⟨x, (Function.update_of_ne he ..).trans hx, hinstalled, hfloor⟩
  · rcases Epochs.update_eq_some_iff.1 hy with ⟨rfl, rfl⟩ | ⟨-, hy⟩
    · cases hold : handles e' with
      | none =>
        rw [hold] at hgrows
        cases hgrows.symm.trans hyi
      | some y =>
        rw [hold] at hgrows
        exact hl.last e' y hold (hgrows.1.symm.trans hyi)
    · exact hl.last e' y hy hyi

end Handles

section

variable (ok : s.ReadsOk)

include ok

/-- A handle is opened, closed or learns of more. -/
theorem ReadsOk.setHandle {epoch : Nat} {durable : StorageSequence}
    (hok : HandlesOk (Function.update s.handles epoch (some w)) last durable)
    (hle : s.durable ≤ durable) (hgrows : Grows (s.handles epoch) w) :
    (({ s with epoch := last, durable := durable }).setHandle epoch w).ReadsOk :=
  { ok with
    floor_le := ok.floor_le.trans hle
    bound := hok.bound
    current := hok.current
    monotone := hok.monotone
    slot := fun e he => (ok.slot e he).update hgrows
    installing := fun t store e ht => (ok.installing t store e ht).update hgrows
    hidden := ok.hidden
    reads := fun r => (ok.reads r).mono (fun _ _ => rfl) rfl le_rfl fun e x hx hi => by
      by_cases he : e = epoch
      · subst he
        rw [hx] at hgrows
        exact ⟨w, Function.update_self .., hgrows.1.trans hi, hgrows.2⟩
      · exact ⟨x, (Function.update_of_ne he ..).trans hx, hi, le_rfl⟩ }

theorem ReadsOk.handles : HandlesOk s.handles s.epoch s.durable :=
  ⟨ok.bound, ok.current, ok.monotone⟩

/-- A handle is closed. -/
theorem ReadsOk.closeHandle (epoch : Nat) :
    (match s.handles epoch with
      | some h => s.setHandle epoch { h with closed := true }
      | none => s).ReadsOk := by
  split
  · next h hh =>
    refine ok.setHandle (ok.handles.keep hh rfl) le_rfl ?_
    rw [hh]
    exact ⟨rfl, le_rfl⟩
  · exact ok

/-- A commit of the last writer. -/
theorem ReadsOk.commit (epoch : Nat) : (s.commit epoch).ReadsOk := by
  unfold State.commit
  split
  · next h hh =>
    split
    · next hopen =>
      obtain ⟨-, hinstalled, rfl⟩ := hopen
      have hle : s.durable ≤ s.durable + 1 := Nat.le_succ _
      have htop := ok.handles.top (w := { h with durable := s.durable + 1 }) le_rfl hle rfl
      have grown : (({ s with durable := s.durable + 1 }).setHandle s.epoch
          { h with durable := s.durable + 1 }).ReadsOk := by
        refine ok.setHandle htop hle ?_
        rw [hh]
        exact ⟨rfl, (ok.bound _ h hh).2.trans hle⟩
      refine grown.raiseFloor le_rfl fun e installed hl => ⟨?_, hl.last⟩
      -- the handle that leads is the one that commits, for it is the last that was installed
      obtain ⟨x, hx, hi, -⟩ := hl.handle
      have he : e = s.epoch :=
        le_antisymm (htop.bound e x hx).1 (hl.last s.epoch _ (Function.update_self ..) hinstalled)
      subst he
      exact ⟨x, hx, hi, (htop.current x hx).symm ▸ Nat.max_le.2 ⟨grown.floor_le, le_rfl⟩⟩
    · exact ok
  · exact ok

/-- A snapshot of a handle that has been in the slot. -/
theorem ReadsOk.serve {epoch : Nat} (hh : s.handles epoch = some h)
    (hinstalled : h.installed = true) : (s.raiseFloor h.durable).ReadsOk := by
  refine ok.raiseFloor (ok.bound epoch h hh).2 fun e installed hl => ⟨?_, hl.last⟩
  obtain ⟨x, hx, hi, hfloor⟩ := hl.handle
  have hle : h.durable ≤ x.durable :=
    ok.monotone epoch h e x hh hx (hl.last epoch h hh hinstalled)
  exact ⟨x, hx, hi, Nat.max_le.2 ⟨hfloor, hle⟩⟩

/-- A promotion opens a handle. -/
theorem ReadsOk.opened [DecidableEq T] : (s.opened t).ReadsOk := by
  unfold State.opened
  split
  · next store ht =>
    have hnone : s.handles (s.epoch + 1) = none := by
      refine Option.eq_none_iff_forall_ne_some.2 fun x hx => ?_
      exact absurd (ok.bound _ x hx).1 (Nat.not_succ_le_self _)
    have htop := ok.handles.top (w := ⟨store, s.durable, false, false⟩) (Nat.le_succ _) le_rfl rfl
    have opened : (({ s with epoch := s.epoch + 1 }).setHandle (s.epoch + 1)
        ⟨store, s.durable, false, false⟩).ReadsOk := by
      refine ok.setHandle htop le_rfl ?_
      rw [hnone]
      rfl
    refine opened.setTask (fun store' epoch heq => ?_) fun _ => ok.opening t (by rw [ht]; rfl)
    cases heq
    exact ⟨⟨_, Function.update_self .., rfl, ok.floor_le⟩, fun e y hy _ => (htop.bound e y hy).1⟩
  · exact ok

/-- The new handle is put in the slot. A handle that it replaces was hidden. -/
theorem ReadsOk.install [DecidableEq T] (gated : s.Gated) : (s.install t).ReadsOk := by
  unfold State.install
  split
  · next store epoch ht =>
    split
    · next h hh =>
      have hleads := ok.installing t store epoch ht
      have hhidden := ok.opening t (by rw [ht]; rfl)
      have alone {t' : T} (hne : t' ≠ t) : (s.tasks t').opens = none := by
        cases hopens : (s.tasks t').opens with
        | none => rfl
        | some => exact absurd (gated.eq_of_busy ht rfl (.inr (by rw [hopens]; rfl))) hne
      have leads : Leads (Function.update s.handles epoch (some { h with installed := true }))
          s.floor epoch true := by
        obtain ⟨x, hx, -, hfloor⟩ := hleads.handle
        cases hh.symm.trans hx
        refine ⟨⟨_, Function.update_self .., rfl, hfloor⟩, fun e y hy hyi => ?_⟩
        rcases Epochs.update_eq_some_iff.1 hy with ⟨rfl, -⟩ | ⟨-, hy⟩
        · exact le_rfl
        · exact hleads.last e y hy hyi
      have hnone t' : ((s.setTask t (.unlocking none)).tasks t').opens = none := by
        by_cases hne : t' = t
        · simp [State.setTask, hne, Task.opens]
        · simpa [State.setTask, hne] using alone hne
      have hkeep := ok.handles.keep hh (w := { h with installed := true }) rfl
      refine { ok with
        bound := hkeep.bound
        current := hkeep.current
        monotone := hkeep.monotone
        slot := fun e he => ?_
        installing := fun t' store' e ht' => ?_
        opening := fun t' ht' => ?_
        hidden := fun _ => ok.hidden hhidden
        reads := fun r => ?_ }
      · cases he
        exact leads
      · have hopens := hnone t'
        rw [show (s.setTask t (.unlocking none)).tasks t' = .promoteInstalling store' e from ht']
          at hopens
        cases hopens
      · have hopens : ((s.setTask t (.unlocking none)).tasks t').opens.isSome = true := ht'
        rw [hnone t'] at hopens
        cases hopens
      -- a read with a handle from the slot falls back to its store once the slot is replaced
      show State.ReadOk _ (s.reads r)
      have hread := ok.reads r
      cases hr : s.reads r with
        rw [hr] at hread
      | handle store' floor e =>
        obtain ⟨hregistered, hfloor, ⟨x, hx, hi, hd⟩, -⟩ := hread
        refine ⟨hregistered, hfloor, ?_, .inr (ok.fallsBack hhidden hfloor)⟩
        by_cases he : e = epoch
        · subst he
          cases hh.symm.trans hx
          exact ⟨_, Function.update_self .., rfl, hd⟩
        · exact ⟨x, (Function.update_of_ne he ..).trans hx, hi, hd⟩
      | _ => exact hread
    · exact ok
  · exact ok

/-! ## Every event -/

/-- A closed handle is taken from the slot by a store that counts it. -/
theorem ReadsOk.clearClosed [DecidableEq S] : (s.clearClosed store).ReadsOk := by
  unfold State.clearClosed
  split
  · have hidden : (State.expose { s with writer := none }).ReadsOk :=
      ok.hide nofun (by simp [State.visible])
    exact hidden.setStore .raised
  · exact ok

/-- The store that has counted a closed handle can be fallen back to. -/
theorem ReadsOk.fallsBack_clearClosed [DecidableEq S] (h : s.writer.any s.handleClosed = true) :
    (s.clearClosed store).FallsBack store b := by
  unfold State.clearClosed
  rw [if_pos h]
  refine .inr ?_
  have hstore : ((State.expose { s with writer := none }).setStore store
      (s.stores store).expose.raiseGeneration).stores store =
        (s.stores store).expose.raiseGeneration := by simp [State.setStore]
  rw [hstore]
  exact ⟨fun _ => ((ok.stores store).expose).reaches_raiseGeneration,
    fun seen hseen => GraphStore.sees_expose.fresh seen hseen⟩

end

@[simp]
theorem floor_clearClosed [DecidableEq S] : (s.clearClosed store).floor = s.floor := by
  unfold State.clearClosed
  split <;> rfl

section

variable (ok : s.ReadsOk)

include ok

/-- A store that could be fallen back to still can when it looks for a closed handle. -/
theorem ReadsOk.fallsBack_of_clearClosed [DecidableEq S] (h : s.FallsBack store b) :
    (s.clearClosed store).FallsBack store b := by
  by_cases hany : s.writer.any s.handleClosed = true
  · exact ok.fallsBack_clearClosed hany
  · unfold State.clearClosed
    rw [if_neg hany]
    exact h

/-- A store is registered, which no read uses yet. -/
theorem ReadsOk.register [DecidableEq S] (h : (s.stores store).registered = false) :
    (s.register store).ReadsOk := by
  have off {x : S} (hx : (s.stores x).registered = true) :
      (s.register store).stores x = s.stores x := by
    have hne : x ≠ store := by
      rintro rfl
      simp [h] at hx
    simp [State.register, State.setStore, hne]
  have fresh x : (s.register store).stores x = s.stores x ∨
      ((s.register store).stores x).Ok ∧ ∀ b, ((s.register store).stores x).Sees b := by
    by_cases hx : x = store
    · refine .inr ?_
      have hstore : (s.register store).stores x =
          { GraphStore.unregistered with
            registered := true, writerOwnerActive := true, registeredAfter := s.releases } := by
        simp [State.register, State.setStore, hx]
      rw [hstore]
      exact ⟨.idle le_rfl rfl, fun b =>
        ⟨fun _ => ⟨by rintro _ ⟨⟩, by rintro _ _ ⟨⟩, by rintro _ _ _ ⟨⟩⟩, by rintro _ ⟨⟩⟩⟩
    · exact .inl (by simp [State.register, State.setStore, hx])
  refine { ok with stores := fun x => ?_, hidden := fun hv x => ?_, reads := fun r => ?_ }
  · rcases fresh x with heq | hnew
    · rw [heq]
      exact ok.stores x
    · exact hnew.1
  · rcases fresh x with heq | hnew
    · rw [heq]
      exact ok.hidden hv x
    · exact hnew.2 s.floor
  · exact (ok.reads r).mono (fun _ hx => off hx) rfl le_rfl fun _ h hh hi => ⟨h, hh, hi, le_rfl⟩

theorem ReadsOk.release [DecidableEq S] [DecidableEq T] : (s.release store t).ReadsOk := by
  simp only [State.release]
  split
  · have left : (({ s with owners := s.owners - 1 }).setStore store
        { s.stores store with writerOwnerActive := false }).ReadsOk := by
      have fewer : ({ s with owners := s.owners - 1 }).ReadsOk := { ok with }
      exact fewer.setStore (.flags (s.stores store).retiring false id)
    split
    · have hidden := left.hide (fun _ h => h) (by simp [State.visible] : State.visible
        { (({ s with owners := s.owners - 1 }).setStore store
          { s.stores store with writerOwnerActive := false }) with closing := true } = none)
      have counted : (({ (({ s with owners := s.owners - 1 }).setStore store
          { s.stores store with writerOwnerActive := false }) with
            closing := true, releases := s.releases + 1 }).expose).ReadsOk := { hidden with }
      exact counted.setOther rfl
    · exact left
  · exact ok

theorem ReadsOk.grant [DecidableEq T] : (s.grant t).ReadsOk := by
  have locked : ({ s with openGate := some t }).ReadsOk := { ok with }
  simp only [State.grant]
  split
  · exact locked.setOther rfl
  · exact locked.setOther rfl
  · exact locked.setOther rfl
  · exact locked.setOther rfl
  · exact ok

/-- A promotion that passes its last check found no visible handle. -/
theorem ReadsOk.check [DecidableEq T] (t : T) : (s.check t).ReadsOk := by
  unfold State.check
  split
  · next store ht =>
    split
    · exact ok.setOther rfl
    next hretiring =>
    split
    · exact ok.setOther rfl
    · next hnone =>
      refine ok.setTask nofun fun _ => ?_
      simpa [State.openWriter, hretiring, State.visible] using hnone
  · exact ok

theorem ReadsOk.setClosing [DecidableEq T] (t : T) : (s.setClosing t).ReadsOk := by
  unfold State.setClosing
  split
  · have hidden : (State.expose { s with closing := true }).ReadsOk :=
      ok.hide (fun _ h => h) (by simp [State.visible])
    exact hidden.setOther rfl
  · exact ok

theorem ReadsOk.take [DecidableEq T] (t : T) : (s.take t).ReadsOk := by
  have emptied cleaned :
      ({ ({ s with writer := none }).expose with cleaned := cleaned }).ReadsOk := by
    have hidden : (State.expose { s with writer := none }).ReadsOk :=
      ok.hide nofun (by simp [State.visible])
    exact { hidden with }
  simp only [State.take]
  split
  · split
    · exact (emptied s.cleaned).setOther rfl
    · exact ok.setOther rfl
  · split
    · exact (emptied _).setOther rfl
    · exact ok.setOther rfl
  · split
    · exact (emptied _).setOther rfl
    · exact ok.setOther rfl
  · exact ok

theorem ReadsOk.closed [DecidableEq T] (t : T) (success : Bool) : (s.closed t success).ReadsOk := by
  simp only [State.closed]
  split
  · exact (ok.closeHandle _).setOther rfl
  · exact (ok.closeHandle _).setOther rfl
  · exact ok

end

/-- While a task other than a promotion holds the gate, no promotion opens a handle. -/
theorem Gated.opens_none (gated : s.Gated) (ht : s.tasks t = task) (hholds : task.holdsGate = true)
    (h : task.opens = none) (t' : T) : (s.tasks t').opens = none := by
  cases hopens : (s.tasks t').opens with
  | none => rfl
  | some =>
    cases gated.eq_of_busy ht hholds (.inr (by rw [hopens]; rfl))
    rw [ht, h] at hopens
    cases hopens

section

variable (ok : s.ReadsOk)

include ok

theorem ReadsOk.resetClosing [DecidableEq T] (gated : s.Gated) (t : T) :
    (s.resetClosing t).ReadsOk := by
  have reset {task : Task S} (ht : s.tasks t = task) hholds
      h : ({ s with closing := false }).ReadsOk :=
    ok.show s.openGate (gated.opens_none ht hholds h)
  simp only [State.resetClosing]
  split
  · next store retired ht => exact (reset ht rfl rfl).setOther rfl
  · next ht => exact (reset ht rfl rfl).setOther rfl
  · next ht => exact (reset ht rfl rfl).setOther rfl
  · exact ok

theorem ReadsOk.pickWriter [DecidableEq S] [DecidableEq R] : (s.pickWriter r).ReadsOk := by
  unfold State.pickWriter
  split
  · next store floor hr =>
    obtain ⟨hregistered, hfloor⟩ := ok.read hr
    split
    · next hnone =>
      refine ok.setRead ⟨hregistered, hfloor, ?_⟩
      cases hretiring : (s.stores store).retiring with
      | true => exact .inl hretiring
      | false =>
        refine ok.fallsBack ?_ hfloor
        simpa [State.openWriter, hretiring, State.visible] using hnone
    next epoch hsome =>
    have hwriter : s.writer = some epoch := by
      unfold State.openWriter at hsome
      split at hsome
      · cases hsome
      · exact hsome
    split
    · next hclosed =>
      have hany : s.writer.any s.handleClosed = true := by simpa [hwriter] using hclosed
      have k := keeps_clearClosed (s := s) store
      refine ok.clearClosed.setRead
        ⟨(k.registered store hregistered).1, ?_, ok.fallsBack_clearClosed hany⟩
      rw [floor_clearClosed]
      exact hfloor
    · obtain ⟨h, hh, hinstalled, hle⟩ := (ok.slot epoch hwriter).handle
      exact ok.setRead ⟨hregistered, hfloor, ⟨h, hh, hinstalled, hfloor.trans hle⟩, .inl hwriter⟩
  · exact ok

theorem ReadsOk.useWriter [DecidableEq S] [DecidableEq R] : (s.useWriter r).ReadsOk := by
  unfold State.useWriter
  split
  · next store floor epoch hr =>
    obtain ⟨hregistered, hfloor, ⟨h, hh, hinstalled, hle⟩, hback⟩ := ok.read hr
    split
    · exact ok
    next h' hh' =>
    cases hh.symm.trans hh'
    split
    · next hclosed =>
      have k := keeps_clearClosed (s := s) store
      refine ok.clearClosed.setRead ⟨(k.registered store hregistered).1, ?_, ?_⟩
      · rw [floor_clearClosed]
        exact hfloor
      rcases hback with hwriter | hback
      · refine ok.fallsBack_clearClosed ?_
        simpa [hwriter, State.handleClosed, hh] using hclosed
      · exact ok.fallsBack_of_clearClosed hback
    · have served : (s.raiseFloor h.durable).ReadsOk := ok.serve hh hinstalled
      exact served.setRead hle
  · exact ok

theorem ReadsOk.pickReader [DecidableEq R] (counted : s.Counted (.pickReader r)) :
    (s.pickReader r).ReadsOk := by
  simp only [State.pickReader]
  split
  · next store floor hr =>
    rw [State.Counted, hr] at counted
    obtain ⟨hregistered, -, hback⟩ := ok.read hr
    split
    · exact ok.setRead trivial
    next hretiring =>
    split
    · next hready =>
      obtain ⟨hsome, hgeneration⟩ := hready
      obtain ⟨view, hview⟩ := Option.isSome_iff_exists.1 hsome
      refine ok.setRead ⟨hregistered, view, hview, ?_⟩
      have sees := hback.resolve_left hretiring
      exact (sees.reaches counted).reader view hview hgeneration
    · exact ok
  · exact ok

theorem ReadsOk.useReader [DecidableEq R] : (s.useReader r).ReadsOk := by
  unfold State.useReader
  split
  · next store floor hr =>
    obtain ⟨-, view, hview, hle⟩ := ok.read hr
    split
    · next sequence hsequence =>
      cases hview.symm.trans hsequence
      exact ok.setRead hle
    · exact ok
  · exact ok

end

theorem readsOk_initial : (initial : State S T R).ReadsOk where
  floor_le := le_rfl
  bound _ _ h := nomatch h
  current _ h := nomatch h
  monotone _ _ _ _ h := nomatch h
  slot _ h := nomatch h
  installing _ _ _ h := nomatch h
  opening _ h := nomatch h
  stores _ := ⟨le_rfl, nofun, nofun⟩
  hidden _ _ := ⟨fun _ => ⟨nofun, nofun, nofun⟩, nofun⟩
  reads _ := trivial

variable [DecidableEq S] [DecidableEq T] [DecidableEq R]

/-- Every event that can happen and meets the condition keeps the invariant. -/
theorem ReadsOk.exec (ok : s.ReadsOk) (gated : s.Gated)
    (feasible : s.Feasible event) (counted : s.Counted event) : (s.exec event).ReadsOk := by
  cases event with
  | register => exact ok.register feasible
  | beginClose => exact ok.setStore (.flags true _ fun _ => rfl)
  | release => exact ok.release
  | promote =>
    simp only [State.exec, State.promote]
    split
    · exact ok
    · split
      · exact ok
      · exact ok.setOther rfl
  | retire => exact ok.setOther rfl
  | grant => exact ok.grant
  | check t => exact ok.check t
  | opened => exact ok.opened
  | openFailed =>
    simp only [State.exec]
    split
    · exact ok.setOther rfl
    · exact ok
  | install => exact ok.install gated
  | setClosing t => exact ok.setClosing t
  | take t => exact ok.take t
  | closed t success => exact ok.closed t success
  | resetClosing t => exact ok.resetClosing gated t
  | unlock =>
    have unlocked : ({ s with openGate := none }).ReadsOk := { ok with }
    simp only [State.exec, State.unlock]
    split
    · exact unlocked.setOther rfl
    · exact unlocked.setOther rfl
    · exact ok
  | count =>
    simp only [State.exec, State.count]
    split
    · next store ht =>
      have raised : (s.setStore store (s.stores store).raiseGeneration).ReadsOk :=
        ok.setStore .raised
      exact raised.setOther rfl
    · exact ok
  | cancel =>
    simp only [State.exec, State.cancel]
    split
    · exact ok.setOther rfl
    · next store epoch ht =>
      exact (ok.show none (gated.opens_none ht rfl rfl)).setOther rfl
    · exact ok
  | stopRuntime =>
    have unlocked : ({ s with openGate := none }).ReadsOk := { ok with }
    simp only [State.exec, State.stopRuntime]
    split
    · exact ok.setOther rfl
    · exact unlocked.setOther rfl
    · exact ok
  | rivalOpen =>
    refine { ok with
      bound := fun epoch h hh => (ok.bound epoch h hh).imp_left fun hle => hle.trans (Nat.le_succ _)
      current := fun h hh => ?_ }
    exact absurd (ok.bound _ h hh).1 (Nat.not_succ_le_self _)
  | rivalCommit =>
    refine { ok with
      floor_le := ok.floor_le.trans (Nat.le_succ _)
      bound := fun epoch h hh => (ok.bound epoch h hh).imp_right fun hle =>
        hle.trans (Nat.le_succ _)
      current := fun h hh => ?_ }
    have hnone : s.handles s.epoch = none := feasible
    cases hnone.symm.trans hh
  | fence epoch => exact ok.closeHandle epoch
  | clearClosed => exact ok.clearClosed
  | commit epoch => exact ok.commit epoch
  | openReader => exact ok.setStore (.opening feasible.1)
  | refreshReader => exact ok.setStore .refreshing
  | readerDone store sequence => exact ok.setStore (.done sequence feasible.1)
  | readerFailed => exact ok.setStore .failed
  | pollReader store sequence =>
    obtain ⟨⟨view, hview, hle⟩, -⟩ := feasible
    exact ok.setStore (.polled view sequence hview hle)
  | read => exact ok.setRead ⟨feasible.1, le_rfl⟩
  | pickWriter => exact ok.pickWriter
  | useWriter => exact ok.useWriter
  | pickReader => exact ok.pickReader counted
  | useReader => exact ok.useReader
  | missing =>
    simp only [State.exec]
    split
    · next store floor hr =>
      have hzero : s.floor ≤ 0 := (show s.durable = 0 from feasible) ▸ ok.floor_le
      exact ok.setRead ((ok.read hr).2.1.trans hzero)
    · exact ok
  | failRead => exact ok.setRead trivial

end State

open State in
/-- In every run of any number of stores, tasks and reads in which every read that uses the reader
of a store meets the condition: the snapshot of a read has reached every sequence that was
acknowledged by a write of the process, or served by one of its writer handles, before the read
started. -/
theorem reads_never_go_back {S T R : Type} [DecidableEq S] [DecidableEq T] [DecidableEq R]
    {s : State S T R}
    (run : Machine.Run exec (fun s event => s.Feasible event ∧ s.Counted event) initial s) {r : R}
    {floor sequence : StorageSequence} (h : s.reads r = .served floor sequence) :
    floor ≤ sequence := by
  have ok := run.invariant (I := fun s => s.ReadsOk ∧ s.Gated) ⟨readsOk_initial, gated_initial⟩
    fun s event he ok => ⟨ok.1.exec ok.2 he.1 he.2, ok.2.exec he.1⟩
  exact ok.1.read h

/-! ## Runs -/

/-- The state of two stores after a list of events. -/
def afterReads (events : List (Event Bool Unit Unit)) : State Bool Unit Unit :=
  events.foldl State.exec State.initial

/-- Two stores with readers at 0 share a writer, opened for the first of them, that has committed
once and is being retired. -/
def retiringRun : List (Event Bool Unit Unit) :=
  [.register false, .register true, .openReader false, .readerDone false 0, .openReader true,
   .readerDone true 0, .promote () false, .grant (), .check (), .opened (), .install (), .unlock (),
   .commit 1, .retire () false, .grant (), .setClosing (), .take ()]

/-- The retirement ends, and its store counts it. -/
def retiredRun : List (Event Bool Unit Unit) :=
  retiringRun ++ [.closed () true, .resetClosing (), .unlock (), .count ()]

/-- A read of the store that has counted refreshes the reader first. -/
def refreshedReadRun : List (Event Bool Unit Unit) :=
  retiredRun ++ [.read () false, .pickWriter (), .refreshReader false, .readerDone false 1,
    .pickReader (), .useReader ()]

theorem reads_never_go_back_refreshedReadRun :
    (afterReads refreshedReadRun).reads () = .served 1 1 ∧ 1 ≤ 1 := by
  have hrun : Machine.Run State.exec
      (fun s event => s.Feasible event ∧ s.Counted event) State.initial
        (afterReads refreshedReadRun) := .of_admits (by decide +kernel)
  have hread : (afterReads refreshedReadRun).reads () = .served 1 1 := by decide +kernel
  exact ⟨hread, reads_never_go_back hrun hread⟩

/-- A plain read through a store. -/
def plainRead (store : Bool) : List (Event Bool Unit Unit) :=
  [.read () store, .pickWriter (), .pickReader (), .useReader ()]

/-- The commit with sequence 1 was acknowledged. A read through the store that retires the writer
finds it hidden while the store has not counted it, and a read through the other store finds it gone
when only the first store has: both are served at 0. -/
theorem not_never_back_retired :
    Machine.Admits State.exec State.Feasible State.initial (retiringRun ++ plainRead false) ∧
      (afterReads (retiringRun ++ plainRead false)).reads () = .served 1 0 ∧
      Machine.Admits State.exec State.Feasible State.initial (retiredRun ++ plainRead true) ∧
      (afterReads (retiredRun ++ plainRead true)).reads () = .served 1 0 := by
  decide +kernel

end HydraDb.ProcessWriter
