import HydraDb.Core.Model
import HydraDb.Lib.Run
import Mathlib.Logic.Function.Basic

/-!
# The writer of a process

The shard stores that one process has for a cell share one writer state (`ProcessWriterState` in
`core/state.rs`): a slot for the open handle, a gate that promotions, retirements and cleanups pass
one at a time, the number of owners and a flag that hides the handle while it is being closed. A
store that finds no handle answers from its own reader. The reader only advances when it is
refreshed, and each store counts the writers it has seen go.

Any number of stores, tasks and reads share the state, and an event is one step of one of them: what
it does between two accesses to the gate, the flag or the slot. The gate is granted in any order.
Rivals in other processes open writers as well. Of the object store it is assumed that its durable
sequence only grows, that an open or a refresh sees what was durable when it started, and that only
the writer opened last can commit (`Feasible`).
-/

namespace HydraDb.ProcessWriter

/-! ## Handles and stores -/

/-- An open handle of the storage writer. The epoch it was opened in is its name. -/
structure WriterHandle (S : Type) where
  /-- The store whose promotion opened it. -/
  store : S
  /-- `status().durable_seq`. -/
  durable : StorageSequence
  /-- Whether `status().close_reason` is set: the handle was closed or knows that it is fenced. -/
  closed : Bool
  /-- Whether it has been in the slot. -/
  installed : Bool

/-- What is under way with the reader of a store: what was durable when it started and, not in the
source, whether no writer was withdrawn since. -/
inductive ReaderJob where
  | opening (seen : StorageSequence) (fresh : Bool)
  | refreshing (generation : Nat) (seen : StorageSequence) (fresh : Bool)
  deriving DecidableEq

/-- `GraphStoreInner`. -/
structure GraphStore where
  registered : Bool
  retiring : Bool
  writerOwnerActive : Bool
  /-- The durable sequence of the reader, once it is open. -/
  reader : Option StorageSequence
  job : Option ReaderJob
  readerRefreshGeneration : Nat
  readerRefreshedGeneration : Nat
  /-- Not in the source: a writer was withdrawn, or worked while it was, and since then the store
  has neither raised its generation nor ended a refresh that was begun afterwards. -/
  stale : Bool
  /-- Not in the source: how many final releases there were before the store was registered. -/
  registeredAfter : Nat

namespace GraphStore

def unregistered : GraphStore := ⟨false, false, false, none, none, 0, 0, false, 0⟩

/-- `reader_refresh_generation.fetch_add(1)`. -/
def raiseGeneration (s : GraphStore) : GraphStore :=
  { s with readerRefreshGeneration := s.readerRefreshGeneration + 1, stale := false }

/-- The store no longer knows everything that the writer did. -/
def expose (s : GraphStore) : GraphStore :=
  { s with
    stale := true
    job := s.job.map fun
      | .opening seen _ => .opening seen false
      | .refreshing generation seen _ => .refreshing generation seen false }

/-- The reader is opened, or a refresh of it ends. -/
def readerDone (s : GraphStore) (sequence : StorageSequence) : GraphStore :=
  match s.job with
  | none => s
  | some (.opening _ fresh) =>
    { s with reader := some sequence, job := none, stale := s.stale && !fresh }
  | some (.refreshing generation _ fresh) =>
    { s with
      reader := some sequence
      job := none
      readerRefreshedGeneration := generation
      stale := s.stale && !fresh }

end GraphStore

/-! ## Tasks and reads -/

/-- Where a task is. A cleanup and an abandonment know which final release they belong to, which is
not in the source. -/
inductive Task (S : Type) where
  | idle
  /-- `promote_writer_owned`: before the gate, before the second check, during the open, before the
  handle is put in the slot. -/
  | promoteWaiting (store : S)
  | promoteChecking (store : S)
  | promoteOpening (store : S)
  | promoteInstalling (store : S) (epoch : Nat)
  /-- `retire_writer`: before the gate, before the flag is set, before the handle is taken, during
  the close, before the flag is reset, and before the store counts. -/
  | retireWaiting (store : S)
  | retireSetting (store : S)
  | retireTaking (store : S)
  | retireClosing (store : S) (epoch : Nat)
  | retireResetting (store : S) (retired : Bool)
  | retireCounting (store : S)
  /-- `close_final_owner_writer`. -/
  | cleanupWaiting (release : Nat)
  | cleanupTaking (release : Nat)
  | cleanupClosing (release epoch : Nat)
  | cleanupResetting
  /-- `abandon_final_owner_writer`, after the runtime of the cleanup has stopped. -/
  | abandonWaiting (release : Nat)
  | abandonTaking (release : Nat)
  | abandonResetting
  /-- Before the gate is released. A retirement that closed a handle goes on to count. -/
  | unlocking (counting : Option S)
  deriving DecidableEq

/-- A plain read. It carries the floor: not in the source, the sequence that its snapshot must
reach. -/
inductive Read (S : Type) where
  | idle
  /-- Before `readable_writer`. -/
  | writer (store : S) (floor : StorageSequence)
  /-- Holding a writer handle. -/
  | handle (store : S) (floor : StorageSequence) (epoch : Nat)
  /-- In `readable_reader`. -/
  | reader (store : S) (floor : StorageSequence)
  /-- Holding the reader. -/
  | ready (store : S) (floor : StorageSequence)
  /-- With a snapshot. -/
  | served (floor sequence : StorageSequence)
  deriving DecidableEq

/-! ## The process -/

/-- The object store, the writer state of the process, its stores, tasks and reads. -/
structure State (S T R : Type) where
  durable : StorageSequence
  /-- The epoch of the writer that was opened last, by any process. -/
  epoch : Nat
  /-- The handles of this process. -/
  handles : Nat → Option (WriterHandle S)
  /-- The slot. -/
  writer : Option Nat
  /-- The task that holds `open_gate`. -/
  openGate : Option T
  closing : Bool
  owners : Nat
  stores : S → GraphStore
  tasks : T → Task S
  reads : R → Read S
  /-- Not in the source: the highest sequence that a write of the process was acknowledged with or
  that a writer handle served. -/
  floor : StorageSequence
  /-- Not in the source: the number of final releases, and which handle was closed or discarded on
  behalf of which of them. -/
  releases : Nat
  cleaned : List (Nat × Nat)

/-- One step. -/
inductive Event (S T R : Type) where
  /-- `process_writer_state` adds an owner. -/
  | register (store : S)
  /-- `close` starts, or the last reference to the store goes. -/
  | beginClose (store : S)
  /-- `begin_release`, with the task that cleans up if it was the final owner. -/
  | release (store : S) (t : T)
  | promote (t : T) (store : S)
  | retire (t : T) (store : S)
  /-- The gate is granted. -/
  | grant (t : T)
  /-- The second check of a promotion. -/
  | check (t : T)
  | opened (t : T)
  | openFailed (t : T)
  | install (t : T)
  | setClosing (t : T)
  | take (t : T)
  | closed (t : T) (success : Bool)
  | resetClosing (t : T)
  | unlock (t : T)
  | count (t : T)
  /-- The caller of a retirement drops it. -/
  | cancel (t : T)
  /-- The runtime of a cleanup stops. -/
  | stopRuntime (t : T)
  /-- Another process opens a writer, or commits. -/
  | rivalOpen
  | rivalCommit
  /-- A handle finds that it is fenced, or is closed. -/
  | fence (epoch : Nat)
  /-- `clear_closed_writer`. -/
  | clearClosed (store : S)
  /-- A write of the process is durable and acknowledged. -/
  | commit (epoch : Nat)
  | openReader (store : S)
  | refreshReader (store : S)
  | readerDone (store : S) (sequence : StorageSequence)
  | readerFailed (store : S)
  /-- The reader follows the manifest by itself. -/
  | pollReader (store : S) (sequence : StorageSequence)
  | read (r : R) (store : S)
  /-- `readable_writer`. -/
  | pickWriter (r : R)
  /-- `durable_snapshot` of the writer. -/
  | useWriter (r : R)
  /-- The check of the generation in `readable_reader`. -/
  | pickReader (r : R)
  | useReader (r : R)
  /-- No database was found. -/
  | missing (r : R)
  | failRead (r : R)

namespace State

variable {S T R : Type} [DecidableEq S] [DecidableEq T] [DecidableEq R]

def initial : State S T R where
  durable := 0
  epoch := 0
  handles _ := none
  writer := none
  openGate := none
  closing := false
  owners := 0
  stores _ := .unregistered
  tasks _ := .idle
  reads _ := .idle
  floor := 0
  releases := 0
  cleaned := []

def setStore (s : State S T R) (store : S) (g : GraphStore) : State S T R :=
  { s with stores := Function.update s.stores store g }

def setTask (s : State S T R) (t : T) (task : Task S) : State S T R :=
  { s with tasks := Function.update s.tasks t task }

def setRead (s : State S T R) (r : R) (read : Read S) : State S T R :=
  { s with reads := Function.update s.reads r read }

def setHandle (s : State S T R) (epoch : Nat) (h : WriterHandle S) : State S T R :=
  { s with handles := Function.update s.handles epoch (some h) }

/-- Every store may miss what the writer did. -/
def expose (s : State S T R) : State S T R :=
  { s with stores := fun store => (s.stores store).expose }

/-- The handle in the slot, unless it is hidden. -/
def visible (s : State S T R) : Option Nat := if s.closing then none else s.writer

/-- `open_writer`. -/
def openWriter (s : State S T R) (store : S) : Option Nat :=
  if (s.stores store).retiring || s.closing then none else s.writer

/-- A write or a snapshot of the writer raises the floor. While no handle is visible, the stores
miss it. -/
def raiseFloor (s : State S T R) (sequence : StorageSequence) : State S T R :=
  let s := { s with floor := max s.floor sequence }
  if s.visible.isSome then s else s.expose

/-- Whether the handle is closed. -/
def handleClosed (s : State S T R) (epoch : Nat) : Bool :=
  (s.handles epoch).all WriterHandle.closed

/-! ### Owners -/

/-- `add_owner`, for a store that is being opened. -/
def register (s : State S T R) (store : S) : State S T R :=
  ({ s with owners := s.owners + 1 }).setStore store
    { GraphStore.unregistered with
      registered := true, writerOwnerActive := true, registeredAfter := s.releases }

/-- `begin_release`. The final owner sets the flag and schedules the cleanup. -/
def release (s : State S T R) (store : S) (t : T) : State S T R :=
  let g := s.stores store
  if g.writerOwnerActive then
    let s := ({ s with owners := s.owners - 1 }).setStore store
      { g with writerOwnerActive := false }
    if s.owners = 0 then
      ({ s with closing := true, releases := s.releases + 1 }).expose.setTask t
        (.cleanupWaiting s.releases)
    else s
  else s

/-! ### Promotions -/

/-- The first check of `promote_writer_owned`. -/
def promote (s : State S T R) (t : T) (store : S) : State S T R :=
  if (s.stores store).retiring then s
  else if (s.openWriter store).isSome then s
  else s.setTask t (.promoteWaiting store)

/-- `open_gate.lock()` is granted. -/
def grant (s : State S T R) (t : T) : State S T R :=
  let locked := { s with openGate := some t }
  match s.tasks t with
  | .promoteWaiting store => locked.setTask t (.promoteChecking store)
  | .retireWaiting store => locked.setTask t (.retireSetting store)
  | .cleanupWaiting release => locked.setTask t (.cleanupTaking release)
  | .abandonWaiting release => locked.setTask t (.abandonTaking release)
  | _ => s

/-- The second check of `promote_writer_owned`. -/
def check (s : State S T R) (t : T) : State S T R :=
  match s.tasks t with
  | .promoteChecking store =>
    if (s.stores store).retiring then s.setTask t (.unlocking none)
    else if (s.openWriter store).isSome then s.setTask t (.unlocking none)
    else s.setTask t (.promoteOpening store)
  | _ => s

/-- `open_graph_db` returns a handle, which fences every other one. -/
def opened (s : State S T R) (t : T) : State S T R :=
  match s.tasks t with
  | .promoteOpening store =>
    (({ s with epoch := s.epoch + 1 }).setHandle (s.epoch + 1)
      ⟨store, s.durable, false, false⟩).setTask t (.promoteInstalling store (s.epoch + 1))
  | _ => s

/-- The handle is put in the slot, whatever the slot holds. -/
def install (s : State S T R) (t : T) : State S T R :=
  match s.tasks t with
  | .promoteInstalling _ epoch =>
    match s.handles epoch with
    | some h =>
      (({ s with writer := some epoch }).setHandle epoch { h with installed := true }).setTask t
        (.unlocking none)
    | none => s
  | _ => s

/-! ### Retirements, cleanups and abandonments -/

/-- `retire_writer` sets the flag. -/
def setClosing (s : State S T R) (t : T) : State S T R :=
  match s.tasks t with
  | .retireSetting store => ({ s with closing := true }).expose.setTask t (.retireTaking store)
  | _ => s

/-- The handle is taken from the slot. An abandonment drops it. -/
def take (s : State S T R) (t : T) : State S T R :=
  let emptied := { s with writer := none }.expose
  match s.tasks t with
  | .retireTaking store =>
    match s.writer with
    | some epoch => emptied.setTask t (.retireClosing store epoch)
    | none => s.setTask t (.retireResetting store false)
  | .cleanupTaking release =>
    match s.writer with
    | some epoch =>
      ({ emptied with cleaned := (release, epoch) :: s.cleaned }).setTask t
        (.cleanupClosing release epoch)
    | none => s.setTask t .cleanupResetting
  | .abandonTaking release =>
    match s.writer with
    | some epoch =>
      ({ emptied with cleaned := (release, epoch) :: s.cleaned }).setTask t .abandonResetting
    | none => s.setTask t .abandonResetting
  | _ => s

/-- The close of a handle ends, or fails. -/
def closed (s : State S T R) (t : T) (success : Bool) : State S T R :=
  let close (epoch : Nat) : State S T R := match s.handles epoch with
    | some h => s.setHandle epoch { h with closed := true }
    | none => s
  match s.tasks t with
  | .retireClosing store epoch => (close epoch).setTask t (.retireResetting store success)
  | .cleanupClosing _ epoch => (close epoch).setTask t .cleanupResetting
  | _ => s

/-- The flag is reset. -/
def resetClosing (s : State S T R) (t : T) : State S T R :=
  let reset := { s with closing := false }
  match s.tasks t with
  | .retireResetting store retired =>
    reset.setTask t (.unlocking (if retired then some store else none))
  | .cleanupResetting | .abandonResetting => reset.setTask t (.unlocking none)
  | _ => s

/-- The gate is released. -/
def unlock (s : State S T R) (t : T) : State S T R :=
  match s.tasks t with
  | .unlocking none => ({ s with openGate := none }).setTask t .idle
  | .unlocking (some store) => ({ s with openGate := none }).setTask t (.retireCounting store)
  | _ => s

/-- `retire_writer` of the store raises its generation. -/
def count (s : State S T R) (t : T) : State S T R :=
  match s.tasks t with
  | .retireCounting store =>
    (s.setStore store (s.stores store).raiseGeneration).setTask t .idle
  | _ => s

/-- A retirement is dropped while it waits. Its guards reset the flag and release the gate. -/
def cancel (s : State S T R) (t : T) : State S T R :=
  match s.tasks t with
  | .retireWaiting _ => s.setTask t .idle
  | .retireClosing _ _ => ({ s with closing := false, openGate := none }).setTask t .idle
  | _ => s

/-- The runtime of a cleanup stops while it waits, and an abandonment takes its place. -/
def stopRuntime (s : State S T R) (t : T) : State S T R :=
  match s.tasks t with
  | .cleanupWaiting release => s.setTask t (.abandonWaiting release)
  | .cleanupClosing release _ => ({ s with openGate := none }).setTask t (.abandonWaiting release)
  | _ => s

/-! ### Fences, commits and reads -/

/-- `clear_closed_writer`: the store that finds the closed handle counts it. -/
def clearClosed (s : State S T R) (store : S) : State S T R :=
  if s.writer.any s.handleClosed then
    { s with writer := none }.expose.setStore store (s.stores store).expose.raiseGeneration
  else s

/-- A commit on a handle that has been in the slot. Only the last writer can commit. -/
def commit (s : State S T R) (epoch : Nat) : State S T R :=
  match s.handles epoch with
  | some h =>
    if h.closed = false ∧ h.installed ∧ epoch = s.epoch then
      (({ s with durable := s.durable + 1 }).setHandle epoch
        { h with durable := s.durable + 1 }).raiseFloor (s.durable + 1)
    else s
  | none => s

/-- `readable_writer`. -/
def pickWriter (s : State S T R) (r : R) : State S T R :=
  match s.reads r with
  | .writer store floor =>
    match s.openWriter store with
    | none => s.setRead r (.reader store floor)
    | some epoch =>
      if s.handleClosed epoch then (s.clearClosed store).setRead r (.reader store floor)
      else s.setRead r (.handle store floor epoch)
  | _ => s

/-- The snapshot of a writer handle. That of a closed handle fails, and the read goes on with the
reader (`recover_closed_writer_error`). -/
def useWriter (s : State S T R) (r : R) : State S T R :=
  match s.reads r with
  | .handle store floor epoch =>
    match s.handles epoch with
    | none => s
    | some h =>
      if h.closed then (s.clearClosed store).setRead r (.reader store floor)
      else (s.raiseFloor h.durable).setRead r (.served floor h.durable)
  | _ => s

/-- `readable_reader`, when it finds the reader of the current generation. -/
def pickReader (s : State S T R) (r : R) : State S T R :=
  match s.reads r with
  | .reader store floor =>
    let g := s.stores store
    if g.retiring then s.setRead r .idle
    else if g.reader.isSome ∧ g.readerRefreshGeneration = g.readerRefreshedGeneration then
      s.setRead r (.ready store floor)
    else s
  | _ => s

/-- The snapshot of the reader. -/
def useReader (s : State S T R) (r : R) : State S T R :=
  match s.reads r with
  | .ready store floor =>
    match (s.stores store).reader with
    | some sequence => s.setRead r (.served floor sequence)
    | none => s
  | _ => s

/-! ## The machine -/

/-- What an event does. -/
def exec (s : State S T R) : Event S T R → State S T R
  | .register store => s.register store
  | .beginClose store => s.setStore store { s.stores store with retiring := true }
  | .release store t => s.release store t
  | .promote t store => s.promote t store
  | .retire t store => s.setTask t (.retireWaiting store)
  | .grant t => s.grant t
  | .check t => s.check t
  | .opened t => s.opened t
  | .openFailed t =>
    match s.tasks t with
    | .promoteOpening _ => s.setTask t (.unlocking none)
    | _ => s
  | .install t => s.install t
  | .setClosing t => s.setClosing t
  | .take t => s.take t
  | .closed t success => s.closed t success
  | .resetClosing t => s.resetClosing t
  | .unlock t => s.unlock t
  | .count t => s.count t
  | .cancel t => s.cancel t
  | .stopRuntime t => s.stopRuntime t
  | .rivalOpen => { s with epoch := s.epoch + 1 }
  | .rivalCommit => { s with durable := s.durable + 1 }
  | .fence epoch =>
    match s.handles epoch with
    | some h => s.setHandle epoch { h with closed := true }
    | none => s
  | .clearClosed store => s.clearClosed store
  | .commit epoch => s.commit epoch
  | .openReader store =>
    s.setStore store { s.stores store with job := some (.opening s.durable true) }
  | .refreshReader store =>
    let g := s.stores store
    s.setStore store { g with job := some (.refreshing g.readerRefreshGeneration s.durable true) }
  | .readerDone store sequence => s.setStore store ((s.stores store).readerDone sequence)
  | .readerFailed store => s.setStore store { s.stores store with job := none }
  | .pollReader store sequence =>
    s.setStore store { s.stores store with reader := some sequence }
  | .read r store => s.setRead r (.writer store s.floor)
  | .pickWriter r => s.pickWriter r
  | .useWriter r => s.useWriter r
  | .pickReader r => s.pickReader r
  | .useReader r => s.useReader r
  | .missing r =>
    match s.reads r with
    | .reader _ floor => s.setRead r (.served floor 0)
    | _ => s
  | .failRead r => s.setRead r .idle

/-- What a job of a reader may find: at least what was durable when it started and what the reader
had. -/
def Finds (g : GraphStore) (sequence : StorageSequence) : Prop :=
  match g.job with
  | none => False
  | some (.opening seen _) => seen ≤ sequence
  | some (.refreshing _ seen _) => seen ≤ sequence ∧ ∀ view ∈ g.reader, view ≤ sequence

/-- Which events can happen: tasks are started on idle slots, the gate is granted when it is free,
a store is used after it was registered and released once it is being closed, the reader of a store
has one job at a time, and the object store keeps its promises. -/
def Feasible (s : State S T R) : Event S T R → Prop
  | .register store => (s.stores store).registered = false
  | .release store t => (s.stores store).retiring = true ∧ s.tasks t = .idle
  | .promote t store | .retire t store => (s.stores store).registered = true ∧ s.tasks t = .idle
  | .grant _ => s.openGate = none
  | .rivalCommit => s.handles s.epoch = none
  | .openReader store => (s.stores store).reader = none ∧ (s.stores store).job = none
  | .refreshReader store => (s.stores store).reader.isSome ∧ (s.stores store).job = none
  | .readerDone store sequence => Finds (s.stores store) sequence ∧ sequence ≤ s.durable
  | .pollReader store sequence =>
    (∃ view ∈ (s.stores store).reader, view ≤ sequence) ∧ sequence ≤ s.durable
  | .read r store => (s.stores store).registered = true ∧ s.reads r = .idle
  | .missing _ => s.durable = 0
  | _ => True

instance (g : GraphStore) (sequence : StorageSequence) : Decidable (Finds g sequence) := by
  unfold Finds
  split <;> infer_instance

instance (s : State S T R) (event : Event S T R) : Decidable (s.Feasible event) := by
  cases event <;> dsimp only [Feasible] <;> infer_instance

end State

end HydraDb.ProcessWriter
