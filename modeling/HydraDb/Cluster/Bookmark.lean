import HydraDb.Core.Model
import HydraDb.Lib.Run
import Mathlib.Logic.Function.Basic

/-!
# Bookmarks

A write is answered with a bookmark, the durable sequence of the cell, and a read that carries one
waits for it before the query is planned (`client/service.rs`, `shard/lifecycle.rs`,
`core/state.rs`). Each node has one store for the cell. The store answers from its writer when it
has one, and otherwise from a reader that only advances when it is refreshed. The loss of a writer
raises a generation, and the reader is not used before it has been refreshed in that generation.

Any number of nodes serve the cell, and an event is one step of one of them: a promotion, a
retirement, a refresh, or the next call of a request. Of the object store it is assumed that its
durable sequence only grows, that an open or a refresh sees what was durable when it started, and
that only the writer opened last can commit. A scope is evicted only while no call uses it
(`Cluster.feasible`).
-/

namespace HydraDb.Bookmark

/-! ## Stores -/

/-- An open handle of the storage writer. The epoch it was opened in is its name. -/
structure WriterHandle (N : Type) where
  owner : N
  /-- `status().durable_seq`. -/
  durable : StorageSequence
  /-- Whether `status().close_reason` is set: the handle was closed or knows that it is fenced. -/
  closed : Bool

/-- What is under way with the reader of a store. -/
inductive ReaderJob where
  | opening (seen : StorageSequence)
  /-- A refresh, with the generation and the requests that it covers. A refresh that
  `readable_reader` makes covers no request. -/
  | refreshing (generation : Nat) (covered : Option Nat) (seen : StorageSequence)
  deriving DecidableEq

/-- `GraphStore` of the cell on one node, with the writer slot of the process. -/
structure GraphStore where
  /-- The handle in the writer slot. -/
  writer : Option Nat
  /-- The handle that a retirement took from the slot and is closing. -/
  closing : Option Nat
  /-- The retirements that have closed their handle and not yet raised the generation. -/
  counting : Nat
  /-- The durable sequence of the reader, once it is open. -/
  reader : Option StorageSequence
  job : Option ReaderJob
  refreshGeneration : Nat
  refreshedGeneration : Nat
  refreshRequested : Nat
  refreshCompleted : Nat
  /-- Not in the source: a retirement has closed a writer, or failed to, and the generation has not
  been raised since. -/
  lossUncounted : Bool

namespace GraphStore

/-- A store that was just opened. -/
def fresh : GraphStore := ⟨none, none, 0, none, none, 0, 0, 0, 0, false⟩

/-- `reader_refresh_generation.fetch_add(1)`. -/
def raiseGeneration (s : GraphStore) : GraphStore :=
  { s with refreshGeneration := s.refreshGeneration + 1, lossUncounted := false }

/-- `clear_closed_writer`, once the handle in the slot is found closed. -/
def clearWriter (s : GraphStore) : GraphStore := { s.raiseGeneration with writer := none }

/-- Register a call of `refresh_durable_reader`. -/
def requestRefresh (s : GraphStore) : GraphStore :=
  { s with refreshRequested := s.refreshRequested + 1 }

end GraphStore

/-! ## Requests -/

/-- What a call to a store is for. -/
inductive Purpose where
  /-- `wait_for_storage_sequence_observed`, when a query is prepared. -/
  | wait (bookmark : StorageSequence) (strong : Bool)
  /-- The snapshot of a prepared read, with the bookmark it carries (0 for none). -/
  | snapshot (bookmark : StorageSequence) (strong : Bool)
  /-- `bookmark_after` a write. -/
  | bookmark (commits : List StorageSequence)
  deriving DecidableEq

/-- Where a call is. -/
inductive Phase where
  /-- Before `readable_writer`. -/
  | writer
  /-- Holding a writer handle. -/
  | handle (epoch : Nat)
  /-- In `readable_reader`. -/
  | reader
  /-- In `refresh_durable_reader`, under a number of its own. -/
  | refresh (request : Nat)
  /-- Holding a reader. -/
  | ready
  deriving DecidableEq

/-- A request of a client on a node. -/
inductive Request (N : Type) where
  | idle
  /-- A write, with the sequences of its commits. -/
  | writing (node : N) (commits : List StorageSequence)
  /-- A call of the request is under way. -/
  | call (node : N) (purpose : Purpose) (phase : Phase)
  /-- A read between RUN and PULL. -/
  | prepared (node : N) (bookmark : StorageSequence) (strong : Bool)
  /-- A read was answered: the bookmark it carried, its snapshot and the bookmark it returned. -/
  | readAnswered (carried snapshot returned : StorageSequence)
  /-- A write was answered: the sequences of its commits and the bookmark it returned. -/
  | writeAnswered (commits : List StorageSequence) (returned : StorageSequence)

/-! ## The cluster -/

/-- The object store, the handles that were opened, the stores of the nodes and the requests. -/
structure Cluster (N : Type) where
  durable : StorageSequence
  /-- The epoch of the writer that was opened last. -/
  epoch : Nat
  handles : Nat → Option (WriterHandle N)
  stores : N → GraphStore
  requests : Nat → Request N

/-- One step of a node or of a request. -/
inductive Event (N : Type) where
  /-- `promote_writer`. -/
  | promote (node : N)
  /-- A handle is closed, or finds that it is fenced. -/
  | closeHandle (epoch : Nat)
  /-- `retire_writer` takes the writer from the slot. -/
  | retire (node : N)
  /-- The close of a retired writer ends, or fails. -/
  | retired (node : N) (closed : Bool)
  /-- `retire_writer` raises the generation. -/
  | countRetirement (node : N)
  /-- The scope is evicted and opened again. -/
  | reopen (node : N)
  | openReader (node : N)
  | readerOpened (node : N) (sequence : StorageSequence)
  /-- A refresh starts, made by `refresh_durable_reader` or by `readable_reader`. -/
  | refreshReader (node : N) (requested : Bool)
  | readerRefreshed (node : N) (sequence : StorageSequence)
  /-- The reader follows the manifest by itself. -/
  | pollReader (node : N) (sequence : StorageSequence)
  | write (request : Nat) (node : N)
  | commit (request epoch : Nat)
  /-- The work of a write is done, its bookmark is asked for. -/
  | written (request : Nat)
  /-- RUN of a read. -/
  | run (request : Nat) (node : N) (bookmark : Option StorageSequence) (strong : Bool)
  /-- The first PULL of a read. -/
  | pull (request : Nat)
  /-- `readable_writer`. -/
  | pickWriter (request : Nat)
  /-- `status` or `durable_snapshot` of the writer. -/
  | useWriter (request : Nat)
  /-- The check of the generation in `readable_reader`. -/
  | pickReader (request : Nat)
  /-- The check after which `refresh_durable_reader` returns. -/
  | pickRefreshed (request : Nat)
  /-- `status` or `snapshot` of the reader. -/
  | useReader (request : Nat)
  /-- No database was found. -/
  | missing (request : Nat)
  /-- The request fails. -/
  | fail (request : Nat)

namespace Cluster

variable {N : Type} [DecidableEq N]

/-- Before anything was written. -/
def initial : Cluster N := ⟨0, 0, fun _ => none, fun _ => .fresh, fun _ => .idle⟩

/-- Change the store of a node. -/
def setStore (c : Cluster N) (node : N) (s : GraphStore) : Cluster N :=
  { c with stores := Function.update c.stores node s }

/-- Change a request. -/
def setRequest (c : Cluster N) (request : Nat) (q : Request N) : Cluster N :=
  { c with requests := Function.update c.requests request q }

/-- Change a handle. -/
def setHandle (c : Cluster N) (epoch : Nat) (h : WriterHandle N) : Cluster N :=
  { c with handles := Function.update c.handles epoch (some h) }

/-- A call enters `refresh_durable_reader`. -/
def enterRefresh (c : Cluster N) (request : Nat) (node : N) (purpose : Purpose) : Cluster N :=
  (c.setStore node (c.stores node).requestRefresh).setRequest request
    (.call node purpose (.refresh ((c.stores node).refreshRequested + 1)))

/-- `bookmark_after` a read: nothing is fetched. -/
def bookmarkAfterRead (snapshot : StorageSequence) : StorageSequence := snapshot

/-- A call has its sequence. A wait ends when the sequence has reached the bookmark, and otherwise
goes on with a refresh. -/
def resolve (c : Cluster N) (request : Nat) (node : N) (sequence : StorageSequence) :
    Purpose → Cluster N
  | .wait bookmark strong =>
    if bookmark ≤ sequence then c.setRequest request (.prepared node bookmark strong)
    else c.enterRefresh request node (.wait bookmark strong)
  | .snapshot bookmark _ =>
    c.setRequest request (.readAnswered bookmark sequence (bookmarkAfterRead sequence))
  | .bookmark commits => c.setRequest request (.writeAnswered commits sequence)

/-- `promote_writer_owned`: nothing happens when there is a writer or one is being closed. -/
def promote (c : Cluster N) (node : N) : Cluster N :=
  if (c.stores node).writer = none ∧ (c.stores node).closing = none then
    let c := { c with epoch := c.epoch + 1 }
    (c.setHandle c.epoch ⟨node, c.durable, false⟩).setStore node
      { c.stores node with writer := some c.epoch }
  else c

/-- `retire_writer`, up to the close. -/
def retire (c : Cluster N) (node : N) : Cluster N :=
  let s := c.stores node
  match s.writer, s.closing with
  | some epoch, none => c.setStore node { s with writer := none, closing := some epoch }
  | _, _ => c

/-- `retire_writer`, when the close ends: an error returns before the generation is raised. -/
def retired (c : Cluster N) (node : N) (closed : Bool) : Cluster N :=
  let s := c.stores node
  match s.closing with
  | none => c
  | some epoch =>
    match c.handles epoch with
    | none => c
    | some h =>
      (c.setHandle epoch { h with closed := true }).setStore node
        { s with
          closing := none
          counting := if closed then s.counting + 1 else s.counting
          lossUncounted := true }

/-- A commit on a handle that is in the slot or being closed. Only the last writer can commit. -/
def commit (c : Cluster N) (request epoch : Nat) : Cluster N :=
  match c.requests request, c.handles epoch with
  | .writing node commits, some h =>
    if h.owner = node ∧ h.closed = false ∧ epoch = c.epoch ∧
        ((c.stores node).writer = some epoch ∨ (c.stores node).closing = some epoch) then
      (({ c with durable := c.durable + 1 }).setHandle epoch
        { h with durable := c.durable + 1 }).setRequest request
          (.writing node ((c.durable + 1) :: commits))
    else c
  | _, _ => c

/-- Whether the handle is closed. -/
def handleClosed (c : Cluster N) (epoch : Nat) : Bool := (c.handles epoch).all WriterHandle.closed

/-- `readable_writer`. -/
def pickWriter (c : Cluster N) (request : Nat) : Cluster N :=
  match c.requests request with
  | .call node purpose .writer =>
    match (c.stores node).writer with
    | none => c.setRequest request (.call node purpose .reader)
    | some epoch =>
      if c.handleClosed epoch then
        (c.setStore node (c.stores node).clearWriter).setRequest request
          (.call node purpose .reader)
      else c.setRequest request (.call node purpose (.handle epoch))
  | _ => c

/-- The use of a writer handle. A snapshot of a closed handle fails, and the call goes on with the
reader (`recover_closed_writer_error`). -/
def useWriter (c : Cluster N) (request : Nat) : Cluster N :=
  match c.requests request with
  | .call node purpose (.handle epoch) =>
    match c.handles epoch with
    | none => c
    | some h =>
      match purpose, h.closed with
      | .snapshot bookmark strong, true =>
        let c := if (c.stores node).writer.any c.handleClosed then
            c.setStore node (c.stores node).clearWriter
          else c
        c.setRequest request (.call node (.snapshot bookmark strong) .reader)
      | purpose, _ => c.resolve request node h.durable purpose
  | _ => c

/-- The check of the generation in `readable_reader`. -/
def pickReader (c : Cluster N) (request : Nat) : Cluster N :=
  match c.requests request with
  | .call node purpose .reader =>
    let s := c.stores node
    if s.reader.isSome ∧ s.refreshedGeneration = s.refreshGeneration then
      c.setRequest request (.call node purpose .ready)
    else c
  | _ => c

/-- The end of `refresh_durable_reader`. The strong read then takes a snapshot of the reader. -/
def pickRefreshed (c : Cluster N) (request : Nat) : Cluster N :=
  match c.requests request with
  | .call node purpose (.refresh number) =>
    let s := c.stores node
    if s.reader.isSome ∧ number ≤ s.refreshCompleted ∧
        s.refreshedGeneration = s.refreshGeneration then
      match purpose with
      | .snapshot bookmark strong =>
        c.setRequest request (.call node (.snapshot bookmark strong) .reader)
      | purpose => c.setRequest request (.call node purpose .ready)
    else c
  | _ => c

/-- The use of a reader. -/
def useReader (c : Cluster N) (request : Nat) : Cluster N :=
  match c.requests request with
  | .call node purpose .ready =>
    match (c.stores node).reader with
    | some sequence => c.resolve request node sequence purpose
    | none => c
  | _ => c

/-- A call that finds no database answers 0. -/
def missing (c : Cluster N) (request : Nat) : Cluster N :=
  match c.requests request with
  | .call node purpose .reader => c.resolve request node 0 purpose
  | .call node (.snapshot bookmark strong) (.refresh _) =>
    c.setRequest request (.call node (.snapshot bookmark strong) .reader)
  | .call node purpose (.refresh _) => c.resolve request node 0 purpose
  | _ => c

/-- RUN of a read: a read without a bookmark does not wait. -/
def run (c : Cluster N) (request : Nat) (node : N) (bookmark : Option StorageSequence)
    (strong : Bool) : Cluster N :=
  match c.requests request with
  | .idle =>
    match bookmark with
    | none => c.setRequest request (.prepared node 0 strong)
    | some bookmark => c.setRequest request (.call node (.wait bookmark strong) .writer)
  | _ => c

/-- PULL of a read: a strong one refreshes the reader first. -/
def pull (c : Cluster N) (request : Nat) : Cluster N :=
  match c.requests request with
  | .prepared node bookmark true => c.enterRefresh request node (.snapshot bookmark true)
  | .prepared node bookmark false =>
    c.setRequest request (.call node (.snapshot bookmark false) .writer)
  | _ => c

/-- A job of the reader of a node ends. -/
def readerDone (c : Cluster N) (node : N) (sequence : StorageSequence) : Cluster N :=
  let s := c.stores node
  match s.job with
  | some (.opening _) => c.setStore node { s with reader := some sequence, job := none }
  | some (.refreshing generation covered _) =>
    c.setStore node
      { s with
        reader := some sequence
        job := none
        refreshedGeneration := generation
        refreshCompleted := covered.getD s.refreshCompleted }
  | none => c

/-- What an event does. -/
def exec (c : Cluster N) : Event N → Cluster N
  | .promote node => c.promote node
  | .closeHandle epoch =>
    match c.handles epoch with
    | some h => c.setHandle epoch { h with closed := true }
    | none => c
  | .retire node => c.retire node
  | .retired node closed => c.retired node closed
  | .countRetirement node =>
    let s := c.stores node
    if 0 < s.counting then c.setStore node { s.raiseGeneration with counting := s.counting - 1 }
    else c
  | .reopen node => c.setStore node .fresh
  | .openReader node =>
    c.setStore node { c.stores node with job := some (.opening c.durable) }
  | .refreshReader node requested =>
    let s := c.stores node
    c.setStore node
      { s with
        job := some (.refreshing s.refreshGeneration
          (if requested then some s.refreshRequested else none) c.durable) }
  | .readerOpened node sequence | .readerRefreshed node sequence => c.readerDone node sequence
  | .pollReader node sequence =>
    c.setStore node { c.stores node with reader := some sequence }
  | .write request node =>
    match c.requests request with
    | .idle => c.setRequest request (.writing node [])
    | _ => c
  | .commit request epoch => c.commit request epoch
  | .written request =>
    match c.requests request with
    | .writing node commits => c.setRequest request (.call node (.bookmark commits) .writer)
    | _ => c
  | .run request node bookmark strong => c.run request node bookmark strong
  | .pull request => c.pull request
  | .pickWriter request => c.pickWriter request
  | .useWriter request => c.useWriter request
  | .pickReader request => c.pickReader request
  | .pickRefreshed request => c.pickRefreshed request
  | .useReader request => c.useReader request
  | .missing request => c.missing request
  | .fail request => c.setRequest request .idle

/-- What the object store, the gates of a store and the eviction of scopes allow. -/
def feasible (c : Cluster N) : Event N → Prop
  | .reopen node => ∀ request purpose phase, c.requests request ≠ .call node purpose phase
  | .openReader node => (c.stores node).reader = none ∧ (c.stores node).job = none
  | .refreshReader node _ => (c.stores node).reader.isSome ∧ (c.stores node).job = none
  | .readerOpened node sequence =>
    ∃ seen, (c.stores node).job = some (.opening seen) ∧ seen ≤ sequence ∧ sequence ≤ c.durable
  | .readerRefreshed node sequence => ∃ generation covered seen view,
      (c.stores node).job = some (.refreshing generation covered seen) ∧
        (c.stores node).reader = some view ∧ seen ≤ sequence ∧ view ≤ sequence ∧
          sequence ≤ c.durable
  | .pollReader node sequence =>
    ∃ view, (c.stores node).reader = some view ∧ view ≤ sequence ∧ sequence ≤ c.durable
  | .missing _ => c.durable = 0
  | _ => True

end Cluster

end HydraDb.Bookmark
