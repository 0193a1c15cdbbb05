import HydraDb.Core.Model
import HydraDb.Lib.Run
import Mathlib.Logic.Function.Basic

/-!
# Writer leases

The writer of a cell is the holder of a lease record in the object store (`engine/writer_lease.rs`).
A process writes the record with a conditional put and counts its own lease from before the put. To
take the record over it compares the server's time stamps: the one of the record with the one of a
probe object that it writes and reads back. What it finds is cached under the record's fingerprint
and from then on aged by the local clock.

Any number of processes with any number of concurrent calls compete for the one record, and an event
is one step of one call: a read, a conditional put taking effect, an update of one of the maps of a
process. Time is counted in nanoseconds and is the server's; a process only ever compares its own
instants with each other, so a clock of its own that runs at the same rate gives the same
comparisons. A put is stamped at some instant between its start and the instant at which it takes
effect, with a time in milliseconds that is less than a second behind (`feasible`). A put whose
caller has given up may still take effect (`State.orphans`).
-/

namespace HydraDb.Lease

/-! ## Times and limits -/

/-- Nanoseconds of a millisecond. -/
def ms : Nat := 1000000

/-- `SERVER_TIMESTAMP_RESOLUTION_GUARD`, in milliseconds. -/
def serverTimestampResolutionGuardMs : Nat := 1000

/-- `MAX_WRITER_LEASE_CAS_ATTEMPTS`. -/
def maxWriterLeaseCasAttempts : Nat := 16

/-- `u64::MAX`. -/
def u64Max : Nat := 2 ^ 64 - 1

/-- `saturating_add(1)`. -/
def saturatingSucc (n : Nat) : Nat := min (n + 1) u64Max

/-! ## Records -/

/-- `StoredWriterLease`: a version of the record as the object store returns it. -/
structure StoredWriterLease (P N : Type) where
  nodeId : N
  holderId : P
  generation : Nat
  heartbeat : Nat
  durationMs : Nat
  version : Nat
  lastModifiedMs : Nat
  released : Bool
  /-- Not in the source: when the put was started, stamped, and took effect. -/
  startedAt : Nat
  stampedAt : Nat
  landedAt : Nat

/-- `WriterLeaseFingerprint`. -/
structure WriterLeaseFingerprint (P N : Type) where
  nodeId : N
  holderId : P
  generation : Nat
  heartbeat : Nat
  durationMs : Nat
  released : Bool
  deriving DecidableEq

/-- The fingerprint that a record is cached under. -/
def StoredWriterLease.fingerprint {P N : Type} (r : StoredWriterLease P N) :
    WriterLeaseFingerprint P N :=
  ⟨r.nodeId, r.holderId, r.generation, r.heartbeat, r.durationMs, r.released⟩

/-- `LocalWriterLease`. -/
structure LocalWriterLease (N : Type) where
  nodeId : N
  generation : Nat
  validUntil : Nat

/-- `ObservedWriterLease`. -/
structure ObservedWriterLease (P N : Type) where
  fingerprint : WriterLeaseFingerprint P N
  observedAt : Nat
  remainingAtObservation : Nat
  /-- Not in the source: the server time that the remaining time was computed at. -/
  serverTime : Nat

/-- `remaining_after_elapsed`, in milliseconds. -/
def ObservedWriterLease.remainingAfterElapsed {P N : Type} (entry : ObservedWriterLease P N)
    (now : Nat) : Nat :=
  (entry.remainingAtObservation - (now - entry.observedAt)) / ms

/-- What `shared_remaining_ms` computes from the server's time, in milliseconds. -/
def StoredWriterLease.remainingMs {P N : Type} (r : StoredWriterLease P N) (serverNow : Nat) :
    Nat :=
  r.durationMs + serverTimestampResolutionGuardMs - (serverNow - r.lastModifiedMs)

/-- A conditional put of the record, on its way. -/
structure LeasePut (P N : Type) where
  /-- The version that is replaced; `none` for a put that creates the record. -/
  base : Option (StoredWriterLease P N)
  nodeId : N
  holderId : P
  generation : Nat
  heartbeat : Nat
  durationMs : Nat
  released : Bool
  startedAt : Nat
  /-- The instant of the stamp and the time it shows, once it is taken. -/
  stamp : Option (Nat × Nat)

/-! ## Calls -/

/-- The calls that look at the record. -/
inductive Kind where
  /-- `acquire_or_renew`. -/
  | acquire
  /-- A renewal of `renew_local`, with `force_renew`. -/
  | renew
  /-- `current_owner`. -/
  | owner
  deriving DecidableEq

/-- A call to acquire, renew or look, with the attempts it has left. -/
structure Attempt (N : Type) where
  kind : Kind
  nodeId : N
  attempts : Nat

/-- Where a call is. -/
inductive Phase (P N : Type) where
  | idle
  /-- Before `read_stored`. -/
  | reading (a : Attempt N)
  /-- With an active record, before `shared_remaining_ms`. -/
  | checking (a : Attempt N) (stored : StoredWriterLease P N)
  /-- In `shared_remaining_ms`, which has looked at the clock and waits for the cache. -/
  | looking (a : Attempt N) (stored : StoredWriterLease P N) (now : Nat)
  /-- In `probe_server_time`, with the stamp of the probe's put once it is taken. -/
  | probing (a : Attempt N) (stored : StoredWriterLease P N) (now : Nat) (stamp : Option Nat)
  /-- Between the put and the `head` of the probe. -/
  | heading (a : Attempt N) (stored : StoredWriterLease P N) (now : Nat)
  /-- With the server's time, before the cache is updated. -/
  | noting (a : Attempt N) (stored : StoredWriterLease P N) (now serverNow : Nat)
  /-- Before the local lease is dropped, and the abandoned one as well if the record is held. -/
  | dropping (held : Bool)
  | droppingAbandoned
  /-- Before the put that replaces `current`. -/
  | ready (a : Attempt N) (current : Option (StoredWriterLease P N))
  | writing (a : Attempt N) (put : LeasePut P N)
  /-- The put has taken effect, its response is under way. -/
  | confirming (a : Attempt N) (record : StoredWriterLease P N)
  /-- Before `observe_successful_write`. -/
  | observing (a : Attempt N) (record : StoredWriterLease P N)
  /-- Before the abandoned lease is removed. -/
  | filing (a : Attempt N) (record : StoredWriterLease P N)
  /-- Before the local lease is inserted. -/
  | inserting (a : Attempt N) (record : StoredWriterLease P N)
  /-- `release_scope`, before it takes the local and then the abandoned lease. -/
  | takingLocal (nodeId : N)
  | takingAbandoned (nodeId : N) (generations : List Nat)
  /-- `release_stored` for the first of these generations. -/
  | releasing (nodeId : N) (generations : List Nat) (attempts : Nat)
  | releaseReady (nodeId : N) (generations : List Nat) (attempts : Nat)
      (current : StoredWriterLease P N)
  | releaseWriting (nodeId : N) (generations : List Nat) (attempts : Nat) (put : LeasePut P N)
  | releaseConfirming (nodeId : N) (generations : List Nat) (record : StoredWriterLease P N)
  /-- `abandon_scope`, before it takes the local lease and before it parks it. -/
  | abandoning (nodeId : N)
  | parking (lease : Option (LocalWriterLease N))

/-! ## States -/

/-- The maps of a process, at the key of the cell. -/
structure Directory (P N : Type) where
  localLease : Option (LocalWriterLease N)
  abandoned : Option (LocalWriterLease N)
  observed : Option (ObservedWriterLease P N)
  /-- `scope_users`, at the scope of the cell. -/
  scopeUsers : N → Nat
  /-- Whether a renewal holds the lock of `scope_users`. -/
  usersLocked : Bool

/-- The record with its past versions, the probe object, the processes and their calls. -/
structure State (P N C : Type) where
  now : Nat
  /-- Every version of the record, the current one first. -/
  landed : List (StoredWriterLease P N)
  /-- The stamp of the probe object. -/
  clock : Nat
  directories : P → Directory P N
  calls : C → Phase P N
  /-- Puts whose caller has given up. -/
  orphans : List (LeasePut P N)

/-- Which process a call belongs to, and the lease duration each process is configured with. -/
structure Config (P C : Type) where
  process : C → P
  requestedDuration : P → Nat

/-- `lease_duration`: at least a second. -/
def Config.leaseDuration {P C : Type} (k : Config P C) (p : P) : Nat :=
  max (k.requestedDuration p) (1000 * ms)

/-- One step of a call, or of the environment. -/
inductive Event (P N C : Type) where
  | tick (elapsed : Nat)
  /-- The cache drops the entry of the cell to make room. -/
  | evict (p : P)
  /-- `register_scope`. -/
  | register (p : P) (nodeId : N)
  /-- A call to acquire, renew or look starts. -/
  | call (c : C) (kind : Kind) (nodeId : N)
  | read (c : C)
  | date (c : C)
  | look (c : C)
  | stampProbe (c : C) (shown : Nat)
  | landProbe (c : C)
  | head (c : C)
  | note (c : C)
  | drop (c : C)
  | write (c : C)
  | stampPut (c : C) (shown : Nat)
  | landPut (c : C)
  | confirm (c : C)
  | observe (c : C)
  | file (c : C)
  | insert (c : C)
  /-- The call fails, or its caller drops it. -/
  | fail (c : C)
  | stampOrphan (index : Nat) (shown : Nat)
  | landOrphan (index : Nat)
  | releaseCell (c : C) (nodeId : N)
  | releaseScope (c : C) (nodeId : N)
  | take (c : C)
  | abandonScope (c : C) (nodeId : N)
  | park (c : C)

variable {P N C : Type} [DecidableEq P] [DecidableEq N] [DecidableEq C]

namespace State

/-- The record, as a read finds it. -/
def record (s : State P N C) : Option (StoredWriterLease P N) := s.landed.head?

def setPhase (s : State P N C) (c : C) (phase : Phase P N) : State P N C :=
  { s with calls := Function.update s.calls c phase }

def setDirectory (s : State P N C) (p : P) (d : Directory P N) : State P N C :=
  { s with directories := Function.update s.directories p d }

/-- The state before any call: no record, and nothing known of it. -/
def initial : State P N C where
  now := 0
  landed := []
  clock := 0
  directories _ := ⟨none, none, none, fun _ => 0, false⟩
  calls _ := .idle
  orphans := []

end State

/-! ## Steps of a call -/

/-- A call goes on with the next round of its loop, if it has one. -/
def retry (a : Attempt N) : Phase P N :=
  if a.attempts ≤ 1 then .idle else .reading { a with attempts := a.attempts - 1 }

/-- `owned_by_this_process`. -/
def StoredWriterLease.ownedBy (r : StoredWriterLease P N) (p : P) (nodeId : N) : Bool :=
  r.nodeId == nodeId && r.holderId == p

/-- What a call does once it knows how long an active record has left. -/
def decision (p : P) (a : Attempt N) (stored : StoredWriterLease P N) (remainingMs : Nat) :
    Phase P N :=
  if a.kind = .owner then .idle
  else if 0 < remainingMs ∧ stored.ownedBy p a.nodeId = false then .dropping true
  else .ready a (some stored)

/-- Whether the record is this process's own active one. -/
def sameHolder (p : P) (nodeId : N) (current : Option (StoredWriterLease P N)) : Bool :=
  current.any fun stored => !stored.released && stored.ownedBy p nodeId

/-- The put of `acquire_or_renew_inner`. -/
def acquirePut (p : P) (nodeId : N) (leaseDuration now : Nat)
    (current : Option (StoredWriterLease P N)) : LeasePut P N where
  base := current
  nodeId := nodeId
  holderId := p
  generation := match current with
    | none => 1
    | some stored =>
      if sameHolder p nodeId current then stored.generation else saturatingSucc stored.generation
  heartbeat := match current with
    | none => 1
    | some stored => saturatingSucc stored.heartbeat
  durationMs := leaseDuration / ms
  released := false
  startedAt := now
  stamp := none

/-- The put of `release_stored`. -/
def releasePut (p : P) (nodeId : N) (generation now : Nat) (current : StoredWriterLease P N) :
    LeasePut P N where
  base := some current
  nodeId := nodeId
  holderId := p
  generation := generation
  heartbeat := saturatingSucc current.heartbeat
  durationMs := current.durationMs
  released := true
  startedAt := now
  stamp := none

/-- `release_stored` is done with one generation. -/
def nextRelease (nodeId : N) (generations : List Nat) : Phase P N :=
  match generations with
  | [] | [_] => .idle
  | _ :: rest => .releasing nodeId rest maxWriterLeaseCasAttempts

/-- Start `release_stored` for a list of generations. -/
def startRelease (nodeId : N) (generations : List Nat) : Phase P N :=
  if generations.isEmpty then .idle
  else .releasing nodeId generations maxWriterLeaseCasAttempts

/-- The version of the record that a stamped put makes when it takes effect. -/
def LeasePut.land (put : LeasePut P N) (stamp : Nat × Nat) (version now : Nat) :
    StoredWriterLease P N where
  nodeId := put.nodeId
  holderId := put.holderId
  generation := put.generation
  heartbeat := put.heartbeat
  durationMs := put.durationMs
  version := version
  lastModifiedMs := stamp.2
  released := put.released
  startedAt := put.startedAt
  stampedAt := stamp.1
  landedAt := now

/-- Whether the condition of a put holds: the record is still the version it replaces. -/
def LeasePut.matches (put : LeasePut P N) (s : State P N C) : Bool :=
  put.base.map (·.version) == s.record.map (·.version)

/-- The state after a put that found its version took effect. -/
def State.land (s : State P N C) (record : StoredWriterLease P N) : State P N C :=
  { s with landed := record :: s.landed }

/-- The cache entry of `observe_successful_write`. -/
def ownObservation (record : StoredWriterLease P N) : ObservedWriterLease P N where
  fingerprint := record.fingerprint
  observedAt := record.startedAt
  remainingAtObservation :=
    if record.released then 0
    else (record.durationMs + serverTimestampResolutionGuardMs) * ms
  serverTime := record.startedAt

/-- The cache entry of `shared_remaining_ms`. -/
def probeObservation (stored : StoredWriterLease P N) (now serverNow : Nat) :
    ObservedWriterLease P N where
  fingerprint := stored.fingerprint
  observedAt := now
  remainingAtObservation := stored.remainingMs serverNow * ms
  serverTime := serverNow * ms

/-- Whether a lease of a node still runs. -/
def LocalWriterLease.validFor (lease : LocalWriterLease N) (nodeId : N) (now : Nat) : Bool :=
  lease.nodeId == nodeId && now < lease.validUntil

variable (k : Config P C)

/-- The local lease that a written record gives its process. -/
def Config.leaseOf (record : StoredWriterLease P N) : LocalWriterLease N where
  nodeId := record.nodeId
  generation := record.generation
  validUntil := record.startedAt + k.leaseDuration record.holderId

/-! ## The machine -/

/-- The start of `acquire_or_renew_inner` and of `current_owner`. -/
def startCall (s : State P N C) (c : C) (kind : Kind) (nodeId : N) : State P N C :=
  let p := k.process c
  let d := s.directories p
  match kind with
  | .owner => s.setPhase c (.reading ⟨kind, nodeId, 1⟩)
  | .renew =>
    if d.localLease.any (·.validFor nodeId s.now) then
      s.setPhase c (.reading ⟨kind, nodeId, maxWriterLeaseCasAttempts⟩)
    else s.setPhase c (.dropping false)
  | .acquire =>
    -- a lease that is not near its end answers the call
    if d.localLease.any fun lease =>
        lease.nodeId == nodeId && s.now + k.leaseDuration p / 3 < lease.validUntil then s
    else s.setPhase c (.reading ⟨kind, nodeId, maxWriterLeaseCasAttempts⟩)

/-- `read_stored`. -/
def readStored (s : State P N C) (c : C) : State P N C :=
  match s.calls c with
  | .reading a =>
    match s.record with
    | none => s.setPhase c (if a.kind = .owner then .idle else .ready a none)
    | some stored =>
      if stored.released then
        s.setPhase c (if a.kind = .owner then .idle else .ready a (some stored))
      else s.setPhase c (.checking a stored)
  | .releasing nodeId generations attempts =>
    match s.record, generations with
    | some current, generation :: _ =>
      if current.ownedBy (k.process c) nodeId && current.generation == generation then
        s.setPhase c (.releaseReady nodeId generations attempts current)
      else s.setPhase c (nextRelease nodeId generations)
    | _, _ => s.setPhase c (nextRelease nodeId generations)
  | _ => s

/-- The cache lookup of `shared_remaining_ms`. -/
def lookObserved (s : State P N C) (c : C) : State P N C :=
  match s.calls c with
  | .looking a stored now =>
    match (s.directories (k.process c)).observed with
    | some entry =>
      if entry.fingerprint = stored.fingerprint then
        s.setPhase c (decision (k.process c) a stored (entry.remainingAfterElapsed now))
      else s.setPhase c (.probing a stored now none)
    | none => s.setPhase c (.probing a stored now none)
  | _ => s

/-- The end of `shared_remaining_ms` after a probe. -/
def noteObserved (s : State P N C) (c : C) : State P N C :=
  match s.calls c with
  | .noting a stored now serverNow =>
    let p := k.process c
    let d := { s.directories p with observed := some (probeObservation stored now serverNow) }
    (s.setDirectory p d).setPhase c (decision p a stored (stored.remainingMs serverNow))
  | _ => s

/-- A local map is updated because the call lost, or never had, the lease. -/
def dropLease (s : State P N C) (c : C) : State P N C :=
  let p := k.process c
  match s.calls c with
  | .dropping held =>
    (s.setDirectory p { s.directories p with localLease := none }).setPhase c
      (if held then .droppingAbandoned else .idle)
  | .droppingAbandoned =>
    (s.setDirectory p { s.directories p with abandoned := none }).setPhase c .idle
  | _ => s

/-- A conditional put is started. -/
def startPut (s : State P N C) (c : C) : State P N C :=
  let p := k.process c
  match s.calls c with
  | .ready a current =>
    s.setPhase c (.writing a (acquirePut p a.nodeId (k.leaseDuration p) s.now current))
  | .releaseReady nodeId generations attempts current =>
    s.setPhase c (.releaseWriting nodeId generations attempts
      (releasePut p nodeId (generations.headD 0) s.now current))
  | _ => s

/-- The server stamps a put. -/
def LeasePut.stamped (put : LeasePut P N) (now shown : Nat) : LeasePut P N :=
  { put with stamp := some (now, shown) }

def stampPut (s : State P N C) (c : C) (shown : Nat) : State P N C :=
  match s.calls c with
  | .writing a put => s.setPhase c (.writing a (put.stamped s.now shown))
  | .releaseWriting nodeId generations attempts put =>
    s.setPhase c (.releaseWriting nodeId generations attempts (put.stamped s.now shown))
  | _ => s

/-- A conditional put takes effect, or finds another version. -/
def landPut (s : State P N C) (c : C) : State P N C :=
  match s.calls c with
  | .writing a put =>
    match put.stamp with
    | none => s
    | some stamp =>
      if put.matches s then
        let record := put.land stamp (s.landed.length + 1) s.now
        (s.land record).setPhase c (.confirming a record)
      else s.setPhase c (retry a)
  | .releaseWriting nodeId generations attempts put =>
    match put.stamp with
    | none => s
    | some stamp =>
      if put.matches s then
        let record := put.land stamp (s.landed.length + 1) s.now
        (s.land record).setPhase c (.releaseConfirming nodeId generations record)
      else if attempts ≤ 1 then s.setPhase c (nextRelease nodeId generations)
      else s.setPhase c (.releasing nodeId generations (attempts - 1))
  | _ => s

/-- A put whose caller has given up takes effect, or finds another version. -/
def landOrphan (s : State P N C) (index : Nat) : State P N C :=
  match s.orphans[index]? with
  | none => s
  | some put =>
    match put.stamp with
    | none => s
    | some stamp =>
      let s := { s with orphans := s.orphans.eraseIdx index }
      if put.matches s then s.land (put.land stamp (s.landed.length + 1) s.now) else s

/-- `observe_successful_write`. -/
def observeWrite (s : State P N C) (c : C) : State P N C :=
  let p := k.process c
  match s.calls c with
  | .observing a record =>
    (s.setDirectory p { s.directories p with observed := some (ownObservation record) }).setPhase c
      (.filing a record)
  | .releaseConfirming nodeId generations record =>
    (s.setDirectory p { s.directories p with observed := some (ownObservation record) }).setPhase c
      (nextRelease nodeId generations)
  | _ => s

/-- The removal of the abandoned lease before the new one is inserted. A renewal first checks that
the scope is still in use, and keeps the lock of `scope_users` until the lease is inserted. -/
def fileLease (s : State P N C) (c : C) : State P N C :=
  let p := k.process c
  let d := s.directories p
  match s.calls c with
  | .filing a record =>
    if a.kind = .renew then
      if d.scopeUsers a.nodeId = 0 then s.setPhase c .idle
      else (s.setDirectory p { d with abandoned := none, usersLocked := true }).setPhase c
        (.inserting a record)
    else (s.setDirectory p { d with abandoned := none }).setPhase c (.inserting a record)
  | _ => s

/-- The insertion of the local lease. -/
def insertLease (s : State P N C) (c : C) : State P N C :=
  let p := k.process c
  let d := s.directories p
  match s.calls c with
  | .inserting a record =>
    let locked := if a.kind = .renew then false else d.usersLocked
    (s.setDirectory p
      { d with localLease := some (k.leaseOf record), usersLocked := locked }).setPhase c .idle
  | _ => s

/-- A call fails or is dropped. A put that is under way stays so. -/
def failCall (s : State P N C) (c : C) : State P N C :=
  match s.calls c with
  | .inserting .. => s
  | .writing _ put => { s.setPhase c .idle with orphans := put :: s.orphans }
  | .releaseWriting nodeId generations _ put =>
    { s.setPhase c (nextRelease nodeId generations) with orphans := put :: s.orphans }
  | .releasing nodeId generations _ => s.setPhase c (nextRelease nodeId generations)
  | .releaseConfirming nodeId generations _ => s.setPhase c (nextRelease nodeId generations)
  | _ => s.setPhase c .idle

/-- The count of `scope_users` after one user leaves, and whether it was the last. -/
def leaveScope (d : Directory P N) (nodeId : N) : Directory P N × Bool :=
  if d.scopeUsers nodeId > 1 then
    ({ d with scopeUsers := Function.update d.scopeUsers nodeId (d.scopeUsers nodeId - 1) }, false)
  else ({ d with scopeUsers := Function.update d.scopeUsers nodeId 0 }, true)

/-- The start of `release_scope` and of `abandon_scope`. -/
def startLeave (s : State P N C) (c : C) (nodeId : N) (next : Phase P N) : State P N C :=
  let p := k.process c
  let (d, last) := leaveScope (s.directories p) nodeId
  (s.setDirectory p d).setPhase c (if last then next else .idle)

/-- `release_cell` takes the lease. -/
def startReleaseCell (s : State P N C) (c : C) (nodeId : N) : State P N C :=
  let p := k.process c
  let d := s.directories p
  match d.localLease, d.abandoned with
  | some lease, _ =>
    (s.setDirectory p { d with localLease := none }).setPhase c
      (startRelease nodeId [lease.generation])
  | none, some lease =>
    (s.setDirectory p { d with abandoned := none }).setPhase c
      (startRelease nodeId [lease.generation])
  | none, none => s

/-- The lease of a node, if the map holds one. -/
def leaseOfNode (lease : Option (LocalWriterLease N)) (nodeId : N) : Option (LocalWriterLease N) :=
  lease.filter (·.nodeId == nodeId)

/-- A map without the lease of a node. -/
def withoutNode (lease : Option (LocalWriterLease N)) (nodeId : N) : Option (LocalWriterLease N) :=
  lease.filter (·.nodeId != nodeId)

/-- `release_scope` and `abandon_scope` take the leases of their node. -/
def takeLease (s : State P N C) (c : C) : State P N C :=
  let p := k.process c
  let d := s.directories p
  match s.calls c with
  | .takingLocal nodeId =>
    (s.setDirectory p { d with localLease := withoutNode d.localLease nodeId }).setPhase c
      (.takingAbandoned nodeId ((leaseOfNode d.localLease nodeId).toList.map (·.generation)))
  | .takingAbandoned nodeId generations =>
    (s.setDirectory p { d with abandoned := withoutNode d.abandoned nodeId }).setPhase c
      (startRelease nodeId
        (generations ++ (leaseOfNode d.abandoned nodeId).toList.map (·.generation)))
  | .abandoning nodeId =>
    (s.setDirectory p { d with localLease := withoutNode d.localLease nodeId }).setPhase c
      (.parking (leaseOfNode d.localLease nodeId))
  | _ => s

/-- The end of `abandon_scope`: expired leases go, the one it took is parked. -/
def parkLease (s : State P N C) (c : C) : State P N C :=
  let p := k.process c
  let d := s.directories p
  match s.calls c with
  | .parking lease =>
    let kept := d.abandoned.filter fun old => decide (s.now < old.validUntil)
    (s.setDirectory p { d with abandoned := lease.or kept }).setPhase c .idle
  | _ => s

/-- What an event does. -/
def exec (s : State P N C) : Event P N C → State P N C
  | .tick elapsed => { s with now := s.now + elapsed }
  | .evict p => s.setDirectory p { s.directories p with observed := none }
  | .register p nodeId =>
    let d := s.directories p
    s.setDirectory p
      { d with scopeUsers := Function.update d.scopeUsers nodeId (d.scopeUsers nodeId + 1) }
  | .call c kind nodeId => startCall k s c kind nodeId
  | .read c => readStored k s c
  | .date c =>
    match s.calls c with
    | .checking a stored => s.setPhase c (.looking a stored s.now)
    | _ => s
  | .look c => lookObserved k s c
  | .stampProbe c shown =>
    match s.calls c with
    | .probing a stored now _ => s.setPhase c (.probing a stored now (some shown))
    | _ => s
  | .landProbe c =>
    match s.calls c with
    | .probing a stored now (some shown) =>
      { s.setPhase c (.heading a stored now) with clock := shown }
    | _ => s
  | .head c =>
    match s.calls c with
    | .heading a stored now => s.setPhase c (.noting a stored now s.clock)
    | _ => s
  | .note c => noteObserved k s c
  | .drop c => dropLease k s c
  | .write c => startPut k s c
  | .stampPut c shown => stampPut s c shown
  | .landPut c => landPut s c
  | .confirm c =>
    match s.calls c with
    | .confirming a record =>
      if s.now ≥ record.startedAt + k.leaseDuration record.holderId then s.setPhase c (retry a)
      else s.setPhase c (.observing a record)
    | _ => s
  | .observe c => observeWrite k s c
  | .file c => fileLease k s c
  | .insert c => insertLease k s c
  | .fail c => failCall s c
  | .stampOrphan index shown =>
    { s with orphans := s.orphans.modify index (·.stamped s.now shown) }
  | .landOrphan index => landOrphan s index
  | .releaseCell c nodeId => startReleaseCell k s c nodeId
  | .releaseScope c nodeId => startLeave k s c nodeId (.takingLocal nodeId)
  | .take c => takeLease k s c
  | .abandonScope c nodeId => startLeave k s c nodeId (.abandoning nodeId)
  | .park c => parkLease k s c

/-- A stamp taken at an instant shows a time that is less than a second behind it. -/
def ShowsTime (shown now : Nat) : Prop := shown * ms ≤ now ∧ now < shown * ms + 1000 * ms

def Phase.isIdle : Phase P N → Bool
  | .idle => true
  | _ => false

/-- Whether a call is a renewal that is about to take the lock of `scope_users`. -/
def Phase.takesUsers : Phase P N → Bool
  | .filing a _ => a.kind == .renew
  | _ => false

/-- Which events can happen: a call is started on an idle slot, stamps show the time, and who
looks at the users of a scope finds their lock free. -/
def Feasible (s : State P N C) : Event P N C → Prop
  | .register p _ => (s.directories p).usersLocked = false
  | .call c _ _ | .releaseCell c _ => (s.calls c).isIdle
  | .releaseScope c _ | .abandonScope c _ =>
    (s.calls c).isIdle ∧ (s.directories (k.process c)).usersLocked = false
  | .file c => (s.calls c).takesUsers → (s.directories (k.process c)).usersLocked = false
  | .stampProbe _ shown | .stampPut _ shown | .stampOrphan _ shown => ShowsTime shown s.now
  | _ => True

/-! ## What a step can do -/

section Steps

variable {k}

/-- The phases in which a call holds no snapshot, put or record. -/
def Phase.plain : Phase P N → Bool
  | .idle | .reading _ | .dropping _ | .droppingAbandoned | .takingLocal _ | .takingAbandoned _ _
  | .releasing _ _ _ | .abandoning _ | .parking _ => true
  | _ => false

/-- The node whose lease a release that is under way has taken. -/
def Phase.releases : Phase P N → Option N
  | .takingAbandoned n _ | .releasing n _ _ | .releaseReady n _ _ _ | .releaseWriting n _ _ _
  | .releaseConfirming n _ _ => some n
  | _ => none

section

omit [DecidableEq P] [DecidableEq N]

@[simp]
theorem releases_retry : (retry a : Phase P N).releases = none := by
  unfold retry
  split <;> rfl

theorem releases_nextRelease (h : (nextRelease n generations : Phase P N).releases = some n') :
    n = n' := by
  unfold nextRelease at h
  split at h <;> cases h
  rfl

theorem releases_startRelease (h : (startRelease n generations : Phase P N).releases = some n') :
    n = n' := by
  unfold startRelease at h
  split at h <;> cases h
  rfl

@[simp]
theorem plain_retry : (retry a : Phase P N).plain = true := by
  unfold retry
  split <;> rfl

@[simp]
theorem plain_nextRelease : (nextRelease n generations : Phase P N).plain = true := by
  unfold nextRelease
  split <;> rfl

@[simp]
theorem plain_startRelease : (startRelease n generations : Phase P N).plain = true := by
  unfold startRelease
  split <;> rfl

end

/-- The maps hold no observation and no local lease that they did not hold before. -/
structure Directory.Shrinks (d d' : Directory P N) : Prop where
  observed : ∀ entry, d'.observed = some entry → d.observed = some entry
  lease : ∀ lease, d'.localLease = some lease → d.localLease = some lease

variable (k) in
/-- How a call of a process goes on to another phase, where nothing else changes. -/
inductive Goes (s : State P N C) (p : P) : Phase P N → Phase P N → Prop where
  | plain (h : phase'.plain = true)
    (hreleases : ∀ n, phase'.releases = some n → phase.releases = some n) : Goes s p phase phase'
  | free (h : s.record = current) (hfree : ∀ r, current = some r → r.released = true) :
    Goes s p (.reading a) (.ready a current)
  | active (h : s.record = some stored) (hactive : stored.released = false) :
    Goes s p (.reading a) (.checking a stored)
  | date : Goes s p (.checking a stored) (.looking a stored s.now)
  | miss : Goes s p (.looking a stored t) (.probing a stored t none)
  | stampProbe (h : ShowsTime shown s.now) :
    Goes s p (.probing a stored t stamp) (.probing a stored t (some shown))
  | head : Goes s p (.heading a stored t) (.noting a stored t s.clock)
  | write : Goes s p (.ready a current)
      (.writing a (acquirePut p a.nodeId (k.leaseDuration p) s.now current))
  | stamp (h : ShowsTime shown s.now) :
    Goes s p (.writing a put) (.writing a (put.stamped s.now shown))
  | confirm : Goes s p (.confirming a record) (.observing a record)
  | owned (h : s.record = some current) (howned : current.ownedBy p n = true)
    (hgeneration : current.generation = generations.headD 0) :
    Goes s p (.releasing n generations attempts) (.releaseReady n generations attempts current)
  | writeRelease : Goes s p (.releaseReady n generations attempts current)
      (.releaseWriting n generations attempts (releasePut p n (generations.headD 0) s.now current))
  | stampRelease (h : ShowsTime shown s.now) :
    Goes s p (.releaseWriting n generations attempts put)
      (.releaseWriting n generations attempts (put.stamped s.now shown))

variable (k) in
/-- What an event can do to a state. -/
inductive Step (s : State P N C) : Event P N C → State P N C → Prop where
  | skip : Step s event s
  | tick : Step s (.tick elapsed) { s with now := s.now + elapsed }
  | maps (hd : (s.directories p).Shrinks d) : Step s event (s.setDirectory p d)
  | go (hcall : s.calls c = phase) (h : Goes k s (k.process c) phase phase') :
    Step s event (s.setPhase c phase')
  | shrink (hd : (s.directories (k.process c)).Shrinks d) (h : phase.plain = true)
    (hreleases : ∀ n, phase.releases = some n → (s.calls c).releases = some n ∨
      ∀ lease, d.localLease = some lease → lease.nodeId ≠ n) :
    Step s event ((s.setDirectory (k.process c) d).setPhase c phase)
  | hit (hcall : s.calls c = .looking a stored t)
    (hentry : (s.directories (k.process c)).observed = some entry)
    (hprint : entry.fingerprint = stored.fingerprint) :
    Step s (.look c)
      (s.setPhase c (decision (k.process c) a stored (entry.remainingAfterElapsed t)))
  | landProbe (hcall : s.calls c = .probing a stored t (some shown)) :
    Step s event { s.setPhase c (.heading a stored t) with clock := shown }
  | note (hcall : s.calls c = .noting a stored t serverNow)
    (hd : d = { s.directories (k.process c) with
      observed := some (probeObservation stored t serverNow) }) :
    Step s event ((s.setDirectory (k.process c) d).setPhase c
      (decision (k.process c) a stored (stored.remainingMs serverNow)))
  | land (hcall : s.calls c = .writing a put) (hstamp : put.stamp = some stamp)
    (hmatch : put.matches s = true)
    (hrecord : record = put.land stamp (s.landed.length + 1) s.now) :
    Step s (.landPut c) ((s.land record).setPhase c (.confirming a record))
  | landRelease (hcall : s.calls c = .releaseWriting n generations attempts put)
    (hstamp : put.stamp = some stamp) (hmatch : put.matches s = true)
    (hrecord : record = put.land stamp (s.landed.length + 1) s.now) :
    Step s (.landPut c) ((s.land record).setPhase c (.releaseConfirming n generations record))
  | observe (hcall : s.calls c = .observing a record)
    (hd : d = { s.directories (k.process c) with observed := some (ownObservation record) }) :
    Step s event ((s.setDirectory (k.process c) d).setPhase c (.filing a record))
  | observeRelease (hcall : s.calls c = .releaseConfirming n generations record)
    (hd : d = { s.directories (k.process c) with observed := some (ownObservation record) }) :
    Step s event ((s.setDirectory (k.process c) d).setPhase c (nextRelease n generations))
  | file (hcall : s.calls c = .filing a record) (hd : (s.directories (k.process c)).Shrinks d) :
    Step s event ((s.setDirectory (k.process c) d).setPhase c (.inserting a record))
  | insert (hcall : s.calls c = .inserting a record)
    (hd : d = { s.directories (k.process c) with
      localLease := some (k.leaseOf record), usersLocked := locked }) :
    Step s event ((s.setDirectory (k.process c) d).setPhase c .idle)
  | abandon (hcall : s.calls c = .writing a put) :
    Step s event { s.setPhase c .idle with orphans := put :: s.orphans }
  | abandonRelease (hcall : s.calls c = .releaseWriting n generations attempts put) :
    Step s event { s.setPhase c (nextRelease n generations) with orphans := put :: s.orphans }
  | stampOrphan (h : ShowsTime shown s.now) :
    Step s event { s with orphans := s.orphans.modify index (·.stamped s.now shown) }
  | landOrphan (horphan : s.orphans[index]? = some put) (hstamp : put.stamp = some stamp)
    (hmatch : put.matches s = true) : Step s (.landOrphan index)
      (({ s with orphans := s.orphans.eraseIdx index }).land
        (put.land stamp (s.landed.length + 1) s.now))
  | loseOrphan : Step s event { s with orphans := s.orphans.eraseIdx index }

variable {s : State P N C} {c : C}

omit [DecidableEq C] in
/-- A release goes on with the next of its generations. -/
theorem Goes.nextRelease (h : phase.releases = some n) :
    Goes k s p phase (Lease.nextRelease n generations) :=
  .plain plain_nextRelease fun _ h' => releases_nextRelease h' ▸ h

theorem readStored_step : Step k s event (readStored k s c) := by
  unfold readStored
  split
  · next a hcall =>
    split
    · next hnone =>
      split
      · exact .go rfl (.plain rfl nofun)
      · exact .go hcall (.free hnone nofun)
    · next stored hstored =>
      split
      · next hreleased =>
        split
        · exact .go rfl (.plain rfl nofun)
        · exact .go hcall (.free hstored fun r hr => by cases hr; exact hreleased)
      · next hactive => exact .go hcall (.active hstored (Bool.eq_false_iff.2 hactive))
  · next n generations attempts hcall =>
    split
    · next current generation rest hcurrent =>
      split
      · next hown =>
        obtain ⟨howned, hgeneration⟩ := Bool.and_eq_true_iff.1 hown
        exact .go hcall (.owned hcurrent howned (by simpa using hgeneration))
      · exact .go hcall (.nextRelease rfl)
    · exact .go hcall (.nextRelease rfl)
  · exact .skip

theorem landPut_step : Step k s (.landPut c) (landPut s c) := by
  unfold landPut
  split
  · next a put hcall =>
    split
    · exact .skip
    next stamp hstamp =>
    split
    · next hmatch => exact .land hcall hstamp hmatch rfl
    · exact .go rfl (.plain plain_retry (by simp))
  · next n generations attempts put hcall =>
    split
    · exact .skip
    next stamp hstamp =>
    split
    · next hmatch => exact .landRelease hcall hstamp hmatch rfl
    · split
      · exact .go hcall (.nextRelease rfl)
      · exact .go hcall (.plain rfl fun _ h => h)
  · exact .skip

theorem failCall_step : Step k s event (failCall s c) := by
  unfold failCall
  split
  · exact .skip
  · next hcall => exact .abandon hcall
  · next hcall => exact .abandonRelease hcall
  · next hcall => exact .go hcall (.nextRelease rfl)
  · next hcall => exact .go hcall (.nextRelease rfl)
  · exact .go rfl (.plain rfl nofun)

theorem takeLease_step : Step k s event (takeLease k s c) := by
  have kept {d : Directory P N} {n : N} :
      d.Shrinks { d with localLease := withoutNode d.localLease n } :=
    ⟨fun _ h => h, fun _ h => (Option.filter_eq_some_iff.1 h).1⟩
  simp only [takeLease]
  split
  · next n _ =>
    refine .shrink kept rfl fun n' hn' => .inr fun lease h => ?_
    cases hn'
    simpa using (Option.filter_eq_some_iff.1 h).2
  · next hcall =>
    refine .shrink ⟨fun _ h => h, fun _ h => h⟩ plain_startRelease fun n' h => .inl ?_
    rw [hcall]
    exact congrArg some (releases_startRelease h)
  · exact .shrink kept rfl nofun
  · exact .skip

/-- Every event that can happen does one of these things. -/
theorem exec_step (feasible : Feasible k s event) : Step k s event (exec k s event) := by
  cases event with
    simp only [exec, startCall, lookObserved, noteObserved, dropLease, startPut, stampPut,
      observeWrite, fileLease, insertLease, landOrphan, startReleaseCell, startLeave, leaveScope,
      parkLease]
  | tick => exact .tick
  | evict => exact .maps ⟨nofun, fun _ h => h⟩
  | register => exact .maps ⟨fun _ h => h, fun _ h => h⟩
  | call c kind =>
    cases kind with
    | owner => exact .go rfl (.plain rfl nofun)
    | renew =>
      dsimp only
      split <;> exact .go rfl (.plain rfl nofun)
    | acquire =>
      dsimp only
      split
      · exact .skip
      · exact .go rfl (.plain rfl nofun)
  | read => exact readStored_step
  | date =>
    split
    · next hcall => exact .go hcall .date
    · exact .skip
  | look =>
    split
    · next hcall =>
      split
      · next hentry =>
        split
        · next hprint => exact .hit hcall hentry hprint
        · exact .go hcall .miss
      · exact .go hcall .miss
    · exact .skip
  | stampProbe =>
    split
    · next hcall => exact .go hcall (.stampProbe feasible)
    · exact .skip
  | landProbe =>
    split
    · next hcall => exact .landProbe hcall
    · exact .skip
  | head =>
    split
    · next hcall => exact .go hcall .head
    · exact .skip
  | note =>
    split
    · next hcall => exact .note hcall rfl
    · exact .skip
  | drop =>
    split
    · next held _ => cases held <;> exact .shrink ⟨fun _ h => h, nofun⟩ rfl nofun
    · exact .shrink ⟨fun _ h => h, fun _ h => h⟩ rfl nofun
    · exact .skip
  | write =>
    split
    · next hcall => exact .go hcall .write
    · next hcall => exact .go hcall .writeRelease
    · exact .skip
  | stampPut =>
    split
    · next hcall => exact .go hcall (.stamp feasible)
    · next hcall => exact .go hcall (.stampRelease feasible)
    · exact .skip
  | landPut => exact landPut_step
  | confirm =>
    split
    · next hcall =>
      split
      · exact .go rfl (.plain plain_retry (by simp))
      · exact .go hcall .confirm
    · exact .skip
  | observe =>
    split
    · next hcall => exact .observe hcall rfl
    · next hcall => exact .observeRelease hcall rfl
    · exact .skip
  | file =>
    split
    · next hcall =>
      split
      · split
        · exact .go rfl (.plain rfl nofun)
        · exact .file hcall ⟨fun _ h => h, fun _ h => h⟩
      · exact .file hcall ⟨fun _ h => h, fun _ h => h⟩
    · exact .skip
  | insert =>
    split
    · next hcall => exact .insert hcall rfl
    · exact .skip
  | fail => exact failCall_step
  | stampOrphan => exact .stampOrphan feasible
  | landOrphan =>
    split
    · exact .skip
    next horphan =>
    split
    · exact .skip
    next hstamp =>
    split
    · next hmatch => exact .landOrphan horphan hstamp hmatch
    · exact .loseOrphan
  | releaseCell =>
    split
    · exact .shrink ⟨fun _ h => h, nofun⟩ plain_startRelease fun _ _ => .inr nofun
    · next hnone _ =>
      refine .shrink ⟨fun _ h => h, fun _ h => h⟩ plain_startRelease fun _ _ =>
        .inr fun lease h => ?_
      exact absurd (h.symm.trans hnone) (Option.some_ne_none _)
    · exact .skip
  | releaseScope c n | abandonScope c n =>
    split <;> exact .shrink ⟨fun _ h => h, fun _ h => h⟩ rfl nofun
  | take => exact takeLease_step
  | park =>
    split
    · exact .shrink ⟨fun _ h => h, fun _ h => h⟩ rfl nofun
    · exact .skip

end Steps

end HydraDb.Lease
