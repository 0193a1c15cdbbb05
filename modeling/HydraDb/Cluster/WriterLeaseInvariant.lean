import HydraDb.Cluster.WriterLease
import Mathlib.Data.List.Pairwise

/-!
# What a writer lease says about the record

The invariant behind both properties of the leases is one sentence: a lease of a process, whether
it is filed or its put has just taken effect, either names the current record, or had ended when
that record took effect (`LeaseOk`). Only a put that takes effect can break it, and a put may only
replace a record that is released, that belongs to the same process and node, or whose lease has
ended (`PutOk`).

The last is what the time stamps are for. `EntryOk` says what a cached observation is worth:
counted from the later of its date and its probe's stamp, the remaining time outlasts the lease. The
code counts it from the date alone and in whole milliseconds, so `TakeoverExact` stands as a
condition on the runs.
-/

namespace HydraDb.Lease

variable {P N C : Type} (k : Config P C) {s : State P N C} {r : StoredWriterLease P N} {p : P}

/-! ## Leases -/

/-- The record that a call has written and not yet filed its lease for. -/
def Phase.written : Phase P N → Option (StoredWriterLease P N)
  | .confirming _ record | .observing _ record | .filing _ record | .inserting _ record =>
    some record
  | _ => none

theorem Phase.written_of_plain {phase : Phase P N} (h : phase.plain = true) :
    phase.written = none := by
  cases phase <;> first | rfl | cases h

/-- The leases of a process: the one it has filed, and those of the records that its calls have
written. -/
inductive Holds (s : State P N C) (p : P) : LocalWriterLease N → Prop where
  | filed {lease : LocalWriterLease N} (h : (s.directories p).localLease = some lease) :
    Holds s p lease
  | pending {record : StoredWriterLease P N} (c : C) (hc : k.process c = p)
    (h : (s.calls c).written = some record) : Holds s p (k.leaseOf record)

/-- The lease names the record, or had ended when the record took effect. -/
def LeaseOk (record : Option (StoredWriterLease P N)) (p : P) (lease : LocalWriterLease N) : Prop :=
  ∃ r, record = some r ∧
    ((r.released = false ∧ r.nodeId = lease.nodeId ∧ r.holderId = p ∧
        r.generation = lease.generation ∧ lease.validUntil ≤ r.startedAt + k.leaseDuration p) ∨
      lease.validUntil ≤ r.landedAt)

/-! ## Records, puts and cached observations -/

/-- A version of the record: its instants are in order, and it shows its lease duration. -/
structure RecordOk (now : Nat) (r : StoredWriterLease P N) : Prop where
  stamped : r.startedAt ≤ r.stampedAt
  landed : r.stampedAt ≤ r.landedAt
  past : r.landedAt ≤ now
  shows : ShowsTime r.lastModifiedMs r.stampedAt
  duration : r.durationMs * ms = k.leaseDuration r.holderId

/-- The instant at which the lease of a record ends. -/
def Config.endOf (r : StoredWriterLease P N) : Nat := r.startedAt + k.leaseDuration r.holderId

/-- An active record that a call has read. -/
structure Known (landed : List (StoredWriterLease P N)) (t : Nat) (r : StoredWriterLease P N) :
    Prop where
  mem : r ∈ landed
  past : r.landedAt ≤ t
  active : r.released = false

/-- A cached observation is of a version of the record, and outlasts its lease when it is counted
from the later of its date and its server time. -/
def EntryOk (landed : List (StoredWriterLease P N)) (entry : ObservedWriterLease P N) : Prop :=
  ∃ r ∈ landed, entry.fingerprint = r.fingerprint ∧
    (r.released = false →
      k.endOf r ≤ max entry.observedAt entry.serverTime + entry.remainingAtObservation)

section Stamps

variable {k} {landed : List (StoredWriterLease P N)} {now t serverNow : Nat}

/-- Versions of the record differ in their heartbeats and in their version tags. -/
theorem distinct_of_order
    (order : landed.Pairwise fun newer older =>
      older.heartbeat < newer.heartbeat ∧ older.version < newer.version)
    (hr : r ∈ landed) (hr' : r' ∈ landed) (hne : r ≠ r') :
    r.heartbeat ≠ r'.heartbeat ∧ r.version ≠ r'.version := by
  have symmetric : Std.Symm fun r r' : StoredWriterLease P N =>
      r.heartbeat ≠ r'.heartbeat ∧ r.version ≠ r'.version :=
    ⟨fun _ _ h => ⟨h.1.symm, h.2.symm⟩⟩
  have hdistinct : landed.Pairwise fun r r' =>
      r.heartbeat ≠ r'.heartbeat ∧ r.version ≠ r'.version :=
    order.imp fun h => ⟨h.1.ne', h.2.ne'⟩
  exact hdistinct.forall hr hr' hne

/-- The record is the first of the versions. -/
theorem State.mem_of_record (h : s.record = some r) : r ∈ s.landed :=
  List.mem_of_mem_head? h

theorem Known.mono (hlanded : landed ⊆ landed') (h : Known landed t r) (ht : t ≤ t') :
    Known landed' t' r :=
  ⟨hlanded h.mem, h.past.trans ht, h.active⟩

theorem EntryOk.mono (hlanded : landed ⊆ landed') (h : EntryOk k landed entry) :
    EntryOk k landed' entry := by
  obtain ⟨r, hr, hentry⟩ := h
  exact ⟨r, hlanded hr, hentry⟩

/-- A record with no time left by the server's clock is one whose lease has ended. -/
theorem RecordOk.endOf_le (h : RecordOk k now r) (hremaining : r.remainingMs serverNow = 0) :
    k.endOf r ≤ serverNow * ms := by
  have hstamped := h.stamped
  have hduration := h.duration
  obtain ⟨-, hshows⟩ := h.shows
  unfold StoredWriterLease.remainingMs serverTimestampResolutionGuardMs at hremaining
  unfold Config.endOf ms at *
  omega

/-- The observation of a probe outlasts the lease of the record that it was made for. -/
theorem Known.entryOk_probe (known : Known landed t r) (h : RecordOk k now r) :
    EntryOk k landed (probeObservation r t serverNow) := by
  refine ⟨r, known.mem, rfl, fun _ => ?_⟩
  have hstamped := h.stamped
  have hlanded := h.landed
  have hpast := known.past
  have hduration := h.duration
  obtain ⟨-, hshows⟩ := h.shows
  simp only [probeObservation, StoredWriterLease.remainingMs, serverTimestampResolutionGuardMs]
  unfold Config.endOf ms at *
  omega

/-- So does the observation that a writer makes of its own record. -/
theorem RecordOk.entryOk_own (h : RecordOk k now r) (hr : r ∈ landed) :
    EntryOk k landed (ownObservation r) := by
  refine ⟨r, hr, rfl, fun hactive => ?_⟩
  have hduration := h.duration
  simp only [ownObservation, hactive, Bool.false_eq_true, if_false,
    serverTimestampResolutionGuardMs]
  unfold Config.endOf ms at *
  omega

end Stamps

variable [DecidableEq P] [DecidableEq N]

/-- The record may be replaced by the process and node from the instant `t` on. -/
def MayReplace (landed : List (StoredWriterLease P N)) (p : P) (n : N) (t : Nat)
    (current : Option (StoredWriterLease P N)) : Prop :=
  ∀ r, current = some r → r ∈ landed ∧ r.landedAt ≤ t ∧
    (r.released = true ∨ r.ownedBy p n = true ∨ k.endOf r ≤ t)

/-- A put that is under way. -/
structure PutOk (landed : List (StoredWriterLease P N)) (now : Nat) (put : LeasePut P N) :
    Prop where
  replaces : MayReplace k landed put.holderId put.nodeId put.startedAt put.base
  started : put.startedAt ≤ now
  stamp : ∀ m shown, put.stamp = some (m, shown) → put.startedAt ≤ m ∧ m ≤ now ∧ ShowsTime shown m
  duration : put.durationMs * ms = k.leaseDuration put.holderId
  heartbeat : ∀ r, put.base = some r → put.heartbeat = saturatingSucc r.heartbeat
  generation : ∀ r, put.base = some r → r.released = false →
    r.ownedBy put.holderId put.nodeId = true → put.generation = r.generation
  release : put.released = true →
    ∃ r, put.base = some r ∧ r.ownedBy put.holderId put.nodeId = true

/-- What a call knows where it is. -/
def PhaseOk (landed : List (StoredWriterLease P N)) (now : Nat) (p : P) : Phase P N → Prop
  | .checking _ stored => Known landed now stored
  | .looking _ stored t | .heading _ stored t => Known landed t stored ∧ t ≤ now
  | .probing _ stored t stamp =>
    Known landed t stored ∧ t ≤ now ∧ ∀ shown, stamp = some shown → shown * ms ≤ now
  | .noting _ stored t serverNow => Known landed t stored ∧ t ≤ now ∧ serverNow * ms ≤ now
  | .ready a current => MayReplace k landed p a.nodeId now current
  | .writing a put =>
    PutOk k landed now put ∧ put.holderId = p ∧ put.nodeId = a.nodeId ∧ put.released = false
  | .confirming _ record | .observing _ record | .filing _ record | .inserting _ record =>
    record ∈ landed ∧ record.holderId = p
  | .releaseReady n generations _ current =>
    current ∈ landed ∧ current.landedAt ≤ now ∧ current.ownedBy p n = true ∧
      current.generation = generations.headD 0
  | .releaseWriting n _ _ put =>
    PutOk k landed now put ∧ put.holderId = p ∧ put.nodeId = n ∧ put.released = true
  | .releaseConfirming _ _ record => record ∈ landed
  | _ => True

/-- The invariant of the leases. -/
structure State.Ok (s : State P N C) : Prop where
  clock : s.clock * ms ≤ s.now
  records : ∀ r ∈ s.landed, RecordOk k s.now r
  versions : ∀ r ∈ s.landed, r.version ≤ s.landed.length
  order : s.landed.Pairwise fun newer older =>
    older.heartbeat < newer.heartbeat ∧ older.version < newer.version
  phases : ∀ c, PhaseOk k s.landed s.now (k.process c) (s.calls c)
  orphans : ∀ put ∈ s.orphans, PutOk k s.landed s.now put
  entries : ∀ p entry, (s.directories p).observed = some entry → EntryOk k s.landed entry
  leases : ∀ p lease, Holds k s p lease → LeaseOk k s.record p lease

/-! ## The condition on the runs -/

/-- A cached observation decides that a record may be taken over only if the observed time has run
out exactly, counted from the later of the observation's date and its probe's stamp. -/
def Phase.TakeoverExact (observed : Option (ObservedWriterLease P N)) (p : P) : Phase P N → Prop
  | .looking a stored t => ∀ entry ∈ observed, entry.fingerprint = stored.fingerprint →
      a.kind ≠ .owner → stored.ownedBy p a.nodeId = false → entry.remainingAfterElapsed t = 0 →
      max entry.observedAt entry.serverTime + entry.remainingAtObservation ≤ t
  | _ => True

/-- The condition on a cache lookup. -/
def TakeoverExact (s : State P N C) (c : C) : Prop :=
  (s.calls c).TakeoverExact (s.directories (k.process c)).observed (k.process c)

/-- The heartbeat of the record has not run to its end. -/
def HeartbeatFree (s : State P N C) : Prop := ∀ r ∈ s.record, r.heartbeat < u64Max

/-- A put that releases the record takes effect only when the process has no unexpired lease and no
written record whose lease is still to be filed. -/
def ReleaseQuiet (s : State P N C) (put : LeasePut P N) : Prop :=
  put.released = true → ∀ lease, Holds k s put.holderId lease → lease.validUntil ≤ s.now

/-- The put that a call has under way. -/
def Phase.put : Phase P N → Option (LeasePut P N)
  | .writing _ put | .releaseWriting _ _ _ put => some put
  | _ => none

/-- The put that an event may bring to take effect. -/
def Event.put (s : State P N C) : Event P N C → Option (LeasePut P N)
  | .landPut c => (s.calls c).put
  | .landOrphan index => s.orphans[index]?
  | _ => none

/-- The part of the condition that is about takeovers: a cached one is exact, and a put that takes
effect can raise the heartbeat. -/
def TakeoverSound (s : State P N C) (event : Event P N C) : Prop :=
  (match event with
    | .look c => TakeoverExact k s c
    | _ => True) ∧
  ∀ put ∈ event.put s, put.matches s = true → HeartbeatFree s

/-- The condition under which the leases keep their promises. -/
def Sound (s : State P N C) (event : Event P N C) : Prop :=
  TakeoverSound k s event ∧ ∀ put ∈ event.put s, put.matches s = true → ReleaseQuiet k s put

/-! ## What stays true as time passes and records land -/

variable {k}

section Mono

variable {landed landed' : List (StoredWriterLease P N)} {t : Nat} {p : P}
  (hlanded : landed ⊆ landed')

include hlanded

theorem MayReplace.mono (h : MayReplace k landed p n t current)
    (ht : t ≤ t') : MayReplace k landed' p n t' current := by
  intro r hr
  obtain ⟨hmem, hpast, hcases⟩ := h r hr
  exact ⟨hlanded hmem, hpast.trans ht, hcases.imp_right (Or.imp_right (le_trans · ht))⟩

theorem PutOk.mono (h : PutOk k landed t put) (ht : t ≤ t') : PutOk k landed' t' put :=
  { h with
    replaces := h.replaces.mono hlanded le_rfl
    started := h.started.trans ht
    stamp m shown hstamp := by
      obtain ⟨hstart, hpast, hshows⟩ := h.stamp m shown hstamp
      exact ⟨hstart, hpast.trans ht, hshows⟩ }

theorem PhaseOk.mono (h : PhaseOk k landed t p phase) (ht : t ≤ t') :
    PhaseOk k landed' t' p phase := by
  cases phase with
  | checking => exact Known.mono hlanded h ht
  | looking | heading => exact ⟨h.1.mono hlanded le_rfl, h.2.trans ht⟩
  | probing =>
    exact ⟨h.1.mono hlanded le_rfl, h.2.1.trans ht, fun shown hs => (h.2.2 shown hs).trans ht⟩
  | noting => exact ⟨h.1.mono hlanded le_rfl, h.2.1.trans ht, h.2.2.trans ht⟩
  | ready => exact MayReplace.mono hlanded h ht
  | writing | releaseWriting => exact ⟨h.1.mono hlanded ht, h.2⟩
  | confirming | observing | filing | inserting => exact ⟨hlanded h.1, h.2⟩
  | releaseReady => exact ⟨hlanded h.1, h.2.1.trans ht, h.2.2⟩
  | releaseConfirming => exact hlanded h
  | _ => trivial

end Mono

/-! ## Changes that leave the record alone -/

/-- A call goes on to another phase. -/
theorem State.Ok.setPhase [DecidableEq C] (ok : s.Ok k)
    (hphase : PhaseOk k s.landed s.now (k.process c) phase)
    (hwritten : ∀ record, phase.written = some record →
      LeaseOk k s.record (k.process c) (k.leaseOf record)) : (s.setPhase c phase).Ok k :=
  { ok with
    phases c' := by
      by_cases hc : c' = c
      · subst hc
        simpa [State.setPhase] using hphase
      · simpa [State.setPhase, hc] using ok.phases c'
    leases p lease h := by
      cases h with
      | filed h => exact ok.leases p lease (.filed h)
      | @pending record c' hc' h =>
        by_cases hc : c' = c
        · subst hc hc'
          exact hwritten record (by simpa [State.setPhase] using h)
        · exact ok.leases p _ (.pending c' hc' (by simpa [State.setPhase, hc] using h)) }

/-- A call that has written nothing goes on to another phase. -/
theorem State.Ok.setPhase_of_none [DecidableEq C] (ok : s.Ok k)
    (hphase : PhaseOk k s.landed s.now (k.process c) phase) (hwritten : phase.written = none) :
    (s.setPhase c phase).Ok k :=
  ok.setPhase hphase fun record h => by simp [hwritten] at h

/-- The maps of a process change. -/
theorem State.Ok.setDirectory (ok : s.Ok k)
    (hobserved : ∀ entry, d.observed = some entry → EntryOk k s.landed entry)
    (hlease : ∀ lease, d.localLease = some lease → LeaseOk k s.record p lease) :
    (s.setDirectory p d).Ok k :=
  { ok with
    entries p' entry h := by
      by_cases hp : p' = p
      · subst hp
        exact hobserved entry (by simpa [State.setDirectory] using h)
      · exact ok.entries p' entry (by simpa [State.setDirectory, hp] using h)
    leases p' lease h := by
      cases h with
      | filed h =>
        by_cases hp : p' = p
        · subst hp
          exact hlease lease (by simpa [State.setDirectory] using h)
        · exact ok.leases p' lease (.filed (by simpa [State.setDirectory, hp] using h))
      | pending c hc h => exact ok.leases p' _ (.pending c hc h) }

/-- Time passes, the probe object is stamped, or the puts that nobody waits for change. -/
theorem State.Ok.environment (ok : s.Ok k) {now clock : Nat} {orphans : List (LeasePut P N)}
    (hnow : s.now ≤ now) (hclock : clock * ms ≤ now)
    (horphans : ∀ put ∈ orphans, PutOk k s.landed now put) :
    ({ s with now := now, clock := clock, orphans := orphans }).Ok k :=
  { ok with
    clock := hclock
    records r hr := by
      obtain ⟨hstamped, hlanded, hpast, hshows, hduration⟩ := ok.records r hr
      exact ⟨hstamped, hlanded, hpast.trans hnow, hshows, hduration⟩
    phases c := (ok.phases c).mono (List.Subset.refl _) hnow
    orphans := horphans
    leases p lease h := by
      cases h with
      | filed h => exact ok.leases p lease (.filed h)
      | pending c hc h => exact ok.leases p _ (.pending c hc h) }

/-- An observation under the fingerprint of a record is worth what it says for that record. -/
theorem State.Ok.endOf_le_of_entry (ok : s.Ok k) (hentry : (s.directories p).observed = some entry)
    (known : Known s.landed t r) (hfingerprint : entry.fingerprint = r.fingerprint) :
    k.endOf r ≤ max entry.observedAt entry.serverTime + entry.remainingAtObservation := by
  obtain ⟨r', hr', hprint, hbound⟩ := ok.entries p entry hentry
  have hsame : r' = r := by
    by_contra hne
    have hprints : r'.fingerprint = r.fingerprint := hprint.symm.trans hfingerprint
    exact (distinct_of_order ok.order hr' known.mem hne).1 (congrArg (·.heartbeat) hprints)
  subst hsame
  exact hbound known.active

/-! ## A put takes effect -/

section Land

variable {stamp : Nat × Nat} {put : LeasePut P N} (hput : PutOk k s.landed s.now put)

include hput

/-- A put that finds its version replaces the very record that its call has read. -/
theorem State.Ok.base_eq (ok : s.Ok k) (hmatch : put.matches s = true) : put.base = s.record := by
  have hversions : put.base.map (·.version) = s.record.map (·.version) := by
    simpa [LeasePut.matches] using hmatch
  cases hbase : put.base with
  | none =>
    rw [hbase] at hversions
    exact (Option.map_eq_none_iff.1 hversions.symm).symm
  | some r =>
    rw [hbase] at hversions
    obtain ⟨r', hr', hversion⟩ := Option.map_eq_some_iff.1 hversions.symm
    by_contra hne
    have hmem := (hput.replaces r hbase).1
    have hmem' := State.mem_of_record hr'
    refine (distinct_of_order ok.order hmem' hmem ?_).2 hversion
    rintro rfl
    exact hne hr'.symm

/-- A lease that was sound before a put takes effect is sound after it. -/
theorem State.Ok.leaseOk_land (ok : s.Ok k)
    (hbase : put.base = s.record) (quiet : ReleaseQuiet k s put) (h : Holds k s p lease) :
    LeaseOk k (some (put.land stamp version s.now)) p lease := by
  refine ⟨_, rfl, ?_⟩
  obtain ⟨r, hr, hlease⟩ := ok.leases p lease h
  have hrecord := ok.records r (State.mem_of_record hr)
  rcases hlease with ⟨hactive, hnode, hholder, hgeneration, hvalid⟩ | hended
  · obtain ⟨-, hpast, hcases⟩ := hput.replaces r (hbase.trans hr)
    rcases hcases with hreleased | howned | hover
    · simp [hactive] at hreleased
    · have hown : r.nodeId = put.nodeId ∧ r.holderId = put.holderId := by
        simpa [StoredWriterLease.ownedBy] using howned
      cases hrel : put.released with
      | true => exact .inr (quiet hrel lease (hown.2 ▸ hholder ▸ h))
      | false =>
        have hgen := hput.generation r (hbase.trans hr) hactive howned
        have hstart : r.startedAt ≤ put.startedAt :=
          (hrecord.stamped.trans hrecord.landed).trans hpast
        exact .inl ⟨hrel, hown.1.symm.trans hnode, hown.2.symm.trans hholder,
          hgen.trans hgeneration, hvalid.trans (Nat.add_le_add_right hstart _)⟩
    · subst hholder
      exact .inr ((hvalid.trans hover).trans hput.started)
  · exact .inr (hended.trans hrecord.past)

/-- The order of the versions is kept by a put whose heartbeat can still be raised. -/
theorem State.Ok.order_land (ok : s.Ok k) (hbase : put.base = s.record) (free : HeartbeatFree s) :
    (put.land stamp (s.landed.length + 1) s.now :: s.landed).Pairwise fun newer older =>
      older.heartbeat < newer.heartbeat ∧ older.version < newer.version := by
  refine List.pairwise_cons.2 ⟨fun older holder => ⟨?_, ?_⟩, ok.order⟩
  · show older.heartbeat < put.heartbeat
    obtain ⟨r, rest, hlanded⟩ := List.exists_cons_of_ne_nil (List.ne_nil_of_mem holder)
    have hr : s.record = some r := by simp [State.record, hlanded]
    have hle : older.heartbeat ≤ r.heartbeat := by
      have horder := ok.order
      rw [hlanded] at horder holder
      rcases List.mem_cons.1 holder with rfl | hrest
      · exact le_rfl
      · exact ((List.pairwise_cons.1 horder).1 older hrest).1.le
    have hfree := free r hr
    rw [hput.heartbeat r (hbase.trans hr), saturatingSucc]
    omega
  · exact Nat.lt_succ_of_le (ok.versions older holder)

/-- A put that finds its version keeps the invariant when it takes effect. -/
theorem State.Ok.land (ok : s.Ok k) (hstamp : put.stamp = some stamp)
    (hmatch : put.matches s = true) (free : HeartbeatFree s) (quiet : ReleaseQuiet k s put) :
    (s.land (put.land stamp (s.landed.length + 1) s.now)).Ok k := by
  have hbase := ok.base_eq hput hmatch
  have hsubset : s.landed ⊆ put.land stamp (s.landed.length + 1) s.now :: s.landed :=
    List.subset_cons_self _ _
  obtain ⟨hstarted, hpast, hshows⟩ := hput.stamp stamp.1 stamp.2 hstamp
  exact {
    clock := ok.clock
    records := fun r hr => by
      rcases List.mem_cons.1 hr with rfl | hr
      · exact ⟨hstarted, hpast, le_rfl, hshows, hput.duration⟩
      · exact ok.records r hr
    versions := fun r hr => by
      rcases List.mem_cons.1 hr with rfl | hr
      · exact le_rfl
      · exact (ok.versions r hr).trans (Nat.le_succ _)
    order := ok.order_land hput hbase free
    phases := fun c => (ok.phases c).mono hsubset le_rfl
    orphans := fun put h => (ok.orphans put h).mono hsubset le_rfl
    entries := fun p entry h => (ok.entries p entry h).mono hsubset
    leases := fun p lease h => by
      refine ok.leaseOk_land hput hbase quiet ?_
      cases h with
      | filed h => exact .filed h
      | pending c hc h => exact .pending c hc h }

end Land

end HydraDb.Lease
