import HydraDb.Cluster.WriterLeaseInvariant

/-!
# Writer leases exclude each other and name an active record

Every event keeps the invariant of `WriterLeaseInvariant`, a cached takeover and a put that takes
effect under the condition `Sound`. Two properties of whole runs follow from it: two processes never
hold an unexpired lease at once (`writer_leases_exclusive`), and an unexpired lease names the stored
record, which is active (`held_leases_stored`). For the second the calls of a process must stay
apart (`Apart`): then a release that takes effect finds no lease, for it has taken the one of its
node, and the conditional put fails if a new one was acquired after it read the record.

Neither holds of all runs. The first run at the end of the file has a slow probe whose observation
is dated before the probe and counted from there, although the remaining time was taken after it.
In the second one a process acquires the lease between the two halves of its own release.
-/

namespace HydraDb.Lease

variable {P N C : Type} {k : Config P C} {s : State P N C} {c : C} {p : P} {shown : Nat}

theorem holds_initial : ¬ Holds k State.initial p lease := by
  rintro (h | ⟨c, -, h⟩)
  · cases h
  · cases h

variable [DecidableEq P] [DecidableEq N]

theorem ok_initial : (State.initial : State P N C).Ok k where
  clock := by simp [State.initial]
  records _ h := nomatch h
  versions _ h := nomatch h
  order := .nil
  phases _ := trivial
  orphans _ h := nomatch h
  entries _ _ h := nomatch h
  leases _ _ h := absurd h holds_initial

/-! ## What a call reads and writes -/

/-- The maps of a process change without a new observation or lease. -/
theorem State.Ok.shrink (ok : s.Ok k) (hd : (s.directories p).Shrinks d) :
    (s.setDirectory p d).Ok k :=
  ok.setDirectory (fun entry h => ok.entries p entry (hd.observed entry h))
    fun lease h => ok.leases p lease (.filed (hd.lease lease h))

/-- The cache takes an observation of the record. -/
theorem State.Ok.observe (ok : s.Ok k) (h : EntryOk k s.landed entry) :
    (s.setDirectory p { s.directories p with observed := some entry }).Ok k :=
  ok.setDirectory (fun _ hentry => by cases hentry; exact h) fun lease h =>
    ok.leases p lease (.filed h)

/-- The put of an acquire or a renewal. -/
theorem MayReplace.putOk_acquire {n : N} (h : MayReplace k landed p n now current)
    (hms : ∀ p, ms ∣ k.leaseDuration p) :
    PutOk k landed now (acquirePut p n (k.leaseDuration p) now current) where
  replaces := h
  started := le_rfl
  stamp _ _ h := nomatch h
  duration := Nat.div_mul_cancel (hms p)
  heartbeat r hr := by
    cases hr
    rfl
  generation r hr hactive howned := by
    cases hr
    have hown : r.ownedBy p n = true := howned
    simp [acquirePut, sameHolder, hactive, hown]
  release h := nomatch h

/-- The put of a release. -/
theorem State.Ok.putOk_release (ok : s.Ok k)
    (hmem : current ∈ s.landed) (hpast : current.landedAt ≤ s.now)
    (howned : current.ownedBy p n = true) (hgeneration : current.generation = generation) :
    PutOk k s.landed s.now (releasePut p n generation s.now current) where
  replaces r hr := by
    cases hr
    exact ⟨hmem, hpast, .inr (.inl howned)⟩
  started := le_rfl
  stamp _ _ h := nomatch h
  duration := by
    have hholder : current.holderId = p := by
      simpa using (Bool.and_eq_true_iff.1 howned).2
    exact hholder ▸ (ok.records current hmem).duration
  heartbeat r hr := by
    cases hr
    rfl
  generation r hr _ _ := by
    cases hr
    exact hgeneration.symm
  release _ := ⟨current, rfl, howned⟩

theorem PutOk.stamped {put : LeasePut P N} (h : PutOk k landed now put)
    (hshown : ShowsTime shown now) : PutOk k landed now (put.stamped now shown) :=
  { h with
    stamp m shown' hstamp := by
      cases hstamp
      exact ⟨h.started, le_rfl, hshown⟩ }

/-- The lease of the record that a call has written. -/
theorem State.Ok.leaseOk_written (ok : s.Ok k) {record : StoredWriterLease P N}
    (h : (s.calls c).written = some record) : LeaseOk k s.record (k.process c) (k.leaseOf record) :=
  ok.leases _ _ (.pending c rfl h)

variable [DecidableEq C]

/-! ## A call goes on -/

theorem State.Ok.setPlain (ok : s.Ok k) (h : phase.plain = true) : (s.setPhase c phase).Ok k := by
  cases phase with
  | idle | reading | dropping | droppingAbandoned | takingLocal | takingAbandoned | releasing
  | abandoning | parking => exact ok.setPhase_of_none trivial rfl
  | _ => cases h

/-- A decision on an active record goes on to a put only if the record may be replaced. -/
theorem State.Ok.decision (ok : s.Ok k) (known : Known s.landed t stored) (ht : t ≤ s.now)
    (hover : a.kind ≠ .owner → stored.ownedBy (k.process c) a.nodeId = false → remainingMs = 0 →
      k.endOf stored ≤ s.now) :
    (s.setPhase c (decision (k.process c) a stored remainingMs)).Ok k := by
  unfold Lease.decision
  split
  · exact ok.setPlain rfl
  next hkind =>
  split
  · exact ok.setPlain rfl
  next hgo =>
  refine ok.setPhase_of_none (fun r hr => ?_) rfl
  cases hr
  refine ⟨known.mem, known.past.trans ht, .inr ?_⟩
  cases howned : stored.ownedBy (k.process c) a.nodeId with
  | true => exact .inl rfl
  | false => exact .inr (hover hkind howned (by simpa [howned] using hgo))

/-- A call goes on with what it knows. -/
theorem State.Ok.go (ok : s.Ok k) (hms : ∀ p, ms ∣ k.leaseDuration p) (hcall : s.calls c = phase)
    (h : Goes k s (k.process c) phase phase') : (s.setPhase c phase').Ok k := by
  have hphase := ok.phases c
  rw [hcall] at hphase
  cases h with
  | plain h => exact ok.setPlain h
  | free h hfree =>
    refine ok.setPhase_of_none (fun r hr => ?_) rfl
    have hmem := State.mem_of_record (h.trans hr)
    exact ⟨hmem, (ok.records r hmem).past, .inl (hfree r hr)⟩
  | active h hactive =>
    have hmem := State.mem_of_record h
    exact ok.setPhase_of_none ⟨hmem, (ok.records _ hmem).past, hactive⟩ rfl
  | date => exact ok.setPhase_of_none ⟨hphase, le_rfl⟩ rfl
  | miss => exact ok.setPhase_of_none ⟨hphase.1, hphase.2, nofun⟩ rfl
  | stampProbe h =>
    refine ok.setPhase_of_none ⟨hphase.1, hphase.2.1, fun shown' hshown => ?_⟩ rfl
    cases hshown
    exact h.1
  | head => exact ok.setPhase_of_none ⟨hphase.1, hphase.2, ok.clock⟩ rfl
  | write => exact ok.setPhase_of_none ⟨MayReplace.putOk_acquire hphase hms, rfl, rfl, rfl⟩ rfl
  | stamp h => exact ok.setPhase_of_none ⟨hphase.1.stamped h, hphase.2⟩ rfl
  | confirm =>
    refine ok.setPhase hphase fun record' h => ?_
    cases h
    exact ok.leaseOk_written (by rw [hcall]; rfl)
  | owned h howned hgeneration =>
    have hmem := State.mem_of_record h
    exact ok.setPhase_of_none ⟨hmem, (ok.records _ hmem).past, howned, hgeneration⟩ rfl
  | writeRelease =>
    obtain ⟨hmem, hpast, howned, hgeneration⟩ := hphase
    exact ok.setPhase_of_none ⟨ok.putOk_release hmem hpast howned hgeneration, rfl, rfl, rfl⟩ rfl
  | stampRelease h => exact ok.setPhase_of_none ⟨hphase.1.stamped h, hphase.2⟩ rfl

/-! ## Every event -/

/-- The caller of a put gives up. -/
theorem State.Ok.abandon (ok : s.Ok k) (hput : PutOk k s.landed s.now put)
    (hplain : phase.plain = true) :
    ({ s.setPhase c phase with orphans := put :: s.orphans }).Ok k := by
  refine (ok.setPlain hplain).environment le_rfl ok.clock fun put' h => ?_
  rcases List.mem_cons.1 h with rfl | h
  · exact hput
  · exact ok.orphans put' h

/-- Every step that meets the condition keeps the invariant, if the configured lease durations are
whole milliseconds. -/
theorem State.Ok.step (ok : s.Ok k) (hms : ∀ p, ms ∣ k.leaseDuration p)
    (sound : Sound k s event) (h : Step k s event s') : s'.Ok k := by
  have rest index : ({ s with orphans := s.orphans.eraseIdx index }).Ok k :=
    ok.environment le_rfl ok.clock fun put h => ok.orphans put (List.mem_of_mem_eraseIdx h)
  -- what the call of a step knows where it is
  have knows {c : C} {phase : Phase P N} (hcall : s.calls c = phase) :
      PhaseOk k s.landed s.now (k.process c) phase := hcall ▸ ok.phases c
  have hwritten {c : C} {phase : Phase P N} (hcall : s.calls c = phase)
      record h :
      LeaseOk k s.record (k.process c) (k.leaseOf record) := ok.leaseOk_written (hcall ▸ h)
  cases h with
  | skip => exact ok
  | @tick elapsed =>
    have hnow : s.now ≤ s.now + elapsed := Nat.le_add_right _ _
    exact ok.environment hnow (ok.clock.trans hnow) fun put h =>
      (ok.orphans put h).mono (List.Subset.refl _) hnow
  | maps hd => exact ok.shrink hd
  | go hcall h => exact ok.go hms hcall h
  | shrink hd h => exact (ok.shrink hd).setPlain h
  | hit hcall hentry hprint =>
    obtain ⟨known, ht⟩ := knows hcall
    refine ok.decision known ht fun hkind hforeign hremaining => ?_
    have sound : TakeoverExact k s _ := sound.1.1
    rw [TakeoverExact, hcall] at sound
    have hend := ok.endOf_le_of_entry hentry known hprint
    exact (hend.trans (sound _ hentry hprint hkind hforeign hremaining)).trans ht
  | @landProbe c a stored t shown event hcall =>
    obtain ⟨known, ht, hstamp⟩ := knows hcall
    have hgo : (s.setPhase c (.heading a stored t)).Ok k := ok.setPhase_of_none ⟨known, ht⟩ rfl
    exact hgo.environment le_rfl (hstamp _ rfl) hgo.orphans
  | note hcall hd =>
    obtain ⟨known, ht, hserver⟩ := knows hcall
    have hrecord := ok.records _ known.mem
    subst hd
    exact (ok.observe (known.entryOk_probe hrecord)).decision known ht fun _ _ hremaining =>
      (hrecord.endOf_le hremaining).trans hserver
  | @land c a put stamp record hcall hstamp hmatch hrecord =>
    obtain ⟨hput, hholder, -, hactive⟩ := knows hcall
    subst hrecord
    have hmem : put ∈ (s.calls c).put := by rw [hcall]; rfl
    have landed := ok.land hput hstamp hmatch (sound.1.2 _ hmem hmatch) (sound.2 _ hmem hmatch)
    refine landed.setPhase ⟨List.mem_cons_self .., hholder⟩ fun record hrecord => ?_
    cases hrecord
    refine ⟨_, rfl, .inl ⟨hactive, rfl, hholder, rfl, ?_⟩⟩
    simp [Config.leaseOf, LeasePut.land, hholder]
  | @landRelease c n generations attempts put stamp record hcall hstamp hmatch hrecord =>
    subst hrecord
    have hmem : put ∈ (s.calls c).put := by rw [hcall]; rfl
    have landed := ok.land (knows hcall).1 hstamp hmatch (sound.1.2 _ hmem hmatch)
      (sound.2 _ hmem hmatch)
    exact landed.setPhase_of_none (List.mem_cons_self ..) rfl
  | observe hcall hd =>
    have hphase := knows hcall
    have hlease := hwritten hcall
    subst hd
    exact (ok.observe ((ok.records _ hphase.1).entryOk_own hphase.1)).setPhase hphase hlease
  | observeRelease hcall hd =>
    have hmem := knows hcall
    subst hd
    exact (ok.observe ((ok.records _ hmem).entryOk_own hmem)).setPlain plain_nextRelease
  | file hcall hd =>
    have hphase := knows hcall
    have hlease := hwritten hcall
    exact (ok.shrink hd).setPhase hphase hlease
  | insert hcall hd =>
    subst hd
    refine State.Ok.setPlain ?_ rfl
    refine ok.setDirectory (fun entry h => ok.entries _ entry h) fun lease hlease => ?_
    cases hlease
    exact hwritten hcall _ rfl
  | abandon hcall => exact ok.abandon (knows hcall).1 rfl
  | abandonRelease hcall => exact ok.abandon (knows hcall).1 plain_nextRelease
  | stampOrphan h =>
    refine ok.environment le_rfl ok.clock fun put hput => ?_
    obtain ⟨i, hi⟩ := List.mem_iff_getElem?.1 hput
    rw [List.getElem?_modify] at hi
    obtain ⟨put', hput', rfl⟩ := Option.map_eq_some_iff.1 hi
    have hold := ok.orphans put' (List.mem_of_getElem? hput')
    split
    · exact hold.stamped h
    · exact hold
  | landOrphan horphan hstamp hmatch =>
    have hput := ok.orphans _ (List.mem_of_getElem? horphan)
    refine (rest _).land hput hstamp hmatch (sound.1.2 _ horphan hmatch) fun hreleased lease
      hlease => ?_
    refine sound.2 _ horphan hmatch hreleased lease ?_
    cases hlease with
    | filed h => exact .filed h
    | pending c hc h => exact .pending c hc h
  | loseOrphan => exact rest _

/-! ## Two processes never hold the lease at once -/

/-- No put that releases the record takes effect. -/
def NoRelease (s : State P N C) (event : Event P N C) : Prop :=
  ∀ put ∈ event.put s, put.matches s = true → put.released = false

omit [DecidableEq C] in
theorem Sound.of_noRelease (quiet : NoRelease s event)
    (takeover : TakeoverSound k s event) : Sound k s event :=
  ⟨takeover, fun put h hmatch hreleased => absurd hreleased (by simp [quiet put h hmatch])⟩

/-- An unexpired lease of a process names the stored record, which is active. -/
def State.Names (s : State P N C) (p : P) (lease : LocalWriterLease N) : Prop :=
  ∃ r, s.record = some r ∧ r.released = false ∧ r.nodeId = lease.nodeId ∧ r.holderId = p ∧
    r.generation = lease.generation

omit [DecidableEq C] in
theorem State.Ok.names (ok : s.Ok k) (hlease : (s.directories p).localLease = some lease)
    (hvalid : s.now < lease.validUntil) : s.Names p lease := by
  obtain ⟨r, hr, hnamed | hended⟩ := ok.leases p lease (.filed hlease)
  · obtain ⟨hactive, hnode, hholder, hgeneration, -⟩ := hnamed
    exact ⟨r, hr, hactive, hnode, hholder, hgeneration⟩
  · have hpast := (ok.records r (State.mem_of_record hr)).past
    omega

/-- In every run of any number of processes and calls in which no record is released and whose
events all meet the condition on takeovers, two processes never hold an unexpired lease at once. -/
theorem writer_leases_exclusive (k : Config P C) (hms : ∀ p, ms ∣ k.leaseDuration p)
    {s : State P N C}
    (run : Machine.Run (exec k)
      (fun s event => Feasible k s event ∧ NoRelease s event ∧ TakeoverSound k s event) .initial s)
    {p p' : P} {lease lease' : LocalWriterLease N}
    (hlease : (s.directories p).localLease = some lease)
    (hlease' : (s.directories p').localLease = some lease')
    (hvalid : s.now < lease.validUntil) (hvalid' : s.now < lease'.validUntil) : p = p' := by
  have ok : s.Ok k := run.invariant ok_initial fun s event h ok =>
    ok.step hms (.of_noRelease h.2.1 h.2.2) (exec_step h.1)
  obtain ⟨r, hr, -, -, hholder, -⟩ := ok.names hlease hvalid
  obtain ⟨r', hr', -, -, hholder', -⟩ := ok.names hlease' hvalid'
  cases hr.symm.trans hr'
  exact hholder.symm.trans hholder'

/-! ### Runs -/

instance (shown now : Nat) : Decidable (ShowsTime shown now) := instDecidableAnd

instance (s : State P N C) (event : Event P N C) : Decidable (Feasible k s event) := by
  cases event <;> dsimp only [Feasible] <;> infer_instance

instance (s : State P N C) : Decidable (HeartbeatFree s) :=
  inferInstanceAs (Decidable (∀ r ∈ s.record, r.heartbeat < u64Max))

instance (s : State P N C) (event : Event P N C) : Decidable (NoRelease s event) :=
  inferInstanceAs (Decidable (∀ put ∈ event.put s, put.matches s = true → put.released = false))

instance (observed : Option (ObservedWriterLease P N)) (p : P) (phase : Phase P N) :
    Decidable (phase.TakeoverExact observed p) := by
  cases phase <;> dsimp only [Phase.TakeoverExact] <;> infer_instance

instance (s : State P N C) (event : Event P N C) : Decidable (TakeoverSound k s event) := by
  cases event <;> dsimp only [TakeoverSound, TakeoverExact] <;> infer_instance

/-- The events of a call that acquires the lease, from its put on. -/
def putEvents (c : C) (shown : Nat) : List (Event P N C) :=
  [.write c, .stampPut c shown, .landPut c, .confirm c, .observe c, .file c, .insert c]

/-- Two processes with a call each and leases of thirty seconds. -/
def twoProcesses : Config Bool Bool := ⟨id, fun _ => 30000 * ms⟩

/-- The second process observes the record of the first at one second and asks again at 32. -/
def expiredRun : List (Event Bool Unit Bool) :=
  [.call false .acquire (), .read false] ++ putEvents false 0 ++
  [.tick (1000 * ms), .call true .acquire (), .read true, .date true, .look true,
   .stampProbe true 1000, .landProbe true, .head true, .note true, .drop true, .drop true,
   .tick (31000 * ms), .call true .acquire (), .read true, .date true, .look true] ++
  putEvents true 32000

/-- The state in which two processes are after a list of events. -/
def afterEvents (events : List (Event Bool Unit Bool)) : State Bool Unit Bool :=
  events.foldl (exec twoProcesses) .initial

/-- The lease of the first process is still filed when the second one takes the record over. -/
theorem writer_leases_exclusive_expiredRun :
    ((afterEvents expiredRun).directories false).localLease = some ⟨(), 1, 30000 * ms⟩ ∧
      ((afterEvents expiredRun).directories true).localLease = some ⟨(), 2, 62000 * ms⟩ ∧
      ¬ (afterEvents expiredRun).now < 30000 * ms := by
  refine ⟨rfl, rfl, fun hvalid => ?_⟩
  have hms p : ms ∣ twoProcesses.leaseDuration p := by cases p <;> decide +kernel
  have hrun : Machine.Run (exec twoProcesses)
      (fun s event => Feasible twoProcesses s event ∧ NoRelease s event ∧
        TakeoverSound twoProcesses s event) .initial (afterEvents expiredRun) :=
    .of_admits (by decide +kernel)
  have hsame : false = true :=
    writer_leases_exclusive twoProcesses hms hrun rfl rfl hvalid (by decide +kernel)
  cases hsame

/-- The probe of the second process takes 15 seconds. What it finds is dated before the probe, so
the next call ages it by these 15 seconds once more. -/
def slowProbeRun : List (Event Bool Unit Bool) :=
  [.call false .acquire (), .read false] ++ putEvents false 0 ++
  [.tick (1000 * ms), .call true .acquire (), .read true, .date true, .look true,
   .tick (15000 * ms), .stampProbe true 16000, .landProbe true, .head true, .note true, .drop true,
   .drop true, .tick (100 * ms), .call true .acquire (), .read true, .date true, .look true] ++
  putEvents true 16100

/-- Both processes hold an unexpired lease 16.1 seconds after the first one was acquired. -/
theorem not_exclusive_slowProbeRun :
    Machine.Admits (exec twoProcesses)
        (fun s event => Feasible twoProcesses s event ∧ NoRelease s event) .initial slowProbeRun ∧
      ((afterEvents slowProbeRun).directories false).localLease = some ⟨(), 1, 30000 * ms⟩ ∧
      ((afterEvents slowProbeRun).directories true).localLease = some ⟨(), 2, 46100 * ms⟩ ∧
      (afterEvents slowProbeRun).now < 30000 * ms :=
  ⟨by decide +kernel, rfl, rfl, by decide +kernel⟩

/-! ## A held lease is stored -/

variable (k) in
/-- While a release of a process is under way, from the removal of the local lease on, no call of
the process is between a put that has taken effect and the filing of its lease. -/
def Apart (s : State P N C) : Prop :=
  ∀ c c', k.process c = k.process c' → (s.calls c).releases ≠ none → (s.calls c').written = none

variable (k) in
/-- A release that is under way has left no lease of its node filed, and a put of an abandoned
release that can still take effect finds no unexpired lease. -/
structure State.ReleasesOk (s : State P N C) : Prop where
  taken : ∀ c n, (s.calls c).releases = some n → ∀ lease,
    (s.directories (k.process c)).localLease = some lease → lease.nodeId ≠ n
  orphans : ∀ put ∈ s.orphans, put.matches s = true → ReleaseQuiet k s put

omit [DecidableEq C] in
/-- The put of a release takes effect on the record of its own node, which no lease names. -/
theorem State.Ok.quiet_release (ok : s.Ok k) (h : s.ReleasesOk k) (apart : Apart k s)
    (hcall : s.calls c = .releaseWriting n generations attempts put)
    (hmatch : put.matches s = true) : ReleaseQuiet k s put := by
  intro hreleased lease hlease
  have hphase := ok.phases c
  rw [hcall] at hphase
  obtain ⟨hput, hholder, hnode, -⟩ := hphase
  have hreleases : (s.calls c).releases = some n := by rw [hcall]; rfl
  cases hlease with
  | pending c' hc' hwritten =>
    have hnone := apart c c' (hholder.symm.trans hc'.symm) (by simp [hreleases])
    exact absurd (hwritten.symm.trans hnone) (Option.some_ne_none _)
  | filed hfiled =>
    obtain ⟨r, hr, ⟨-, hlease, -⟩ | hended⟩ := ok.leases _ lease (.filed hfiled)
    · obtain ⟨r', hr', howned⟩ := hput.release hreleased
      cases (ok.base_eq hput hmatch).symm.trans hr' |>.symm.trans hr
      have hown : r.nodeId = put.nodeId := by
        simpa using (Bool.and_eq_true_iff.1 howned).1
      rw [hholder] at hfiled
      exact absurd (hlease.symm.trans (hown.trans hnode)) (h.taken c n hreleases lease hfiled)
    · exact hended.trans (ok.records r (State.mem_of_record hr)).past

section

variable {s' : State P N C} (h : s.ReleasesOk k)
  (hleases : ∀ p lease, (s'.directories p).localLease = some lease →
    (s.directories p).localLease = some lease)
  (horphans : ∀ put ∈ s'.orphans, put.matches s = true → ReleaseQuiet k s put)

include h hleases horphans

omit [DecidableEq P] [DecidableEq N]

omit [DecidableEq C] in
/-- What a release knows is kept while the record stays, calls go on, and no lease is new. -/
theorem State.ReleasesOk.frame (hrecord : s'.record = s.record) (hnow : s.now ≤ s'.now)
    (hreleases : ∀ c n, (s'.calls c).releases = some n → (s.calls c).releases = some n ∨
      ∀ lease, (s'.directories (k.process c)).localLease = some lease → lease.nodeId ≠ n)
    (hwritten : ∀ c r, (s'.calls c).written = some r → (s.calls c).written = some r) :
    s'.ReleasesOk k where
  taken c n hn lease hlease := by
    rcases hreleases c n hn with hold | hnew
    · exact h.taken c n hold lease (hleases _ lease hlease)
    · exact hnew lease hlease
  orphans put hput hmatch hreleased lease hlease := by
    have hmatch : put.matches s = true := by
      rwa [LeasePut.matches, hrecord] at hmatch
    refine (horphans put hput hmatch hreleased lease ?_).trans hnow
    cases hlease with
    | filed hfiled => exact .filed (hleases _ lease hfiled)
    | pending c hc hpending => exact .pending c hc (hwritten c _ hpending)

/-- A call goes on to another phase, and the maps of its process may lose a lease. -/
theorem State.ReleasesOk.setPhase
    (hs' : s'.landed = s.landed ∧ s'.now = s.now ∧ s'.calls = Function.update s.calls c phase)
    (hreleases : ∀ n, phase.releases = some n → (s.calls c).releases = some n ∨
      ∀ lease, (s'.directories (k.process c)).localLease = some lease → lease.nodeId ≠ n)
    (hwritten : ∀ r, phase.written = some r → (s.calls c).written = some r) :
    s'.ReleasesOk k := by
  obtain ⟨hlanded, hnow, hcalls⟩ := hs'
  refine h.frame hleases horphans (congrArg List.head? hlanded) hnow.ge (fun c' n hn => ?_)
    fun c' r hr => ?_
  · by_cases hc : c' = c
    · subst hc
      exact hreleases n (by simpa [hcalls] using hn)
    · exact .inl (by simpa [hcalls, hc] using hn)
  · by_cases hc : c' = c
    · subst hc
      exact hwritten r (by simpa [hcalls] using hr)
    · simpa [hcalls, hc] using hr

end

section

omit [DecidableEq C]

theorem Goes.follows (h : Goes k s p phase phase') :
    (∀ n, phase'.releases = some n → phase.releases = some n) ∧
      ∀ r, phase'.written = some r → phase.written = some r := by
  cases h with
  | plain hplain hreleases => exact ⟨hreleases, by simp [Phase.written_of_plain hplain]⟩
  | _ => exact ⟨fun _ h => h, fun _ h => h⟩

theorem quiet_decision {p : P} {a : Attempt N} :
    (decision p a stored remainingMs).releases = none ∧
      (decision p a stored remainingMs).written = none := by
  unfold Lease.decision
  split
  · exact ⟨rfl, rfl⟩
  split <;> exact ⟨rfl, rfl⟩

/-- When a put takes effect, what releases are under way have left no lease, and no other put
finds its version any more. -/
theorem State.ReleasesOk.land (h : s.ReleasesOk k) (ok : s.Ok k) {s' : State P N C}
    {record : StoredWriterLease P N} (hlanded : s'.landed = record :: s.landed)
    (hversion : record.version = s.landed.length + 1)
    (hdirectories : s'.directories = s.directories)
    (hreleases : ∀ c n, (s'.calls c).releases = some n → (s.calls c).releases = some n)
    (horphans : ∀ put ∈ s'.orphans, put ∈ s.orphans) : s'.ReleasesOk k where
  taken c n hn lease hlease := h.taken c n (hreleases c n hn) lease (hdirectories ▸ hlease)
  orphans put hput hmatch := by
    have hrecord : s'.record = some record := by rw [State.record, hlanded]; rfl
    have hversions : put.base.map (·.version) = some record.version := by
      simpa [LeasePut.matches, hrecord] using hmatch
    obtain ⟨r, hr, hsame⟩ := Option.map_eq_some_iff.1 hversions
    have hmem := ((ok.orphans put (horphans put hput)).replaces r hr).1
    have hle := ok.versions r hmem
    omega

end

theorem State.ReleasesOk.step (h : s.ReleasesOk k) (ok : s.Ok k) (apart : Apart k s)
    (hstep : Step k s event s') : s'.ReleasesOk k := by
  -- a map of one process that holds no new lease
  have shrinks {p : P} {d : Directory P N}
      (hd : ∀ lease, d.localLease = some lease → (s.directories p).localLease = some lease) p' lease
      (hlease : ((Function.update s.directories p d) p').localLease = some lease) :
      (s.directories p').localLease = some lease := by
    by_cases hp : p' = p
    · subst hp
      exact hd lease (by simpa using hlease)
    · simpa [hp] using hlease
  have same {c : C} {phase phase' : Phase P N} (hcall : s.calls c = phase)
      (hreleases : ∀ n, phase'.releases = some n → phase.releases = some n) c' n
      (hn : ((Function.update s.calls c phase') c').releases = some n) :
      (s.calls c').releases = some n := by
    by_cases hc : c' = c
    · subst hc
      rw [hcall]
      exact hreleases n (by simpa using hn)
    · simpa [hc] using hn
  cases hstep with
  | skip => exact h
  | tick =>
    exact h.frame (fun _ _ => id) h.orphans rfl (Nat.le_add_right _ _) (fun _ _ => .inl) fun _ _ =>
      id
  | maps hd =>
    exact h.frame (shrinks hd.lease) h.orphans rfl le_rfl (fun _ _ => .inl) fun _ _ => id
  | go hcall hgoes =>
    subst hcall
    exact h.setPhase (fun _ _ => id) h.orphans ⟨rfl, rfl, rfl⟩
      (fun n hn => .inl (hgoes.follows.1 n hn)) hgoes.follows.2
  | shrink hd hplain hreleases =>
    exact h.setPhase (shrinks hd.lease) h.orphans ⟨rfl, rfl, rfl⟩
      (by simpa [State.setDirectory, State.setPhase] using hreleases)
      (by simp [Phase.written_of_plain hplain])
  | hit hcall =>
    exact h.setPhase (fun _ _ => id) h.orphans ⟨rfl, rfl, rfl⟩ (by simp [quiet_decision])
      (by simp [quiet_decision])
  | landProbe =>
    exact h.setPhase (fun _ _ => id) h.orphans ⟨rfl, rfl, rfl⟩ (by simp [Phase.releases])
      (by simp [Phase.written])
  | note hcall hd =>
    subst hd
    exact h.setPhase (shrinks fun _ => id) h.orphans ⟨rfl, rfl, rfl⟩ (by simp [quiet_decision])
      (by simp [quiet_decision])
  | land hcall hstamp hmatch hrecord =>
    subst hrecord
    exact h.land ok rfl rfl rfl (same hcall (by simp [Phase.releases])) fun _ => id
  | landRelease hcall hstamp hmatch hrecord =>
    subst hrecord
    exact h.land ok rfl rfl rfl (same hcall fun _ => id) fun _ => id
  | observe hcall hd =>
    subst hd
    exact h.setPhase (shrinks fun _ => id) h.orphans ⟨rfl, rfl, rfl⟩ (by simp [Phase.releases])
      (by rw [hcall]; exact fun _ => id)
  | observeRelease hcall hd =>
    subst hd
    refine h.setPhase (shrinks fun _ => id) h.orphans ⟨rfl, rfl, rfl⟩ (fun n hn => .inl ?_)
      (by simp [Phase.written_of_plain plain_nextRelease])
    rw [hcall, ← releases_nextRelease hn]
    rfl
  | file hcall hd =>
    exact h.setPhase (shrinks hd.lease) h.orphans ⟨rfl, rfl, rfl⟩ (by simp [Phase.releases])
      (by rw [hcall]; exact fun _ => id)
  | @insert c a record d _ _ hcall hd =>
    subst hd
    have hwritten : (s.calls c).written = some record := by rw [hcall]; rfl
    refine ⟨fun c' n hn lease hlease => ?_, fun put hput hmatch hreleased lease hlease => ?_⟩
    · -- a release of the process is not under way while the call files its lease
      have hn := @same c _ .idle hcall (by simp [Phase.releases]) c' n hn
      by_cases hp : k.process c' = k.process c
      · exact absurd (hwritten.symm.trans (apart c' c hp (by simp [hn]))) (Option.some_ne_none _)
      · exact h.taken c' n hn lease (by simpa [State.setPhase, State.setDirectory, hp] using hlease)
    · refine h.orphans put hput hmatch hreleased lease ?_
      cases hlease with
      | filed hfiled =>
        by_cases hp : put.holderId = k.process c
        · rw [hp] at hfiled ⊢
          have hlease : k.leaseOf record = lease := by
            simpa [State.setPhase, State.setDirectory] using hfiled
          cases hlease
          exact .pending c rfl hwritten
        · exact .filed (by simpa [State.setPhase, State.setDirectory, hp] using hfiled)
      | @pending r c' hc' hpending =>
        by_cases hc : c' = c
        · subst hc
          simp [State.setPhase, Phase.written] at hpending
        · exact .pending c' hc' (by simpa [State.setPhase, State.setDirectory, hc] using hpending)
  | abandon hcall =>
    have hphase : PhaseOk k s.landed s.now _ (.writing _ _) := hcall ▸ ok.phases _
    refine h.setPhase (fun _ _ => id) (fun put hput hmatch => ?_) ⟨rfl, rfl, rfl⟩
      (by simp [Phase.releases]) (by simp [Phase.written])
    rcases List.mem_cons.1 hput with rfl | hput
    · exact fun hreleased => absurd hreleased (by simp [hphase.2.2.2])
    · exact h.orphans put hput hmatch
  | abandonRelease hcall =>
    refine h.setPhase (fun _ _ => id) (fun put hput hmatch => ?_) ⟨rfl, rfl, rfl⟩
      (fun n hn => .inl ?_) (by simp [Phase.written_of_plain plain_nextRelease])
    · rcases List.mem_cons.1 hput with rfl | hput
      · exact ok.quiet_release h apart hcall hmatch
      · exact h.orphans put hput hmatch
    · rw [hcall, ← releases_nextRelease hn]
      rfl
  | stampOrphan =>
    refine h.frame (fun _ _ => id) (fun put hput => ?_) rfl le_rfl (fun _ _ => .inl) fun _ _ => id
    obtain ⟨i, hi⟩ := List.mem_iff_getElem?.1 hput
    rw [List.getElem?_modify] at hi
    obtain ⟨put', hput', rfl⟩ := Option.map_eq_some_iff.1 hi
    have hold := h.orphans put' (List.mem_of_getElem? hput')
    split <;> exact hold
  | landOrphan => exact h.land ok rfl rfl rfl (fun _ _ => id) fun _ => List.mem_of_mem_eraseIdx
  | loseOrphan =>
    exact h.frame (fun _ _ => id)
      (fun put hput => h.orphans put (List.mem_of_mem_eraseIdx hput)) rfl le_rfl
      (fun _ _ => .inl) fun _ _ => id

omit [DecidableEq C] in
/-- Where releases and acquires stay apart, a release that takes effect finds no lease. -/
theorem Sound.of_apart (ok : s.Ok k) (h : s.ReleasesOk k) (apart : Apart k s)
    (takeover : TakeoverSound k s event) : Sound k s event := by
  refine ⟨takeover, fun put hput hmatch => ?_⟩
  cases event with
  | landPut c =>
    have hphase := ok.phases c
    cases hcall : s.calls c with
    | writing a put' =>
      rw [hcall] at hphase
      simp only [Event.put, hcall, Phase.put, Option.mem_some_iff] at hput
      subst hput
      exact fun hreleased => absurd hreleased (by simp [hphase.2.2.2])
    | releaseWriting n generations attempts put' =>
      simp only [Event.put, hcall, Phase.put, Option.mem_some_iff] at hput
      subst hput
      exact ok.quiet_release h apart hcall hmatch
    | _ => simp [Event.put, hcall, Phase.put] at hput
  | landOrphan index => exact h.orphans put (List.mem_of_getElem? hput) hmatch
  | _ => cases hput

/-- In every run of any number of processes and calls in which no acquire or renewal of a process
has its lease to file while a release of the process is under way, and whose events meet the
condition on takeovers: while a process holds an unexpired lease, the stored record is active, names
the node of the lease and the process, and carries the generation of the lease. -/
theorem held_leases_stored (k : Config P C) (hms : ∀ p, ms ∣ k.leaseDuration p) {s : State P N C}
    (run : Machine.Run (exec k)
      (fun s event => Feasible k s event ∧ TakeoverSound k s event ∧ Apart k s) .initial s)
    {p : P} {lease : LocalWriterLease N} (hlease : (s.directories p).localLease = some lease)
    (hvalid : s.now < lease.validUntil) :
    ∃ r, s.record = some r ∧ r.released = false ∧ r.nodeId = lease.nodeId ∧ r.holderId = p ∧
      r.generation = lease.generation := by
  have releases_initial : (State.initial : State P N C).ReleasesOk k := ⟨nofun, nofun⟩
  have ok : s.Ok k ∧ s.ReleasesOk k := by
    refine run.invariant (I := fun s => s.Ok k ∧ s.ReleasesOk k) ⟨ok_initial, releases_initial⟩ ?_
    rintro s event ⟨feasible, takeover, apart⟩ ⟨ok, h⟩
    exact ⟨ok.step hms (.of_apart ok h apart takeover) (exec_step feasible),
      h.step ok apart (exec_step feasible)⟩
  exact ok.1.names hlease hvalid

/-! ### Runs -/

instance [Fintype C] (s : State P N C) : Decidable (Apart k s) :=
  inferInstanceAs (Decidable (∀ c c', k.process c = k.process c' → (s.calls c).releases ≠ none →
    (s.calls c').written = none))

/-- One process with two calls. -/
def oneProcess : Config Unit Bool := ⟨fun _ => (), fun _ => 30000 * ms⟩

/-- The state in which one process is after a list of events. -/
def afterOwnEvents (events : List (Event Unit Unit Bool)) : State Unit Unit Bool :=
  events.foldl (exec oneProcess) .initial

/-- A release of the scope that is cut between the removal of the local lease and the read of the
record. -/
def leaveEvents (c : Bool) : List (Event Unit Unit Bool) :=
  [.releaseScope c (), .take c, .take c]

/-- The rest of the release. -/
def releaseEvents (c : Bool) : List (Event Unit Unit Bool) :=
  [.read c, .write c, .stampPut c 0]

/-- The process acquires its lease and starts to release it. -/
def releasingRun : List (Event Unit Unit Bool) :=
  [.register () (), .call false .acquire (), .read false] ++ putEvents false 0 ++
  leaveEvents true ++ releaseEvents true

/-- It gives up waiting for the release, which takes effect, and acquires the lease again. -/
def reacquired : State Unit Unit Bool :=
  afterOwnEvents (releasingRun ++
    [.fail true, .landOrphan 0, .call false .acquire (), .read false] ++ putEvents false 0)

/-- The second lease carries the generation after the released one. -/
theorem held_leases_stored_reacquired :
    (reacquired.directories ()).localLease = some ⟨(), 2, 30000 * ms⟩ ∧
      ∃ r, reacquired.record = some r ∧ r.released = false ∧ r.nodeId = () ∧ r.holderId = () ∧
        r.generation = 2 := by
  have hms p : ms ∣ oneProcess.leaseDuration p := by cases p; decide +kernel
  have hrun : Machine.Run (exec oneProcess) (fun s event => Feasible oneProcess s event ∧
      TakeoverSound oneProcess s event ∧ Apart oneProcess s) .initial reacquired :=
    .of_admits (by decide +kernel)
  have hlease : (reacquired.directories ()).localLease = some ⟨(), 2, 30000 * ms⟩ := rfl
  have hvalid : reacquired.now < 30000 * ms := by decide +kernel
  exact ⟨hlease, held_leases_stored oneProcess hms hrun hlease hvalid⟩

/-- The process acquires its lease again between the two halves of its release. -/
def cutReleaseRun : List (Event Unit Unit Bool) :=
  [.register () (), .call false .acquire (), .read false] ++ putEvents false 0 ++
  leaveEvents true ++ [.call false .acquire (), .read false, .date false, .look false] ++
  putEvents false 0 ++ releaseEvents true ++ [.landPut true]

/-- The process holds an unexpired lease and the stored record is released. -/
theorem not_stored_cutReleaseRun :
    Machine.Admits (exec oneProcess)
        (fun s event => Feasible oneProcess s event ∧ TakeoverSound oneProcess s event) .initial
        cutReleaseRun ∧
      ((afterOwnEvents cutReleaseRun).directories ()).localLease = some ⟨(), 1, 30000 * ms⟩ ∧
      (afterOwnEvents cutReleaseRun).now < 30000 * ms ∧
      (afterOwnEvents cutReleaseRun).record.map (·.released) = some true :=
  ⟨by decide +kernel, rfl, by decide +kernel, rfl⟩

end HydraDb.Lease
