import HydraDb.Cluster.WriterLeaseExclusive
import Mathlib.Data.List.Chain

/-!
# Generations fence the owners of a writer lease

A put computes the generation of the record from the version that its call has read: the same one
for the owner of an active record, the next one for anyone else. Since the put is conditional on
that version, every version of the record continues the one before it (`Continues`), however the
calls of the processes interleave. No condition on clocks or releases is needed for this; the
invariant speaks only of the versions, of the snapshots that the calls hold and of the puts under
way.

While the two counters are below `u64::MAX` the versions of one generation therefore have one owner,
and an owner that has lost the record does not come back under its old generation
(`generations_fence_owners`).
-/

namespace HydraDb

open List

namespace Lease

variable {P N C : Type} {k : Config P C} {s : State P N C}
  {landed : List (StoredWriterLease P N)} {put : LeasePut P N}

/-! ## Versions that continue each other -/

/-- What a version of the record takes over from the one it replaced. -/
def Continues (newer older : StoredWriterLease P N) : Prop :=
  newer.heartbeat = saturatingSucc older.heartbeat ∧
    ((newer.generation = older.generation ∧ newer.nodeId = older.nodeId ∧
        newer.holderId = older.holderId) ∨
      newer.generation = saturatingSucc older.generation)

/-- What a version of the record keeps from every version before it. -/
def Fences (newer older : StoredWriterLease P N) : Prop :=
  older.generation ≤ newer.generation ∧ older.heartbeat < newer.heartbeat ∧
    (newer.generation = older.generation →
      newer.nodeId = older.nodeId ∧ newer.holderId = older.holderId)

instance : Trans (Fences (P := P) (N := N)) Fences Fences where
  trans h h' := by
    obtain ⟨hgeneration, hheartbeat, howner⟩ := h
    obtain ⟨hgeneration', hheartbeat', howner'⟩ := h'
    refine ⟨hgeneration'.trans hgeneration, hheartbeat'.trans hheartbeat, fun hsame => ?_⟩
    obtain ⟨hnode, hholder⟩ := howner (by omega)
    obtain ⟨hnode', hholder'⟩ := howner' (by omega)
    exact ⟨hnode.trans hnode', hholder.trans hholder'⟩

/-- Below the end of the counters, what continues a version comes after it, and only its owner
stays in its generation. -/
theorem Continues.fences (h : Continues newer older)
    (hfree : older.generation < u64Max ∧ older.heartbeat < u64Max) : Fences newer older := by
  obtain ⟨hheartbeat, hgeneration⟩ := h
  unfold saturatingSucc at *
  rcases hgeneration with ⟨hsame, howner⟩ | hnext
  · exact ⟨hsame.ge, by omega, fun _ => howner⟩
  · exact ⟨by omega, by omega, fun hsame => by omega⟩

/-- The version that a put makes continues the one that its call has read. -/
def PutContinues (landed : List (StoredWriterLease P N)) (put : LeasePut P N) : Prop :=
  ∀ r, put.base = some r → r ∈ landed ∧ Continues (put.land (0, 0) 0 0) r

theorem PutContinues.mono (h : PutContinues landed put) (hlanded : landed ⊆ landed') :
    PutContinues landed' put :=
  fun r hr => ⟨hlanded (h r hr).1, (h r hr).2⟩

variable [DecidableEq P] [DecidableEq N]

/-- What a call has read, it has read of the record. -/
def PhaseContinues (landed : List (StoredWriterLease P N)) (p : P) : Phase P N → Prop
  | .checking _ stored | .looking _ stored _ | .probing _ stored _ _ | .heading _ stored _
  | .noting _ stored _ _ => stored ∈ landed
  | .ready _ current => ∀ r, current = some r → r ∈ landed
  | .releaseReady n generations _ current =>
    current ∈ landed ∧ current.ownedBy p n = true ∧ current.generation = generations.headD 0
  | .writing _ put | .releaseWriting _ _ _ put => PutContinues landed put
  | _ => True

/-- Every version of the record continues the one before it, and every put under way would. -/
structure State.Continuous (k : Config P C) (s : State P N C) : Prop where
  versions : ∀ r ∈ s.landed, r.version ≤ s.landed.length
  distinct : (s.landed.map (·.version)).Nodup
  chain : s.landed.IsChain Continues
  phases : ∀ c, PhaseContinues s.landed (k.process c) (s.calls c)
  orphans : ∀ put ∈ s.orphans, PutContinues s.landed put

/-! ## Events that write nothing -/

theorem PhaseContinues.mono (h : PhaseContinues landed p phase)
    (hlanded : landed ⊆ landed') : PhaseContinues landed' p phase := by
  cases phase with
  | checking | looking | probing | heading | noting => exact hlanded h
  | ready => exact fun r hr => hlanded (h r hr)
  | releaseReady => exact ⟨hlanded h.1, h.2⟩
  | writing | releaseWriting => exact PutContinues.mono h hlanded
  | _ => trivial

theorem PhaseContinues.of_plain (h : phase.plain = true) : PhaseContinues landed p phase := by
  cases phase with
  | idle | reading | dropping | droppingAbandoned | takingLocal | takingAbandoned | releasing
  | abandoning | parking => trivial
  | _ => cases h

theorem continuous_initial : (State.initial : State P N C).Continuous k where
  versions _ h := nomatch h
  distinct := .nil
  chain := .nil
  phases _ := trivial
  orphans _ h := nomatch h

/-- An event that writes nothing changes calls and puts that nobody waits for, and these go on with
what they know. -/
theorem State.Continuous.frame (h : s.Continuous k) {s' : State P N C}
    (hlanded : s'.landed = s.landed)
    (hcalls : ∀ c, s'.calls c = s.calls c ∨ PhaseContinues s.landed (k.process c) (s'.calls c))
    (horphans : ∀ put ∈ s'.orphans, PutContinues s.landed put) : s'.Continuous k where
  versions := hlanded ▸ h.versions
  distinct := hlanded ▸ h.distinct
  chain := hlanded ▸ h.chain
  phases c := by
    rw [hlanded]
    rcases hcalls c with heq | hphase
    · exact heq ▸ h.phases c
    · exact hphase
  orphans := hlanded ▸ horphans

/-! ## Puts -/

/-- The put of an acquire or a renewal keeps the generation only for the owner of the record. -/
theorem putContinues_acquire (hmem : ∀ r, current = some r → r ∈ landed) :
    PutContinues landed (acquirePut p n duration now current) := by
  intro r hr
  cases hr
  refine ⟨hmem r rfl, rfl, ?_⟩
  by_cases hsame : sameHolder p n (some r) = true
  · have hown : r.released = false ∧ r.nodeId = n ∧ r.holderId = p := by
      simpa [sameHolder, StoredWriterLease.ownedBy] using hsame
    exact .inl ⟨by simp [LeasePut.land, acquirePut, hsame], hown.2.1.symm, hown.2.2.symm⟩
  · exact .inr (by simp [LeasePut.land, acquirePut, hsame])

theorem putContinues_release (hmem : current ∈ landed) (howned : current.ownedBy p n = true)
    (hgeneration : current.generation = generation) :
    PutContinues landed (releasePut p n generation now current) := by
  rintro _ ⟨⟩
  have hown : current.nodeId = n ∧ current.holderId = p := by
    simpa [StoredWriterLease.ownedBy] using howned
  exact ⟨hmem, rfl, .inl ⟨hgeneration.symm, hown.1.symm, hown.2.symm⟩⟩

/-- A call that goes on keeps what it has read. -/
theorem Goes.continues (h : Goes k s p phase phase') (hphase : PhaseContinues s.landed p phase) :
    PhaseContinues s.landed p phase' := by
  cases h with
  | plain h => exact .of_plain h
  | free h => exact fun r hr => State.mem_of_record (h.trans hr)
  | active h => exact State.mem_of_record h
  | confirm => trivial
  | write => exact putContinues_acquire hphase
  | owned h howned hgeneration => exact ⟨State.mem_of_record h, howned, hgeneration⟩
  | writeRelease => exact putContinues_release hphase.1 hphase.2.1 hphase.2.2
  | _ => exact hphase

/-- A put that finds its version continues the record. -/
theorem State.Continuous.land (h : s.Continuous k) (hput : PutContinues s.landed put)
    (hmatch : put.matches s = true) :
    (s.land (put.land stamp (s.landed.length + 1) s.now)).Continuous k := by
  have hsubset : s.landed ⊆ put.land stamp (s.landed.length + 1) s.now :: s.landed :=
    subset_cons_self _ _
  have hversions : put.base.map (·.version) = s.record.map (·.version) := by
    simpa [LeasePut.matches] using hmatch
  exact {
    versions := fun r hr => by
      rcases mem_cons.1 hr with rfl | hr
      · exact le_rfl
      · exact (h.versions r hr).trans (Nat.le_succ _)
    distinct := by
      refine nodup_cons.2 ⟨fun hmem => ?_, h.distinct⟩
      obtain ⟨r, hr, hversion⟩ := mem_map.1 hmem
      exact absurd hversion (Nat.ne_of_lt (Nat.lt_succ_of_le (h.versions r hr)))
    chain := by
      refine isChain_cons.2 ⟨fun r hr => ?_, h.chain⟩
      -- the version tag is that of the record, and no other version has it
      have hrecord : s.record = some r := hr
      rw [hrecord] at hversions
      obtain ⟨r', hr', hversion⟩ := Option.map_eq_some_iff.1 hversions
      obtain ⟨hmem, hcontinues⟩ := hput r' hr'
      have hsame : r' = r :=
        inj_on_of_nodup_map h.distinct hmem (State.mem_of_record hrecord) hversion
      exact hsame ▸ hcontinues
    phases := fun c => (h.phases c).mono hsubset
    orphans := fun put hput => (h.orphans put hput).mono hsubset }

/-! ## Every event -/

section

variable [DecidableEq C] (h : s.Continuous k) {directories : P → Directory P N}

include h

/-- A call goes on to another phase; maps and the probe object may change. -/
theorem State.Continuous.setPhase (hphase : PhaseContinues s.landed (k.process c) phase) :
    ({ s with directories := directories, clock := shown }.setPhase c phase).Continuous k := by
  refine h.frame rfl (fun c' => ?_) h.orphans
  by_cases hc : c' = c
  · subst hc
    exact .inr (by simpa [State.setPhase] using hphase)
  · exact .inl (by simp [State.setPhase, hc])

theorem State.Continuous.decision
    (hmem : stored ∈ s.landed) : ({ s with directories := directories }.setPhase c
      (decision (k.process c) a stored remainingMs)).Continuous k := by
  unfold Lease.decision
  split
  · exact h.setPhase trivial
  split
  · exact h.setPhase trivial
  · refine h.setPhase fun r hr => ?_
    cases hr
    exact hmem

/-- Every step keeps the invariant. -/
theorem State.Continuous.step (hstep : Step k s event s') : s'.Continuous k := by
  have knows {c : C} {phase : Phase P N} (hcall : s.calls c = phase) :
      PhaseContinues s.landed (k.process c) phase := hcall ▸ h.phases c
  have abandon {c : C} {phase : Phase P N} (hplain : phase.plain = true) {put : LeasePut P N}
      (hput : PutContinues s.landed put) :
      ({ s.setPhase c phase with orphans := put :: s.orphans }).Continuous k := by
    have hset : (s.setPhase c phase).Continuous k := h.setPhase (.of_plain hplain)
    refine hset.frame rfl (fun _ => .inl rfl) fun put' hput' => ?_
    rcases mem_cons.1 hput' with rfl | hput'
    · exact hput
    · exact h.orphans put' hput'
  have rest index : ({ s with orphans := s.orphans.eraseIdx index }).Continuous k :=
    h.frame rfl (fun _ => .inl rfl) fun put hput => h.orphans put (mem_of_mem_eraseIdx hput)
  cases hstep with
  | skip => exact h
  | tick | maps => exact h.frame rfl (fun _ => .inl rfl) h.orphans
  | go hcall hgoes => exact h.setPhase (hgoes.continues (knows hcall))
  | shrink _ hplain => exact h.setPhase (.of_plain hplain)
  | hit hcall | note hcall => exact h.decision (knows hcall)
  | landProbe hcall =>
    have hmem := knows hcall
    exact h.setPhase hmem
  | land hcall _ hmatch hrecord | landRelease hcall _ hmatch hrecord =>
    subst hrecord
    exact (h.land (knows hcall) hmatch).setPhase trivial
  | observeRelease => exact h.setPhase (.of_plain plain_nextRelease)
  | observe | file | insert => exact h.setPhase trivial
  | abandon hcall => exact abandon rfl (knows hcall)
  | abandonRelease hcall => exact abandon plain_nextRelease (knows hcall)
  | stampOrphan =>
    refine h.frame rfl (fun _ => .inl rfl) fun put hput => ?_
    obtain ⟨i, hi⟩ := mem_iff_getElem?.1 hput
    rw [getElem?_modify] at hi
    obtain ⟨put', hput', rfl⟩ := Option.map_eq_some_iff.1 hi
    have hold := h.orphans put' (mem_of_getElem? hput')
    split
    · exact hold
    · exact hold
  | landOrphan horphan _ hmatch =>
    exact (rest _).land (h.orphans _ (mem_of_getElem? horphan)) hmatch
  | loseOrphan => exact rest _

end

/-! ## One owner for a generation -/

/-- In every run of any number of processes and calls, as long as the counters of the record are
below `u64::MAX`: the generation of the stored record never decreases and its heartbeat rises with
every put that takes effect, versions of one generation have the same node and holder, and once
another owner has taken the record over, every later version has a generation above the lost one. -/
theorem generations_fence_owners [DecidableEq C] (k : Config P C) {s : State P N C}
    (run : Machine.Run (exec k) (Feasible k) .initial s)
    (free : ∀ r ∈ s.landed, r.generation < u64Max ∧ r.heartbeat < u64Max) :
    (s.landed.Pairwise fun newer older =>
      older.generation ≤ newer.generation ∧ older.heartbeat < newer.heartbeat ∧
        (newer.generation = older.generation →
          newer.nodeId = older.nodeId ∧ newer.holderId = older.holderId)) ∧
      ∀ older taken newer, [newer, taken, older].Sublist s.landed →
        ¬ (taken.nodeId = older.nodeId ∧ taken.holderId = older.holderId) →
        older.generation < newer.generation := by
  have hcontinuous : s.Continuous k :=
    run.invariant continuous_initial fun _ _ feasible h => h.step (exec_step feasible)
  have hfences : s.landed.Pairwise Fences := by
    refine isChain_iff_pairwise.1 (hcontinuous.chain.imp_of_mem_imp ?_)
    intro newer older _ holder hcontinues
    exact hcontinues.fences (free older holder)
  refine ⟨hfences, fun older taken newer hsub hlost => ?_⟩
  obtain ⟨hnewer, htaken⟩ := pairwise_cons.1 (hfences.sublist hsub)
  have hgeneration : taken.generation ≤ newer.generation := (hnewer taken (by simp)).1
  have hfence : Fences taken older := (pairwise_cons.1 htaken).1 older (by simp)
  have hne : taken.generation ≠ older.generation := fun hsame => hlost (hfence.2.2 hsame)
  have hle := hfence.1
  omega

/-- The second process takes the record over in the generation after that of the first. -/
theorem generations_fence_owners_expiredRun :
    (afterEvents expiredRun).landed.map (fun r => (r.generation, r.holderId)) =
        [(2, true), (1, false)] ∧
      (afterEvents expiredRun).landed.Pairwise fun newer older =>
        older.generation ≤ newer.generation ∧ older.heartbeat < newer.heartbeat ∧
          (newer.generation = older.generation →
            newer.nodeId = older.nodeId ∧ newer.holderId = older.holderId) :=
  have hrun : Machine.Run (exec twoProcesses) (Feasible twoProcesses) .initial
      (afterEvents expiredRun) := .of_admits (by decide +kernel)
  ⟨by decide +kernel, (generations_fence_owners twoProcesses hrun (by decide +kernel)).1⟩

end Lease

end HydraDb
