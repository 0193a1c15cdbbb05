import HydraDb.Cluster.Bookmark

/-!
# What a store has to offer a call

`GraphStore.Covers` says of a sequence that whenever the store is willing to use its reader, the
reader has reached the sequence, as long as no loss of a writer is uncounted. A change of the store
keeps it (`Covers.change`), because a loss raises the generation, and a refresh in the new
generation sees everything that was durable before.
-/

namespace HydraDb.Bookmark.GraphStore

variable {s : GraphStore} {b durable : StorageSequence}

/-- Whenever the store uses its reader, the reader has reached the sequence, as long as no loss of a
writer is uncounted. -/
structure Reaches (s : GraphStore) (b : StorageSequence) : Prop where
  reader : ∀ view, s.reader = some view → s.refreshedGeneration = s.refreshGeneration → b ≤ view
  opening : ∀ seen, s.job = some (.opening seen) →
    s.refreshedGeneration = s.refreshGeneration → b ≤ seen
  refreshing : ∀ generation covered seen, s.job = some (.refreshing generation covered seen) →
    generation = s.refreshGeneration → b ≤ seen ∨ ∃ view, s.reader = some view ∧ b ≤ view

/-- No loss of a writer is uncounted. -/
def Settled (s : GraphStore) : Prop := s.closing = none ∧ s.lossUncounted = false

/-- Once every loss is counted, the reader reaches the sequence. -/
def Covers (s : GraphStore) (b : StorageSequence) : Prop := s.Settled → s.Reaches b

/-- The reader has reached the sequence. -/
def ReaderAt (s : GraphStore) (b : StorageSequence) : Prop :=
  ∃ view, s.reader = some view ∧ b ≤ view

/-- A refresh that covers the request reaches the sequence. -/
structure Awaits (s : GraphStore) (request : Nat) (b : StorageSequence) : Prop where
  completed : request ≤ s.refreshCompleted → s.ReaderAt b
  refreshing : ∀ generation covered seen,
    s.job = some (.refreshing generation (some covered) seen) → request ≤ covered → b ≤ seen

/-- The counters and the job of a store fit together. -/
structure Ok (s : GraphStore) (durable : StorageSequence) : Prop where
  refreshed_le : s.refreshedGeneration ≤ s.refreshGeneration
  completed_le : s.refreshCompleted ≤ s.refreshRequested
  reader_le : ∀ view, s.reader = some view → view ≤ durable
  opening : ∀ seen, s.job = some (.opening seen) → s.reader = none ∧ seen ≤ durable
  refreshing : ∀ generation covered seen, s.job = some (.refreshing generation covered seen) →
    generation ≤ s.refreshGeneration ∧ (∀ n, covered = some n → n ≤ s.refreshRequested) ∧
      seen ≤ durable ∧ s.reader.isSome

theorem Ok.mono (ok : s.Ok durable) (h : durable ≤ durable') : s.Ok durable' :=
  { ok with
    reader_le view hview := (ok.reader_le view hview).trans h
    opening seen hjob := (ok.opening seen hjob).imp_right fun hle => hle.trans h
    refreshing generation covered seen hjob :=
      (ok.refreshing generation covered seen hjob).imp_right fun hrest =>
        hrest.imp_right fun hseen => hseen.imp_left fun hle => hle.trans h }

theorem Reaches.mono (h : s.Reaches b) (hb : b' ≤ b) : s.Reaches b' where
  reader view hview hrefreshed := hb.trans (h.reader view hview hrefreshed)
  opening seen hjob hrefreshed := hb.trans (h.opening seen hjob hrefreshed)
  refreshing generation covered seen hjob hgeneration :=
    (h.refreshing generation covered seen hjob hgeneration).imp hb.trans
      fun ⟨view, hview, hle⟩ => ⟨view, hview, hb.trans hle⟩

theorem Covers.mono (h : s.Covers b) (hb : b' ≤ b) : s.Covers b' := fun settled =>
  (h settled).mono hb

/-- What the reader has reached, the store covers. -/
theorem ReaderAt.reaches (h : s.ReaderAt b) (ok : s.Ok durable) : s.Reaches b := by
  obtain ⟨view, hview, hle⟩ := h
  refine ⟨fun view' hview' _ => ?_, fun seen hjob _ => ?_, fun _ _ _ _ _ => .inr ⟨view, hview, hle⟩⟩
  · rw [hview] at hview'
    exact hle.trans (Option.some.inj hview').le
  · rw [(ok.opening seen hjob).1] at hview
    cases hview

/-- What can happen to a store, apart from its writer slot, while `durable` is the durable
sequence. -/
inductive Change (durable : StorageSequence) : GraphStore → GraphStore → Prop where
  | writer {s : GraphStore} (writer : Option Nat) : Change durable s { s with writer }
  | closing {s : GraphStore} (writer : Option Nat) (epoch : Nat) :
      Change durable s { s with writer, closing := some epoch }
  | closed {s : GraphStore} (counting : Nat) :
      Change durable s { s with closing := none, counting, lossUncounted := true }
  | raised {s : GraphStore} (writer : Option Nat) (counting : Nat) :
      Change durable s { s.raiseGeneration with writer, counting }
  | requested {s : GraphStore} : Change durable s s.requestRefresh
  | opening {s : GraphStore} (absent : s.reader = none) (free : s.job = none) :
      Change durable s { s with job := some (.opening durable) }
  | opened {s : GraphStore} (seen sequence : StorageSequence) (job : s.job = some (.opening seen))
      (observed : seen ≤ sequence) (bound : sequence ≤ durable) :
      Change durable s { s with reader := some sequence, job := none }
  | refreshing {s : GraphStore} (covered : Option Nat) (present : s.reader.isSome)
      (free : s.job = none) (hcovered : ∀ n, covered = some n → n = s.refreshRequested) :
      Change durable s
        { s with job := some (.refreshing s.refreshGeneration covered durable) }
  | refreshed {s : GraphStore} (generation : Nat) (covered : Option Nat)
      (seen view sequence : StorageSequence)
      (job : s.job = some (.refreshing generation covered seen)) (present : s.reader = some view)
      (observed : seen ≤ sequence) (monotone : view ≤ sequence) (bound : sequence ≤ durable) :
      Change durable s
        { s with
          reader := some sequence
          job := none
          refreshedGeneration := generation
          refreshCompleted := covered.getD s.refreshCompleted }
  | polled {s : GraphStore} (view sequence : StorageSequence) (present : s.reader = some view)
      (monotone : view ≤ sequence) (bound : sequence ≤ durable) :
      Change durable s { s with reader := some sequence }

theorem Ok.change (ok : s.Ok durable) (h : Change durable s s') : s'.Ok durable := by
  obtain ⟨hrefreshed, hcompleted, hreader, hopening, hrefreshing⟩ := ok
  cases h with
  | writer | closing | closed => exact ⟨hrefreshed, hcompleted, hreader, hopening, hrefreshing⟩
  | raised =>
    exact ⟨Nat.le_succ_of_le hrefreshed, hcompleted, hreader, hopening,
      fun generation covered seen hjob =>
        (hrefreshing generation covered seen hjob).imp_left Nat.le_succ_of_le⟩
  | requested =>
    refine ⟨hrefreshed, Nat.le_succ_of_le hcompleted, hreader, hopening,
      fun generation covered seen hjob => ?_⟩
    obtain ⟨hgeneration, hcovered, hseen⟩ := hrefreshing generation covered seen hjob
    exact ⟨hgeneration, fun n hn => Nat.le_succ_of_le (hcovered n hn), hseen⟩
  | opening absent =>
    refine ⟨hrefreshed, hcompleted, hreader, fun seen hjob => ?_, nofun⟩
    cases hjob
    exact ⟨absent, le_refl _⟩
  | opened seen sequence job observed bound =>
    refine ⟨hrefreshed, hcompleted, fun view hview => ?_, nofun, nofun⟩
    cases hview
    exact bound
  | refreshing covered present free hcovered =>
    refine ⟨hrefreshed, hcompleted, hreader, nofun, fun generation covered' seen hjob => ?_⟩
    cases hjob
    exact ⟨le_refl _, fun n hn => (hcovered n hn).le, le_refl _, present⟩
  | refreshed generation covered seen view sequence job present observed monotone bound =>
    obtain ⟨hgeneration, hcovered, -⟩ := hrefreshing generation covered seen job
    refine ⟨hgeneration, ?_, fun view hview => ?_, nofun, nofun⟩
    · cases covered with
      | none => exact hcompleted
      | some n => exact hcovered n rfl
    · cases hview
      exact bound
  | polled view sequence present monotone bound =>
    refine ⟨hrefreshed, hcompleted, fun view hview => ?_, fun seen hjob => ?_,
      fun generation covered seen hjob => ?_⟩
    · cases hview
      exact bound
    · rw [(hopening seen hjob).1] at present
      cases present
    · obtain ⟨hgeneration, hcovered, hseen, -⟩ := hrefreshing generation covered seen hjob
      exact ⟨hgeneration, hcovered, hseen, rfl⟩

/-- Nothing was refreshed yet in a generation that was just raised. -/
theorem Ok.covers_raised (ok : s.Ok durable) (writer : Option Nat) (counting : Nat)
    (b : StorageSequence) : { s.raiseGeneration with writer, counting }.Covers b := by
  refine fun _ => ⟨fun _ _ hrefreshed => ?_, fun _ _ hrefreshed => ?_,
    fun generation covered seen hjob hgeneration => ?_⟩
  · exact absurd hrefreshed (Nat.lt_succ_of_le ok.refreshed_le).ne
  · exact absurd hrefreshed (Nat.lt_succ_of_le ok.refreshed_le).ne
  · exact absurd hgeneration (Nat.lt_succ_of_le (ok.refreshing generation covered seen hjob).1).ne

/-- A sequence that was durable when it was covered stays covered. -/
theorem Covers.change (covers : s.Covers b) (ok : s.Ok durable) (hb : b ≤ durable)
    (h : Change durable s s') : s'.Covers b := by
  cases h with
  | writer => exact fun settled => ⟨(covers settled).reader, (covers settled).opening,
      (covers settled).refreshing⟩
  | closing => exact fun settled => (nomatch settled.1)
  | closed => exact fun settled => (nomatch settled.2)
  | raised => exact ok.covers_raised _ _ b
  | requested => exact fun settled => ⟨(covers settled).reader, (covers settled).opening,
      (covers settled).refreshing⟩
  | opening =>
    refine fun settled => ⟨(covers settled).reader, fun seen hjob _ => ?_, nofun⟩
    cases hjob
    exact hb
  | opened seen sequence job observed =>
    refine fun settled => ⟨fun view hview hrefreshed => ?_, nofun, nofun⟩
    cases hview
    exact ((covers settled).opening seen job hrefreshed).trans observed
  | refreshing =>
    refine fun settled => ⟨(covers settled).reader, nofun,
      fun generation covered' seen hjob _ => ?_⟩
    cases hjob
    exact .inl hb
  | refreshed generation covered seen view sequence job present observed monotone =>
    refine fun settled => ⟨fun view' hview' hrefreshed => ?_, nofun, nofun⟩
    cases hview'
    rcases (covers settled).refreshing generation covered seen job hrefreshed with
      hle | ⟨v, hv, hle⟩
    · exact hle.trans observed
    · rw [present] at hv
      cases hv
      exact hle.trans monotone
  | polled view sequence present monotone =>
    refine fun settled => ⟨fun view' hview' hrefreshed => ?_, fun seen hjob => ?_,
      fun generation covered seen hjob hgeneration => ?_⟩
    · cases hview'
      exact ((covers settled).reader view present hrefreshed).trans monotone
    · rw [(ok.opening seen hjob).1] at present
      cases present
    refine ((covers settled).refreshing generation covered seen hjob hgeneration).imp_right ?_
    rintro ⟨v, hv, hle⟩
    rw [present] at hv
    cases hv
    exact ⟨sequence, rfl, hle.trans monotone⟩

/-- A reader does not go back. -/
theorem ReaderAt.change (hreader : s.ReaderAt b) (ok : s.Ok durable) (h : Change durable s s') :
    s'.ReaderAt b := by
  obtain ⟨view, hview, hle⟩ := hreader
  cases h with
  | writer | closing | closed | raised | requested | opening | refreshing =>
    exact ⟨view, hview, hle⟩
  | opened seen sequence job =>
    rw [(ok.opening seen job).1] at hview
    cases hview
  | refreshed generation covered seen view' sequence job present observed monotone =>
    rw [present] at hview
    cases hview
    exact ⟨sequence, rfl, hle.trans monotone⟩
  | polled view' sequence present monotone =>
    rw [present] at hview
    cases hview
    exact ⟨sequence, rfl, hle.trans monotone⟩

/-- A refresh that covers a request sees what was durable when the request was registered. -/
theorem Awaits.change (awaits : s.Awaits request b) (ok : s.Ok durable)
    (hb : b ≤ durable) (h : Change durable s s') : s'.Awaits request b := by
  have completed : request ≤ s.refreshCompleted → s'.ReaderAt b := fun hle =>
    (awaits.completed hle).change ok h
  cases h with
  | writer | closing | closed | raised | requested => exact ⟨completed, awaits.refreshing⟩
  | opening | opened => exact ⟨completed, nofun⟩
  | refreshing =>
    refine ⟨completed, fun generation covered' seen hjob _ => ?_⟩
    cases hjob
    exact hb
  | refreshed generation covered seen view sequence job present observed =>
    refine ⟨fun hle => ?_, nofun⟩
    cases covered with
    | none => exact completed hle
    | some n => exact ⟨sequence, rfl, (awaits.refreshing generation n seen job hle).trans observed⟩
  | polled => exact ⟨completed, awaits.refreshing⟩

end HydraDb.Bookmark.GraphStore
