import HydraDb.Cluster.ProcessWriter

/-!
# What a store knows without the writer

A read that finds no writer falls back to the reader of its store. `GraphStore.Sees` says what the
store knows of a sequence then: unless a writer was withdrawn that the store has not counted, the
reader is not used before it has reached the sequence. Every change of a store keeps it
(`Sees.change`), and the withdrawal of a writer makes it true of every sequence, because it marks
the store.
-/

namespace HydraDb.ProcessWriter.GraphStore

variable {g : GraphStore} {b durable : StorageSequence}

/-- Whenever the store uses its reader, the reader has reached the sequence. -/
structure Reaches (g : GraphStore) (b : StorageSequence) : Prop where
  reader : ∀ view, g.reader = some view →
    g.readerRefreshGeneration = g.readerRefreshedGeneration → b ≤ view
  opening : ∀ seen fresh, g.job = some (.opening seen fresh) →
    g.readerRefreshGeneration = g.readerRefreshedGeneration → b ≤ seen
  refreshing : ∀ generation seen fresh, g.job = some (.refreshing generation seen fresh) →
    generation = g.readerRefreshGeneration → b ≤ seen

/-- What the job of the reader has seen, if no writer was withdrawn since it started. -/
def freshlySeen (g : GraphStore) : Option StorageSequence :=
  match g.job with
  | some (.opening seen true) | some (.refreshing _ seen true) => some seen
  | _ => none

/-- The store does not use its reader short of the sequence, unless it is marked. -/
structure Sees (g : GraphStore) (b : StorageSequence) : Prop where
  reaches : g.stale = false → g.Reaches b
  fresh : ∀ seen, g.freshlySeen = some seen → b ≤ seen

/-- The reader has reached the sequence. -/
def ReaderAt (g : GraphStore) (b : StorageSequence) : Prop :=
  ∃ view, g.reader = some view ∧ b ≤ view

/-- The counters and the job of a store fit together. -/
structure Ok (g : GraphStore) : Prop where
  refreshed_le : g.readerRefreshedGeneration ≤ g.readerRefreshGeneration
  opening : ∀ seen fresh, g.job = some (.opening seen fresh) → g.reader = none
  refreshing : ∀ generation seen fresh, g.job = some (.refreshing generation seen fresh) →
    generation ≤ g.readerRefreshGeneration

/-- What can happen to a store while `durable` is the durable sequence. -/
inductive Change (durable : StorageSequence) : GraphStore → GraphStore → Prop where
  | same {g : GraphStore} : Change durable g g
  | flags {g : GraphStore} (retiring active : Bool) (h : g.retiring = true → retiring = true) :
      Change durable g { g with retiring := retiring, writerOwnerActive := active }
  | exposed {g : GraphStore} : Change durable g g.expose
  | raised {g : GraphStore} : Change durable g g.raiseGeneration
  | opening {g : GraphStore} (absent : g.reader = none) :
      Change durable g { g with job := some (.opening durable true) }
  | refreshing {g : GraphStore} :
      Change durable g
        { g with job := some (.refreshing g.readerRefreshGeneration durable true) }
  | done {g : GraphStore} (sequence : StorageSequence) (finds : State.Finds g sequence) :
      Change durable g (g.readerDone sequence)
  | failed {g : GraphStore} : Change durable g { g with job := none }
  | polled {g : GraphStore} (view sequence : StorageSequence) (present : g.reader = some view)
      (monotone : view ≤ sequence) : Change durable g { g with reader := some sequence }

theorem Sees.mono (h : g.Sees b) (hb : b' ≤ b) : g.Sees b' where
  reaches hstale := by
    obtain ⟨hreader, hopening, hrefreshing⟩ := h.reaches hstale
    exact ⟨fun view hv hg => hb.trans (hreader view hv hg),
      fun seen fresh hj hg => hb.trans (hopening seen fresh hj hg),
      fun generation seen fresh hj hg => hb.trans (hrefreshing generation seen fresh hj hg)⟩
  fresh seen hseen := hb.trans (h.fresh seen hseen)

/-- Nothing is known to be fresh after a writer was withdrawn. -/
@[simp]
theorem freshlySeen_expose : g.expose.freshlySeen = none := by
  unfold freshlySeen expose
  rcases g.job with - | job
  · rfl
  · cases job <;> rfl

/-- A marked store promises nothing. -/
theorem sees_expose : g.expose.Sees b where
  reaches h := nomatch h
  fresh seen h := by simp at h

/-- In a new generation the reader is refreshed before it is used. -/
theorem Ok.reaches_raiseGeneration (ok : g.Ok) : g.raiseGeneration.Reaches b where
  reader _ _ hg := absurd hg (Nat.ne_of_gt (Nat.lt_succ_of_le ok.refreshed_le))
  opening _ _ _ hg := absurd hg (Nat.ne_of_gt (Nat.lt_succ_of_le ok.refreshed_le))
  refreshing generation seen fresh hj hg :=
    absurd hg (Nat.ne_of_lt (Nat.lt_succ_of_le (ok.refreshing generation seen fresh hj)))

theorem Ok.expose (ok : g.Ok) : g.expose.Ok where
  refreshed_le := ok.refreshed_le
  opening seen fresh h := by
    obtain ⟨job, hjob, heq⟩ := Option.map_eq_some_iff.1 h
    cases job with
    | opening seen' fresh' => exact ok.opening seen' fresh' hjob
    | refreshing => cases heq
  refreshing generation seen fresh h := by
    obtain ⟨job, hjob, heq⟩ := Option.map_eq_some_iff.1 h
    cases job with
    | opening => cases heq
    | refreshing generation' seen' fresh' =>
      cases heq
      exact ok.refreshing generation seen fresh' hjob

theorem Ok.idle (h : g.readerRefreshedGeneration ≤ g.readerRefreshGeneration)
    (hjob : g.job = none) : g.Ok :=
  ⟨h, by simp [hjob], by simp [hjob]⟩

theorem Ok.change (ok : g.Ok) (h : Change durable g g') : g'.Ok := by
  obtain ⟨hrefreshed, hopening, hrefreshing⟩ := ok
  cases h with
  | same | flags => exact ⟨hrefreshed, hopening, hrefreshing⟩
  | exposed => exact Ok.expose ⟨hrefreshed, hopening, hrefreshing⟩
  | raised =>
    exact ⟨hrefreshed.trans (Nat.le_succ _), hopening, fun generation seen fresh hj =>
      (hrefreshing generation seen fresh hj).trans (Nat.le_succ _)⟩
  | opening absent =>
    exact ⟨hrefreshed, fun _ _ _ => absent, by simp⟩
  | refreshing =>
    refine ⟨hrefreshed, by simp, fun generation seen fresh hj => ?_⟩
    cases hj
    exact le_rfl
  | done =>
    unfold readerDone
    split
    · exact ⟨hrefreshed, hopening, hrefreshing⟩
    · exact idle hrefreshed rfl
    · next generation seen fresh hjob =>
      exact idle (hrefreshing generation seen fresh hjob) rfl
  | failed => exact idle hrefreshed rfl
  | polled view sequence present =>
    refine ⟨hrefreshed, fun seen fresh hj => ?_, hrefreshing⟩
    rw [hopening seen fresh hj] at present
    cases present

/-- A job that ends has reached what it was known to reach. -/
theorem Sees.readerDone {sequence} (h : g.Sees b)
    (finds : State.Finds g sequence) : (g.readerDone sequence).Sees b := by
  unfold State.Finds at finds
  unfold GraphStore.readerDone
  -- either no writer was withdrawn since the job started, or the mark stays as it was
  have reached seen fresh (hseen : seen ≤ sequence)
      (hfresh : fresh = true → g.freshlySeen = some seen)
      (hreaches : g.Reaches b → b ≤ seen) (hstale : (g.stale && !fresh) = false) :
      b ≤ sequence := by
    cases fresh with
    | true => exact (h.fresh seen (hfresh rfl)).trans hseen
    | false => exact (hreaches (h.reaches (by simpa using hstale))).trans hseen
  split
  · exact h
  · next seen fresh hjob =>
    rw [hjob] at finds
    refine ⟨fun hstale => ⟨fun view hview hg => ?_, by simp, by simp⟩, by rintro _ ⟨⟩⟩
    cases hview
    refine reached seen fresh finds (fun hf => ?_) (fun hr => hr.opening seen fresh hjob hg) hstale
    simp [freshlySeen, hjob, hf]
  · next generation seen fresh hjob =>
    rw [hjob] at finds
    refine ⟨fun hstale => ⟨fun view hview hg => ?_, by simp, by simp⟩, by rintro _ ⟨⟩⟩
    cases hview
    refine reached seen fresh finds.1 (fun hf => ?_)
      (fun hr => hr.refreshing generation seen fresh hjob hg.symm) hstale
    simp [freshlySeen, hjob, hf]

theorem Sees.change (h : g.Sees b) (ok : g.Ok) (hb : b ≤ durable) (hchange : Change durable g g') :
    g'.Sees b := by
  cases hchange with
  | same => exact h
  | flags =>
    refine ⟨fun hstale => ?_, h.fresh⟩
    obtain ⟨hreader, hopening, hrefreshing⟩ := h.reaches hstale
    exact ⟨hreader, hopening, hrefreshing⟩
  | exposed => exact sees_expose
  | raised => exact ⟨fun _ => ok.reaches_raiseGeneration, h.fresh⟩
  | opening =>
    refine ⟨fun hstale => ⟨(h.reaches hstale).reader, fun seen fresh hj _ => ?_,
      nofun⟩, fun seen hseen => ?_⟩
    · cases hj
      exact hb
    · cases hseen
      exact hb
  | refreshing =>
    refine ⟨fun hstale => ⟨(h.reaches hstale).reader, nofun,
      fun generation seen fresh hj _ => ?_⟩, fun seen hseen => ?_⟩
    · cases hj
      exact hb
    · cases hseen
      exact hb
  | done sequence finds => exact h.readerDone finds
  | failed =>
    exact ⟨fun hstale => ⟨(h.reaches hstale).reader, nofun, nofun⟩, nofun⟩
  | polled view sequence present monotone =>
    refine ⟨fun hstale => ?_, h.fresh⟩
    obtain ⟨hreader, hopening, hrefreshing⟩ := h.reaches hstale
    refine ⟨fun view' hview' hg => ?_, hopening, hrefreshing⟩
    cases hview'
    exact (hreader view present hg).trans monotone

theorem ReaderAt.change (h : g.ReaderAt b) (ok : g.Ok) (hchange : Change durable g g') :
    g'.ReaderAt b := by
  obtain ⟨view, hview, hb⟩ := h
  cases hchange with
  | done sequence finds =>
    unfold State.Finds at finds
    unfold readerDone
    split
    · exact ⟨view, hview, hb⟩
    · next seen fresh hjob =>
      rw [ok.opening seen fresh hjob] at hview
      cases hview
    · next generation seen fresh hjob =>
      rw [hjob] at finds
      exact ⟨sequence, rfl, hb.trans (finds.2 view hview)⟩
  | polled view' sequence present monotone =>
    cases hview.symm.trans present
    exact ⟨sequence, rfl, hb.trans monotone⟩
  | _ => exact ⟨view, hview, hb⟩

theorem Change.registered (h : Change durable g g') (hr : g.registered = true) :
    g'.registered = true := by
  cases h with
  | done =>
    unfold readerDone
    split <;> exact hr
  | _ => exact hr

theorem Change.retiring (h : Change durable g g') (hr : g.retiring = true) :
    g'.retiring = true := by
  cases h with
  | flags retiring active hflag => exact hflag hr
  | done =>
    unfold readerDone
    split <;> exact hr
  | _ => exact hr

end HydraDb.ProcessWriter.GraphStore
