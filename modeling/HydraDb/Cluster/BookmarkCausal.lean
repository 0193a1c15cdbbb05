import HydraDb.Cluster.BookmarkInvariant

/-!
# Bookmarks are causal

Two things can go wrong in a run, and `Cluster.Served` excludes them: a snapshot of a writer that
another node has fenced without the handle knowing, and the use of a reader while a retirement has
removed the writer and the generation has not been raised. In every other run the bookmark of a
write has reached its commits, and a read that carries a bookmark has a snapshot that has reached
it.
-/

namespace HydraDb.Bookmark

namespace Cluster

variable {N : Type} [DecidableEq N] {c : Cluster N} {node : N}

/-! ## Runs -/

/-- The condition: a read takes a causal snapshot from a writer only if no other writer was opened
since, and no call relies on a reader that was not refreshed for it while a retirement has removed
the writer and the generation has not been raised since. -/
def Served (c : Cluster N) : Event N → Prop
  | .pickWriter request => ∀ node bookmark epoch,
      c.requests request = .call node (.snapshot bookmark false) .writer →
        (c.stores node).writer = some epoch → c.handleClosed epoch = false → epoch = c.epoch
  | .pickReader request => ∀ node purpose, c.requests request = .call node purpose .reader →
      purpose.Unrefreshed → (c.stores node).Settled
  | _ => True

omit [DecidableEq N] in
/-- The invariant holds initially. -/
theorem ok_initial : (initial : Cluster N).Ok where
  store _ := ⟨le_refl _, le_refl _, nofun, nofun, nofun⟩
  bound := nofun
  current := nofun
  monotone := nofun
  slot := nofun
  lost := nofun
  requests _ := trivial

/-- The end of a job of a reader. -/
theorem Ok.readerDone {sequence} (ok : c.Ok)
    (hjob : (c.stores node).job = some (.opening seen) ∨ ∃ generation covered view,
      (c.stores node).job = some (.refreshing generation covered seen) ∧
        (c.stores node).reader = some view ∧ view ≤ sequence)
    (observed : seen ≤ sequence) (bound : sequence ≤ c.durable) :
    (c.readerDone node sequence).Ok := by
  rw [Cluster.readerDone]
  rcases hjob with hjob | ⟨generation, covered, view, hjob, hview, hle⟩
  · rw [hjob]
    exact ok.change (.opened seen sequence hjob observed bound) (.inl rfl)
  · rw [hjob]
    exact ok.change (.refreshed generation covered seen view sequence hjob hview observed hle bound)
      (.inl rfl)

/-- The close of a retired writer ends. -/
theorem Ok.retired (ok : c.Ok) : (c.retired node closed).Ok := by
  unfold Cluster.retired
  dsimp only
  split
  · exact ok
  next epoch hclosing =>
  split
  · exact ok
  · next h hh =>
    exact (ok.closeHandle hh).change (.closed _) (.inl rfl)

/-- A retirement takes the writer from the slot. -/
theorem Ok.retire (ok : c.Ok) : (c.retire node).Ok := by
  unfold Cluster.retire
  dsimp only
  split
  · next epoch hwriter hclosing =>
    exact ok.change (.closing none epoch) (.inr ⟨rfl, fun _ settled => nomatch settled.1⟩)
  · exact ok

/-- A store that was just opened covers everything: its reader is opened later. -/
theorem Ok.reopen (ok : c.Ok)
    (unused : ∀ request purpose phase, c.requests request ≠ .call node purpose phase) :
    (c.setStore node .fresh).Ok := by
  have covers : ∀ b, GraphStore.fresh.Covers b := fun b _ => ⟨nofun, nofun, nofun⟩
  exact ok.setStore ⟨le_refl _, le_refl _, nofun, nofun, nofun⟩ (.inr ⟨rfl, covers⟩)
    (fun b _ _ => covers b) fun request purpose phase h => absurd h (unused request purpose phase)

/-- Every event that the condition admits keeps the invariant. -/
theorem Ok.exec (ok : c.Ok) (feasible : c.feasible e) (served : c.Served e) : (c.exec e).Ok := by
  cases e with
  | promote => exact ok.promote
  | closeHandle =>
    rw [Cluster.exec]
    split
    · next h hh => exact ok.closeHandle hh
    · exact ok
  | retire => exact ok.retire
  | retired => exact ok.retired
  | countRetirement node =>
    rw [Cluster.exec]
    split
    · exact ok.change (.raised (c.stores node).writer _) (.inl rfl)
    · exact ok
  | reopen => exact ok.reopen feasible
  | openReader => exact ok.change (.opening feasible.1 feasible.2) (.inl rfl)
  | readerOpened =>
    obtain ⟨seen, hjob, observed, bound⟩ := feasible
    exact ok.readerDone (.inl hjob) observed bound
  | refreshReader node requested =>
    refine ok.change (.refreshing _ feasible.1 feasible.2 fun n hn => ?_) (.inl rfl)
    cases requested with
    | true => exact (Option.some.inj hn).symm
    | false => cases hn
  | readerRefreshed =>
    obtain ⟨generation, covered, seen, view, hjob, hview, observed, monotone, bound⟩ := feasible
    exact ok.readerDone (.inr ⟨generation, covered, view, hjob, hview, monotone⟩) observed bound
  | pollReader node sequence =>
    obtain ⟨view, hview, monotone, bound⟩ := feasible
    exact ok.change (.polled view sequence hview monotone bound) (.inl rfl)
  | write request node =>
    rw [Cluster.exec]
    split
    · have hwriting : c.RequestOk (.writing node []) := nofun
      exact ok.setRequest hwriting
    · exact ok
  | commit request epoch => exact ok.commit request epoch
  | written request =>
    rw [Cluster.exec]
    split
    · next node commits hrequest =>
      have hmade : c.RequestOk (.call node (.bookmark commits) .writer) := by
        have := ok.requests request
        rwa [hrequest] at this
      exact ok.setRequest hmade
    · exact ok
  | run request node bookmark strong =>
    rw [Cluster.exec]
    unfold Cluster.run
    split
    · cases bookmark with
      | none =>
        have hfresh : c.RequestOk (.prepared node 0 strong) :=
          ⟨Nat.zero_le _, fun _ _ => ⟨fun _ _ _ => Nat.zero_le _, fun _ _ _ => Nat.zero_le _,
            fun _ _ _ _ _ => .inl (Nat.zero_le _)⟩⟩
        exact ok.setRequest hfresh
      | some bookmark =>
        have hwait : c.RequestOk (.call node (.wait bookmark strong) .writer) :=
          nofun
        exact ok.setRequest hwait
    · exact ok
  | pull request =>
    rw [Cluster.exec, Cluster.pull]
    have hprepared := ok.requests request
    split
    · next node bookmark hrequest =>
      rw [hrequest] at hprepared
      refine ok.enterRefresh (fun m hm => ?_)
      cases List.mem_singleton.1 hm
      exact hprepared.durable
    · next node bookmark hrequest =>
      rw [hrequest] at hprepared
      have hcall : c.RequestOk (.call node (.snapshot bookmark false) .writer) := by
        intro m hm
        cases List.mem_singleton.1 hm
        exact hprepared
      exact ok.setRequest hcall
    · exact ok
  | pickWriter => exact ok.pickWriter served
  | useWriter => exact ok.useWriter
  | pickReader => exact ok.pickReader served
  | pickRefreshed => exact ok.pickRefreshed
  | useReader => exact ok.useReader
  | missing => exact ok.missing feasible
  | fail =>
    have hidle : c.RequestOk .idle := trivial
    exact ok.setRequest hidle

end Cluster

open Cluster in
/-- In every run of any number of nodes whose events all meet the condition: the bookmark of an
answered write has reached every commit of the write, an answered read had a snapshot that has
reached the bookmark it carried, it returns the sequence of that snapshot, and no bookmark is above
the durable sequence. -/
theorem bookmarks_causal {N : Type} [DecidableEq N] {c : Cluster N}
    (h : Machine.Run exec (fun c e => c.feasible e ∧ c.Served e) initial c) (request : Nat) :
    (∀ commits returned, c.requests request = .writeAnswered commits returned →
      (∀ m ∈ commits, m ≤ returned) ∧ returned ≤ c.durable) ∧
    (∀ carried snapshot returned, c.requests request = .readAnswered carried snapshot returned →
      carried ≤ snapshot ∧ returned = snapshot ∧ snapshot ≤ c.durable) := by
  have ok : c.Ok := h.invariant ok_initial fun c e he ok => ok.exec he.1 he.2
  have hrequest := ok.requests request
  refine ⟨fun commits returned heq => ?_, fun carried snapshot returned heq => ?_⟩
  · rw [heq] at hrequest
    exact hrequest
  · rw [heq] at hrequest
    exact hrequest

/-- A write on one node and a read on another that carries its bookmark. -/
def causalRun : List (Event Bool) :=
  [.promote true, .write 0 true, .commit 0 1, .written 0, .pickWriter 0, .useWriter 0,
   .run 1 false (some 1) false, .pickWriter 1, .openReader false, .readerOpened false 1,
   .pickReader 1, .useReader 1, .pull 1, .pickWriter 1, .pickReader 1, .useReader 1]

theorem bookmarks_causal_causalRun :
    (causalRun.foldl Cluster.exec Cluster.initial).requests 0 = .writeAnswered [1] 1 ∧
      (causalRun.foldl Cluster.exec Cluster.initial).requests 1 = .readAnswered 1 1 1 ∧
      (∀ m ∈ [1], m ≤ 1) ∧ 1 ≤ (causalRun.foldl Cluster.exec Cluster.initial).durable := by
  have hrun : Machine.Run Cluster.exec
      (fun c e => c.feasible e ∧ c.Served e) Cluster.initial
        (causalRun.foldl Cluster.exec Cluster.initial) := by
    refine .of_admits ⟨⟨trivial, trivial⟩, ⟨trivial, trivial⟩, ⟨trivial, trivial⟩,
      ⟨trivial, trivial⟩, ⟨trivial, nofun⟩, ⟨trivial, trivial⟩, ⟨trivial, trivial⟩,
      ⟨trivial, nofun⟩, ⟨⟨rfl, rfl⟩, trivial⟩, ⟨⟨0 + 1, rfl, le_refl _, le_refl _⟩, trivial⟩,
      ⟨trivial, ?_⟩, ⟨trivial, trivial⟩, ⟨trivial, trivial⟩, ⟨trivial, ?_⟩, ⟨trivial, ?_⟩,
      ⟨trivial, trivial⟩, trivial⟩
    · rintro node purpose ⟨⟩ unrefreshed
      exact unrefreshed.elim
    · rintro node bookmark epoch ⟨⟩ hwriter
      cases hwriter
    · rintro node purpose ⟨⟩ -
      exact ⟨rfl, rfl⟩
  exact ⟨rfl, rfl, (bookmarks_causal hrun 0).1 [1] 1 rfl⟩

/-- A node whose writer was fenced without knowing it serves a read that carries the bookmark of the
new writer. -/
def fencedReadRun : List (Event Bool) :=
  [.promote false, .promote true, .write 0 true, .commit 0 2, .written 0, .pickWriter 0,
   .useWriter 0, .run 1 false (some 1) false, .pickWriter 1, .useWriter 1, .openReader false,
   .readerOpened false 1, .refreshReader false true, .readerRefreshed false 1, .pickRefreshed 1,
   .useReader 1, .pull 1, .pickWriter 1, .useWriter 1]

/-- The bookmark of a write is asked for while a retirement closes the writer. -/
def retiredWriteRun : List (Event Bool) :=
  [.openReader false, .readerOpened false 0, .promote false, .write 0 false, .commit 0 1,
   .written 0, .retire false, .pickWriter 0, .pickReader 0, .useReader 0]

/-- Without the condition a read that carries the bookmark 1 has a snapshot of sequence 0, and a
write that committed at sequence 1 is answered with the bookmark 0. -/
theorem not_causal_fenced_retired :
    Machine.Admits Cluster.exec Cluster.feasible Cluster.initial fencedReadRun ∧
      (fencedReadRun.foldl Cluster.exec Cluster.initial).requests 0 = .writeAnswered [1] 1 ∧
      (fencedReadRun.foldl Cluster.exec Cluster.initial).requests 1 = .readAnswered 1 0 0 ∧
      Machine.Admits Cluster.exec Cluster.feasible Cluster.initial retiredWriteRun ∧
      (retiredWriteRun.foldl Cluster.exec Cluster.initial).requests 0 = .writeAnswered [1] 0 := by
  refine ⟨⟨trivial, trivial, trivial, trivial, trivial, trivial, trivial, trivial, trivial, trivial,
      ⟨rfl, rfl⟩, ⟨1, rfl, le_refl _, le_refl _⟩, ⟨rfl, rfl⟩,
      ⟨0, some 1, 1, 1, rfl, rfl, le_refl _, le_refl _, le_refl _⟩, trivial, trivial, trivial,
      trivial, trivial, trivial⟩, rfl, rfl,
    ⟨⟨rfl, rfl⟩, ⟨0, rfl, le_refl _, le_refl _⟩, trivial, trivial, trivial, trivial, trivial,
      trivial, trivial, trivial, trivial⟩, rfl⟩

end HydraDb.Bookmark
