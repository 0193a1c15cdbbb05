import HydraDb.Cluster.BookmarkStore
import HydraDb.Lib.Epochs

/-!
# The invariant of the bookmark protocol

What a call can see is bounded from below by what the store of its node has to offer: the durable
sequence of the handle in its writer slot, or its reader. A writer that leaves the slot takes its
durable sequence with it, and the store covers that sequence from then on. So it covers every commit
of the node and every bookmark that a call on the node has waited for.
-/

namespace HydraDb.Bookmark

/-! ## The invariant -/

/-- The sequences that the answer to a call has to reach. -/
def Purpose.needs : Purpose → List StorageSequence
  | .wait _ _ => []
  | .snapshot carried _ => [carried]
  | .bookmark commits => commits

/-- The call uses the reader without having refreshed it. -/
def Purpose.Unrefreshed : Purpose → Prop
  | .snapshot _ false | .bookmark _ => True
  | _ => False

namespace Cluster

variable {N : Type} {c c' : Cluster N} {node : N} {b : StorageSequence}

variable {durable : StorageSequence} {purpose : Purpose} {s s' : GraphStore} {h : WriterHandle N}

/-- The sequence was committed through a handle of the node. -/
def Made (c : Cluster N) (node : N) (sequence : StorageSequence) : Prop :=
  ∃ epoch h, c.handles epoch = some h ∧ h.owner = node ∧ sequence ≤ h.durable

/-- The node can serve a call that needs the sequence. -/
structure Fresh (c : Cluster N) (node : N) (b : StorageSequence) : Prop where
  durable : b ≤ c.durable
  covers : (c.stores node).writer = none → (c.stores node).Covers b

/-- What holds of a sequence that a call needs when it is about to use the reader. A strong call has
refreshed it. -/
def Reads (c : Cluster N) (node : N) (b : StorageSequence) : Purpose → Prop
  | .snapshot _ true => (c.stores node).ReaderAt b ∨ b = 0
  | _ => b ≤ c.durable ∧ (c.stores node).Covers b

/-- What holds of a call. A strong read does not ask for the writer. -/
def CallOk (c : Cluster N) (node : N) (purpose : Purpose) : Phase → Prop
  | .writer =>
    match purpose with
    | .bookmark commits => ∀ m ∈ commits, c.Made node m
    | .snapshot _ true => False
    | purpose => ∀ m ∈ purpose.needs, c.Fresh node m
  | .handle epoch => (∀ carried, purpose ≠ .snapshot carried true) ∧
      ∃ h, c.handles epoch = some h ∧ h.owner = node ∧ ∀ m ∈ purpose.needs, m ≤ h.durable
  | .reader => ∀ m ∈ purpose.needs, c.Reads node m purpose
  | .refresh request => ∀ m ∈ purpose.needs, m ≤ c.durable ∧ (c.stores node).Awaits request m
  | .ready => (c.stores node).ReaderAt 0 ∧ ∀ m ∈ purpose.needs, (c.stores node).ReaderAt m

/-- What holds of a request. -/
def RequestOk (c : Cluster N) : Request N → Prop
  | .idle => True
  | .writing node commits => ∀ m ∈ commits, c.Made node m
  | .call node purpose phase => c.CallOk node purpose phase
  | .prepared node bookmark _ => c.Fresh node bookmark
  | .readAnswered carried snapshot returned =>
    carried ≤ snapshot ∧ returned = snapshot ∧ snapshot ≤ c.durable
  | .writeAnswered commits returned => (∀ m ∈ commits, m ≤ returned) ∧ returned ≤ c.durable

/-- The invariant of the cluster. -/
structure Ok (c : Cluster N) : Prop where
  store : ∀ node, (c.stores node).Ok c.durable
  bound : ∀ epoch h, c.handles epoch = some h → epoch ≤ c.epoch ∧ h.durable ≤ c.durable
  /-- The last writer knows everything that is durable. -/
  current : ∀ h, c.handles c.epoch = some h → h.durable = c.durable
  monotone : ∀ epoch h epoch' h', c.handles epoch = some h → c.handles epoch' = some h' →
    epoch ≤ epoch' → h.durable ≤ h'.durable
  /-- The handle in a slot is the last one of its node. -/
  slot : ∀ node epoch, (c.stores node).writer = some epoch →
    (∃ h, c.handles epoch = some h ∧ h.owner = node) ∧
      ∀ epoch' h', c.handles epoch' = some h' → h'.owner = node → epoch' ≤ epoch
  /-- The store covers what the handles knew that left its slot. -/
  lost : ∀ epoch h, c.handles epoch = some h → (c.stores h.owner).writer ≠ some epoch →
    (c.stores h.owner).Covers h.durable
  requests : ∀ request, c.RequestOk (c.requests request)

theorem Ok.call (ok : c.Ok) (h : c.requests request = .call node purpose phase) :
    c.CallOk node purpose phase := by
  have hcall := ok.requests request
  rwa [h] at hcall

theorem Made.fresh (h : c.Made node b) (ok : c.Ok) : c.Fresh node b := by
  obtain ⟨epoch, handle, hhandle, rfl, hle⟩ := h
  refine ⟨hle.trans (ok.bound epoch handle hhandle).2, fun hnone => ?_⟩
  have covers := ok.lost epoch handle hhandle (by rw [hnone]; exact nofun)
  exact covers.mono hle

/-! ## Changes that keep what holds of the requests -/

/-- The handles keep their owners and do not go back. -/
def HandlesLe (c c' : Cluster N) : Prop := ∀ epoch h, c.handles epoch = some h →
  ∃ h', c'.handles epoch = some h' ∧ h'.owner = h.owner ∧ h.durable ≤ h'.durable

/-- What a store covers for the requests between two calls, it still covers. -/
def StoreKeeps (durable : StorageSequence) (s s' : GraphStore) : Prop :=
  ∀ b ≤ durable, (s.writer = none → s.Covers b) → s'.writer = none → s'.Covers b

/-- What a store has for the calls, it still has. -/
structure CallsKeep (durable : StorageSequence) (s s' : GraphStore) : Prop where
  covers : ∀ b ≤ durable, s.Covers b → s'.Covers b
  readerAt : ∀ b, s.ReaderAt b → s'.ReaderAt b
  awaits : ∀ request, ∀ b ≤ durable, s.Awaits request b → s'.Awaits request b

theorem Made.mono (h : c.Made node b) (handles : c.HandlesLe c') : c'.Made node b := by
  obtain ⟨epoch, handle, hhandle, rfl, hle⟩ := h
  obtain ⟨handle', hhandle', howner, hle'⟩ := handles epoch handle hhandle
  exact ⟨epoch, handle', hhandle', howner, hle.trans hle'⟩

theorem Fresh.mono (h : c.Fresh node b) (hdurable : c.durable ≤ c'.durable)
    (keeps : StoreKeeps c.durable (c.stores node) (c'.stores node)) : c'.Fresh node b :=
  ⟨h.durable.trans hdurable, keeps b h.durable h.covers⟩

theorem CallOk.mono (h : c.CallOk node purpose phase) (hdurable : c.durable ≤ c'.durable)
    (handles : c.HandlesLe c') (keeps : StoreKeeps c.durable (c.stores node) (c'.stores node))
    (calls : CallsKeep c.durable (c.stores node) (c'.stores node)) :
    c'.CallOk node purpose phase := by
  cases phase with
  | writer =>
    cases purpose with
    | wait => exact fun m hm => (h m hm).mono hdurable keeps
    | snapshot carried strong =>
      cases strong with
      | true => exact h
      | false => exact fun m hm => (h m hm).mono hdurable keeps
    | bookmark => exact fun m hm => (h m hm).mono handles
  | handle epoch =>
    obtain ⟨weak, handle, hhandle, rfl, hneeds⟩ := h
    obtain ⟨handle', hhandle', howner, hle⟩ := handles epoch handle hhandle
    exact ⟨weak, handle', hhandle', howner, fun m hm => (hneeds m hm).trans hle⟩
  | reader =>
    intro m hm
    have hreads := h m hm
    unfold Reads at hreads ⊢
    split at hreads
    · exact hreads.imp_left (calls.readerAt m)
    · exact ⟨hreads.1.trans hdurable, calls.covers m hreads.1 hreads.2⟩
  | refresh request =>
    exact fun m hm => ⟨(h m hm).1.trans hdurable, calls.awaits request m (h m hm).1 (h m hm).2⟩
  | ready => exact ⟨calls.readerAt 0 h.1, fun m hm => calls.readerAt m (h.2 m hm)⟩

theorem RequestOk.mono (h : c.RequestOk q) (hdurable : c.durable ≤ c'.durable)
    (handles : c.HandlesLe c')
    (keeps : ∀ node, StoreKeeps c.durable (c.stores node) (c'.stores node))
    (calls : ∀ node purpose phase, q = .call node purpose phase →
      CallsKeep c.durable (c.stores node) (c'.stores node)) : c'.RequestOk q := by
  cases q with
  | idle => trivial
  | writing => exact fun m hm => (h m hm).mono handles
  | call node purpose phase =>
    exact CallOk.mono h hdurable handles (keeps node) (calls node purpose phase rfl)
  | prepared node => exact Fresh.mono h hdurable (keeps node)
  | readAnswered => exact ⟨h.1, h.2.1, h.2.2.trans hdurable⟩
  | writeAnswered => exact ⟨h.1, h.2.trans hdurable⟩

theorem HandlesLe.refl : c.HandlesLe c := fun _ h hh => ⟨h, hh, rfl, le_refl _⟩

theorem CallsKeep.refl : CallsKeep durable s s :=
  ⟨fun _ _ h => h, fun _ h => h, fun _ _ _ h => h⟩

theorem CallsKeep.change (ok : s.Ok durable) (h : GraphStore.Change durable s s') :
    CallsKeep durable s s' :=
  ⟨fun _ hb covers => covers.change ok hb h, fun _ hreader => hreader.change ok h,
    fun _ _ hb awaits => awaits.change ok hb h⟩

theorem StoreKeeps.refl : StoreKeeps durable s s :=
  fun _ _ h => h

/-! ## Events -/

theorem requests_setRequest :
    (c.setRequest request q).requests r = if r = request then q else c.requests r :=
  Function.update_apply c.requests request q r

/-- Setting a request keeps the invariant when it holds of the new one. -/
theorem Ok.setRequest (ok : c.Ok) (hq : c.RequestOk q) : (c.setRequest request q).Ok :=
  { ok with
    requests r := by
      have hr : c.RequestOk ((c.setRequest request q).requests r) := by
        rw [requests_setRequest]
        split
        · exact hq
        · exact ok.requests r
      exact hr.mono (le_refl _) .refl (fun _ => .refl) fun _ _ _ _ => .refl }

theorem Ok.epochs (ok : c.Ok) : Epochs.Ok WriterHandle.durable c.handles c.epoch c.durable :=
  ⟨ok.bound, ok.current, ok.monotone⟩

theorem handlesLe_update {epoch : Nat}
    (hhandles : c'.handles = Function.update c.handles epoch (some w))
    (h : ∀ h, c.handles epoch = some h → w.owner = h.owner ∧ h.durable ≤ w.durable) :
    c.HandlesLe c' := by
  intro e h₀ hh₀
  rw [hhandles]
  by_cases he : e = epoch
  · subst he
    exact ⟨w, Function.update_self .., h h₀ hh₀⟩
  · exact ⟨h₀, (Function.update_of_ne he ..).trans hh₀, rfl, le_refl _⟩

/-- A handle is closed or learns of a commit. -/
theorem Ok.setHandle (ok : c.Ok) {epoch : Nat} (hh : c.handles epoch = some h)
    (howner : w.owner = h.owner) (hdurable : h.durable ≤ w.durable) (hle : c.durable ≤ durable)
    (epochs : Epochs.Ok WriterHandle.durable (Function.update c.handles epoch (some w)) c.epoch
      durable)
    (lost : (c.stores w.owner).writer ≠ some epoch → (c.stores w.owner).Covers w.durable) :
    ({ c with durable := durable }.setHandle epoch w).Ok := by
  have forth : c.HandlesLe ({ c with durable := durable }.setHandle epoch w) := by
    refine handlesLe_update rfl fun h' hh' => ?_
    cases hh.symm.trans hh'
    exact ⟨howner, hdurable⟩
  refine { epochs with
    store := fun n => (ok.store n).mono hle, slot := fun n e hwriter => ?_
    lost := fun e h' hh' hslot => ?_, requests := fun r => ?_ }
  · obtain ⟨⟨h₀, hh₀, howner₀⟩, hlast⟩ := ok.slot n e hwriter
    obtain ⟨h', hh', howner', -⟩ := forth e h₀ hh₀
    refine ⟨⟨h', hh', howner'.trans howner₀⟩, fun e' h'' hh'' hn => ?_⟩
    rcases Epochs.update_eq_some_iff.1 hh'' with ⟨rfl, rfl⟩ | ⟨-, hh''⟩
    · exact hlast e' h hh (howner.symm.trans hn)
    · exact hlast e' h'' hh'' hn
  · rcases Epochs.update_eq_some_iff.1 hh' with ⟨rfl, rfl⟩ | ⟨-, hh'⟩
    · exact lost hslot
    · exact ok.lost e h' hh' hslot
  · exact (ok.requests r).mono hle forth (fun _ => .refl) fun _ _ _ _ => .refl

theorem Ok.closeHandle (ok : c.Ok) {epoch : Nat} (hh : c.handles epoch = some h) :
    (c.setHandle epoch { h with closed := true }).Ok :=
  ok.setHandle hh rfl (le_refl _) (le_refl _) (ok.epochs.keep hh rfl) fun hslot =>
    ok.lost epoch h hh hslot

/-- A sequence that a handle of a node knows can be served by the node. -/
theorem Ok.fresh_handle (ok : c.Ok) {epoch : Nat} (hh : c.handles epoch = some h) :
    c.Fresh h.owner h.durable :=
  Made.fresh ⟨epoch, h, hh, rfl, le_refl _⟩ ok

/-- A sequence that the reader of a node has reached can be served by the node. -/
theorem Ok.fresh_reader (ok : c.Ok)
    (hview : (c.stores node).reader = some view) : c.Fresh node view :=
  ⟨(ok.store node).reader_le view hview, fun _ _ =>
    GraphStore.ReaderAt.reaches ⟨view, hview, le_refl _⟩ (ok.store node)⟩

/-- What a call needs when it starts, the node can serve. -/
theorem CallOk.fresh (h : c.CallOk node purpose .writer) (ok : c.Ok) :
    ∀ m ∈ purpose.needs, c.Fresh node m := by
  cases purpose with
  | wait => exact h
  | snapshot carried strong =>
    cases strong with
    | true => exact h.elim
    | false => exact h
  | bookmark => exact fun m hm => (h m hm).fresh ok

variable [DecidableEq N]

theorem stores_setStore : (c.setStore node s).stores n = if n = node then s else c.stores n :=
  Function.update_apply c.stores node s n

/-- A change of a store keeps the invariant when the writer leaves the slot only with a loss that
the generation counts, or that is not counted yet. -/
theorem Ok.setStore (ok : c.Ok) (sound : s'.Ok c.durable)
    (slot : s'.writer = (c.stores node).writer ∨ s'.writer = none ∧ ∀ b, s'.Covers b)
    (keeps : ∀ b ≤ c.durable, (c.stores node).Covers b → s'.Covers b)
    (calls : ∀ request purpose phase, c.requests request = .call node purpose phase →
      CallsKeep c.durable (c.stores node) s') : (c.setStore node s').Ok := by
  have hkeeps : ∀ n, StoreKeeps c.durable (c.stores n) ((c.setStore node s').stores n) := by
    intro n b hb hcovers
    rw [stores_setStore]
    split
    · next heq =>
      subst heq
      intro hnone
      rcases slot with hsame | ⟨-, hall⟩
      · exact keeps b hb (hcovers (hsame ▸ hnone))
      · exact hall b
    · exact hcovers
  refine ⟨fun n => ?_, ok.bound, ok.current, ok.monotone, fun n epoch hwriter => ?_,
    fun epoch h hh hslot => ?_, fun r => ?_⟩
  · rw [stores_setStore]
    split
    · exact sound
    · exact ok.store n
  · rw [stores_setStore] at hwriter
    split at hwriter
    · next heq =>
      subst heq
      rcases slot with hsame | ⟨hnone, -⟩
      · exact ok.slot n epoch (hsame ▸ hwriter)
      · rw [hnone] at hwriter
        cases hwriter
    · exact ok.slot n epoch hwriter
  · rw [stores_setStore] at hslot ⊢
    split
    · next heq =>
      rw [if_pos heq] at hslot
      rcases slot with hsame | ⟨-, hall⟩
      · rw [hsame, ← heq] at hslot
        exact keeps _ (ok.bound epoch h hh).2 (heq ▸ ok.lost epoch h hh hslot)
      · exact hall _
    · next hne =>
      rw [if_neg hne] at hslot
      exact ok.lost epoch h hh hslot
  · refine (ok.requests r).mono (le_refl _) .refl hkeeps fun n purpose phase hcall => ?_
    rw [stores_setStore]
    split
    · next heq =>
      subst heq
      exact calls r purpose phase hcall
    · exact .refl

/-- The form of the previous lemma for the changes of a store in use. -/
theorem Ok.change (ok : c.Ok) (h : GraphStore.Change c.durable (c.stores node) s')
    (slot : s'.writer = (c.stores node).writer ∨ s'.writer = none ∧ ∀ b, s'.Covers b) :
    (c.setStore node s').Ok :=
  have keep := CallsKeep.change (ok.store node) h
  ok.setStore ((ok.store node).change h) slot keep.covers fun _ _ _ _ => keep

section

variable (ok : c.Ok)

include ok

theorem Ok.clearWriter : (c.setStore node (c.stores node).clearWriter).Ok :=
  ok.change (.raised none _) (.inr ⟨rfl, (ok.store node).covers_raised _ _⟩)

/-- A node opens a writer: the handle knows what is durable. -/
theorem Ok.promote : (c.promote node).Ok := by
  unfold Cluster.promote
  split
  · next hfree =>
    have hnew : ∀ {h}, ¬ c.handles (c.epoch + 1) = some h := fun hh =>
      Nat.not_succ_le_self _ (ok.bound _ _ hh).1
    have forth : c.HandlesLe (({ c with epoch := c.epoch + 1 }.setHandle (c.epoch + 1)
        ⟨node, c.durable, false⟩).setStore node
          { c.stores node with writer := some (c.epoch + 1) }) :=
      handlesLe_update rfl fun _ hh => absurd hh hnew
    have keep : CallsKeep c.durable (c.stores node)
        { c.stores node with writer := some (c.epoch + 1) } :=
      .change (ok.store node) (.writer _)
    refine { ok.epochs.top (Nat.le_succ _) (le_refl _) rfl with
      store := fun n => ?_, slot := fun n e hwriter => ?_, lost := fun e h hh hslot => ?_
      requests := fun r => ?_ }
    · rw [stores_setStore]
      split
      · exact (ok.store node).change (.writer _)
      · exact ok.store n
    · rw [stores_setStore] at hwriter
      split at hwriter
      · next heq =>
        cases hwriter
        refine ⟨⟨_, Function.update_self .., heq.symm⟩, fun e' h' hh' _ => ?_⟩
        rcases Epochs.update_eq_some_iff.1 hh' with ⟨rfl, -⟩ | ⟨-, hh'⟩
        · exact le_refl _
        · exact Nat.le_succ_of_le (ok.bound e' h' hh').1
      · next hne =>
        obtain ⟨⟨h, hh, howner⟩, hlast⟩ := ok.slot n e hwriter
        obtain ⟨h', hh', howner', -⟩ := forth e h hh
        refine ⟨⟨h', hh', howner'.trans howner⟩, fun e' h'' hh'' hn => ?_⟩
        rcases Epochs.update_eq_some_iff.1 hh'' with ⟨-, rfl⟩ | ⟨-, hh''⟩
        · exact absurd hn.symm hne
        · exact hlast e' h'' hh'' hn
    · rcases Epochs.update_eq_some_iff.1 hh with ⟨rfl, rfl⟩ | ⟨-, hh⟩
      · rw [stores_setStore, if_pos rfl] at hslot
        exact absurd rfl hslot
      rw [stores_setStore] at hslot ⊢
      split
      · next heq =>
        -- the slot was empty, so the store covered the handles before
        refine keep.covers _ (ok.bound e h hh).2 (heq ▸ ok.lost e h hh ?_)
        rw [heq, hfree.1]
        exact nofun
      · next hne =>
        rw [if_neg hne] at hslot
        exact ok.lost e h hh hslot
    · refine (ok.requests r).mono (le_refl _) forth (fun n => ?_) fun n _ _ _ => ?_
      · rw [stores_setStore]
        split
        · exact nofun
        · exact .refl
      · rw [stores_setStore]
        split
        · next heq =>
          subst heq
          exact keep
        · exact .refl
  · exact ok

/-- A commit: the last writer knows it, and its handle is in a slot or on its way out. -/
theorem Ok.commit (request epoch : Nat) : (c.commit request epoch).Ok := by
  unfold Cluster.commit
  split
  · next node commits h hrequest hh =>
    split
    · next hguard =>
      obtain ⟨rfl, -, rfl, hplace⟩ := hguard
      have hle := Nat.le_succ c.durable
      have hdurable : h.durable ≤ c.durable + 1 := (ok.bound _ h hh).2.trans hle
      have ok₁ : ({ c with durable := c.durable + 1 }.setHandle c.epoch
          { h with durable := c.durable + 1 }).Ok := by
        refine ok.setHandle hh rfl hdurable hle (ok.epochs.top (le_refl _) hle rfl) fun hslot => ?_
        -- the handle is not in the slot, so it is being closed
        have hclosing := hplace.resolve_left hslot
        exact fun settled => absurd (hclosing.symm.trans settled.1) nofun
      refine ok₁.setRequest fun m hm => ?_
      rcases List.mem_cons.1 hm with rfl | hm
      · exact ⟨c.epoch, _, Function.update_self .., rfl, le_refl _⟩
      have hmade := ok.requests request
      rw [hrequest] at hmade
      refine (hmade m hm).mono (handlesLe_update rfl fun h' hh' => ?_)
      cases hh.symm.trans hh'
      exact ⟨rfl, hdurable⟩
    · exact ok
  · exact ok

/-- A call that enters `refresh_durable_reader` waits for a refresh that starts after it. -/
theorem Ok.enterRefresh (hneeds : ∀ m ∈ purpose.needs, m ≤ c.durable)
    : (c.enterRefresh request node purpose).Ok := by
  have ok₁ := ok.change (.requested (s := c.stores node)) (.inl rfl)
  have hawaits : ∀ m, (c.stores node).requestRefresh.Awaits
      ((c.stores node).refreshRequested + 1) m := by
    refine fun m => ⟨fun hle => ?_, fun generation covered seen hjob hle => ?_⟩
    · exact absurd (hle.trans (ok.store node).completed_le) (Nat.not_succ_le_self _)
    · have hcovered := ((ok.store node).refreshing generation (some covered) seen hjob).2.1
      exact absurd (hle.trans (hcovered covered rfl)) (Nat.not_succ_le_self _)
  have hcall : (c.setStore node (c.stores node).requestRefresh).RequestOk
      (.call node purpose (.refresh ((c.stores node).refreshRequested + 1))) := by
    refine fun m hm => ⟨hneeds m hm, ?_⟩
    rw [stores_setStore, if_pos rfl]
    exact hawaits m
  exact ok₁.setRequest hcall

/-- A call is answered with a sequence that reaches what it needs, and that the node can serve
again. -/
theorem Ok.resolve {sequence} (fresh : c.Fresh node sequence)
    (hneeds : ∀ m ∈ purpose.needs, m ≤ sequence) (request : Nat) :
    (c.resolve request node sequence purpose).Ok := by
  cases purpose with
  | wait bookmark strong =>
    rw [resolve]
    split
    · next hle =>
      have hfresh : c.RequestOk (.prepared node bookmark strong) :=
        ⟨hle.trans fresh.durable, fun hnone => (fresh.covers hnone).mono hle⟩
      exact ok.setRequest hfresh
    · exact ok.enterRefresh nofun
  | snapshot bookmark =>
    have hanswer : c.RequestOk (.readAnswered bookmark sequence (bookmarkAfterRead sequence)) :=
      ⟨hneeds bookmark List.mem_cons_self, rfl, fresh.durable⟩
    exact ok.setRequest hanswer
  | bookmark commits =>
    have hanswer : c.RequestOk (.writeAnswered commits sequence) := ⟨hneeds, fresh.durable⟩
    exact ok.setRequest hanswer

/-- A call takes the writer from the slot or goes on with the reader. A snapshot is taken from the
last writer only. -/
theorem Ok.pickWriter (current : ∀ node bookmark epoch,
      c.requests request = .call node (.snapshot bookmark false) .writer →
        (c.stores node).writer = some epoch → c.handleClosed epoch = false → epoch = c.epoch) :
    (c.pickWriter request).Ok := by
  unfold Cluster.pickWriter
  split
  · next node purpose hrequest =>
    have hcall := ok.call hrequest
    have fresh := hcall.fresh ok
    have weak : ∀ carried, purpose ≠ .snapshot carried true := by
      rintro carried rfl
      exact hcall
    have hreads : ∀ {c' : Cluster N}, c.durable ≤ c'.durable →
        (∀ m ∈ purpose.needs, (c'.stores node).Covers m) →
          c'.RequestOk (.call node purpose .reader) := by
      intro c' hdurable hcovers m hm
      unfold Reads
      split
      · exact absurd rfl (weak _)
      · exact ⟨(fresh m hm).durable.trans hdurable, hcovers m hm⟩
    split
    · next hnone => exact ok.setRequest (hreads (le_refl _) fun m hm => (fresh m hm).covers hnone)
    next epoch hslot =>
    split
    · have hcovers := (ok.store node).covers_raised none (c.stores node).counting
      refine ok.clearWriter.setRequest (hreads (le_refl _) fun m _ => ?_)
      rw [stores_setStore, if_pos rfl]
      exact hcovers m
    next hopen =>
    obtain ⟨⟨h, hh, howner⟩, hlast⟩ := ok.slot node epoch hslot
    have hhandle : c.RequestOk (.call node purpose (.handle epoch)) := by
      refine ⟨weak, h, hh, howner, fun m hm => ?_⟩
      cases purpose with
      | wait => cases hm
      | snapshot bookmark strong =>
        cases strong with
        | true => exact absurd rfl (weak bookmark)
        | false =>
          have hepoch := current node bookmark epoch hrequest hslot (Bool.eq_false_iff.2 hopen)
          subst hepoch
          rw [ok.current h hh]
          exact (fresh m hm).durable
      | bookmark =>
        obtain ⟨epoch', h', hh', howner', hle⟩ := hcall m hm
        exact hle.trans (ok.monotone epoch' h' epoch h hh' hh (hlast epoch' h' hh' howner'))
    exact ok.setRequest hhandle
  · exact ok

/-- A call is answered by its handle, or goes on with the reader when the handle is closed. -/
theorem Ok.useWriter : (c.useWriter request).Ok := by
  unfold Cluster.useWriter
  split
  · next node purpose epoch hrequest =>
    obtain ⟨weak, h, hh, rfl, hneeds⟩ := ok.call hrequest
    have hanswer := ok.resolve (ok.fresh_handle hh) hneeds request
    rw [hh]
    dsimp only
    split
    · next bookmark strong hclosed =>
      cases strong with
      | true => exact absurd rfl (weak bookmark)
      | false =>
        have hle : bookmark ≤ h.durable := hneeds bookmark List.mem_cons_self
        have hreads : ∀ {c' : Cluster N}, c.durable ≤ c'.durable →
            (c'.stores h.owner).Covers bookmark →
              c'.RequestOk (.call h.owner (.snapshot bookmark false) .reader) := by
          intro c' hdurable hcovers m hm
          cases List.mem_singleton.1 hm
          exact ⟨(hle.trans (ok.bound epoch h hh).2).trans hdurable, hcovers⟩
        split
        · refine ok.clearWriter.setRequest (hreads (le_refl _) ?_)
          rw [stores_setStore, if_pos rfl]
          exact (ok.store h.owner).covers_raised none _ bookmark
        next hopen =>
        -- the handle left the slot before, with a loss that the store counts
        refine ok.setRequest (hreads (le_refl _) ?_)
        refine (ok.lost epoch h hh fun hslot => hopen ?_).mono hle
        rw [hslot, Option.any_some, handleClosed, hh]
        exact hclosed
    · exact hanswer
  · exact ok

end

omit [DecidableEq N] in
/-- A call takes the reader once it was refreshed in the current generation. -/
theorem Ok.pickReader (ok : c.Ok)
    (settled : ∀ node purpose, c.requests request = .call node purpose .reader →
      purpose.Unrefreshed → (c.stores node).Settled) : (c.pickReader request).Ok := by
  unfold Cluster.pickReader
  split
  · next node purpose hrequest =>
    have hcall := ok.call hrequest
    dsimp only
    split
    · next hguard =>
      obtain ⟨hsome, hrefreshed⟩ := hguard
      obtain ⟨view, hview⟩ := Option.isSome_iff_exists.1 hsome
      have hready : c.RequestOk (.call node purpose .ready) := by
        refine ⟨⟨view, hview, Nat.zero_le _⟩, fun m hm => ?_⟩
        have hreads := hcall m hm
        cases purpose with
        | wait => cases hm
        | snapshot carried strong =>
          cases strong with
          | true =>
            rcases hreads with hreader | rfl
            · exact hreader
            · exact ⟨view, hview, Nat.zero_le _⟩
          | false =>
            have reaches := hreads.2 (settled node _ hrequest trivial)
            exact ⟨view, hview, reaches.reader view hview hrefreshed⟩
        | bookmark =>
          have reaches := hreads.2 (settled node _ hrequest trivial)
          exact ⟨view, hview, reaches.reader view hview hrefreshed⟩
      exact ok.setRequest hready
    · exact ok
  · exact ok

omit [DecidableEq N] in
/-- A call leaves `refresh_durable_reader` after a refresh that covers it. -/
theorem Ok.pickRefreshed (ok : c.Ok) : (c.pickRefreshed request).Ok := by
  unfold Cluster.pickRefreshed
  split
  · next node purpose number hrequest =>
    have hcall := ok.call hrequest
    dsimp only
    split
    · next hguard =>
      obtain ⟨hsome, hcompleted, -⟩ := hguard
      obtain ⟨view, hview⟩ := Option.isSome_iff_exists.1 hsome
      have hreader : ∀ m ∈ purpose.needs, (c.stores node).ReaderAt m := fun m hm =>
        (hcall m hm).2.completed hcompleted
      have hready : c.RequestOk (.call node purpose .ready) :=
        ⟨⟨view, hview, Nat.zero_le _⟩, hreader⟩
      split
      · next carried strong =>
        have hreads : c.RequestOk (.call node (.snapshot carried strong) .reader) := by
          intro m hm
          unfold Reads
          split
          · exact .inl (hreader m hm)
          · exact ⟨(hcall m hm).1, fun _ => (hreader m hm).reaches (ok.store node)⟩
        exact ok.setRequest hreads
      · exact ok.setRequest hready
    · exact ok
  · exact ok

/-- A call is answered by the reader. -/
theorem Ok.useReader (ok : c.Ok) : (c.useReader request).Ok := by
  unfold Cluster.useReader
  split
  · next node purpose hrequest =>
    obtain ⟨-, hneeds⟩ := ok.call hrequest
    split
    · next view hview =>
      refine ok.resolve (ok.fresh_reader hview) (fun m hm => ?_) request
      obtain ⟨view', hview', hle⟩ := hneeds m hm
      rw [hview] at hview'
      cases hview'
      exact hle
    · exact ok
  · exact ok

/-- Before anything is durable, 0 is an answer. -/
theorem Ok.missing (ok : c.Ok) (hdurable : c.durable = 0) : (c.missing request).Ok := by
  have fresh : ∀ node, c.Fresh node 0 := fun node =>
    ⟨Nat.zero_le _, fun _ _ => ⟨fun _ _ _ => Nat.zero_le _, fun _ _ _ => Nat.zero_le _,
      fun _ _ _ _ _ => .inl (Nat.zero_le _)⟩⟩
  unfold Cluster.missing
  split
  · next node purpose hrequest =>
    have hcall := ok.call hrequest
    refine ok.resolve (fresh node) (fun m hm => ?_) request
    have hreads := hcall m hm
    unfold Reads at hreads
    split at hreads
    · rcases hreads with ⟨view, hview, hle⟩ | rfl
      · exact hle.trans (((ok.store node).reader_le view hview).trans hdurable.le)
      · exact le_refl _
    · exact hreads.1.trans hdurable.le
  · next node carried strong number hrequest =>
    have hcall := ok.call hrequest
    have hreads : c.RequestOk (.call node (.snapshot carried strong) .reader) := by
      intro m hm
      have hzero : m = 0 := Nat.le_zero.1 ((hcall m hm).1.trans hdurable.le)
      unfold Reads
      split
      · exact .inr hzero
      · exact ⟨(hcall m hm).1, fun settled => hzero ▸
          ⟨fun _ _ _ => Nat.zero_le _, fun _ _ _ => Nat.zero_le _,
            fun _ _ _ _ _ => .inl (Nat.zero_le _)⟩⟩
    exact ok.setRequest hreads
  · next node purpose number hne hrequest =>
    have hcall := ok.call hrequest
    exact ok.resolve (fresh node) (fun m hm => (hcall m hm).1.trans hdurable.le) request
  · exact ok

end Cluster

end HydraDb.Bookmark
