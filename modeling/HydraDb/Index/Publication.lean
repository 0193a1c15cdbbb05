import HydraDb.Index.Manifest
import HydraDb.Lib.Run

/-!
# Publication and collection of index generations

Any number of publishers and collectors of one edge type work on the object store at the same
time. A publisher (`publish_graph_index`) puts its payload, reads the manifest and replaces it if
its own position is later, on the condition that nobody else did in between. A collector
(`gc_graph_index_generations`) reads the manifest, lists the payloads and deletes, one by one, those
whose name says that they are older than what it read.

Here a call is a process whose steps are its requests to the store, and an event is one request
with the store's answer. A request may fail whether or not it took effect, and a listing may name
anything. What is asked of the store is in `State.feasible`: a conditional write takes effect only
if its condition holds at that moment, and an answer that it took effect, or that the object
exists, is true.

The invariant is `State.Ok`. A collector only ever deletes payloads that are older than the current
manifest, so a payload that a publisher has put is there or is older than the manifest
(`Placed`), and in the second case the publisher will not replace the manifest.
-/

namespace HydraDb

open OrdMap

/-- The position of a generation: its sequence, then its place in the log. -/
def GraphIndexGeneration.position (g : GraphIndexGeneration) : ℕ ×ₗ ℕ :=
  toLex (g.baseSequence, g.lastWalId.toNat)

namespace Publication

/-! ## Calls and processes -/

/-- The index that the calls are about. -/
structure Target where
  storePath : String
  cellId : CellId
  edgeType : EdgeType

/-- `graph_index_manifest_path`. -/
def Target.manifestPath (t : Target) : String :=
  t.storePath ++ "/_graph_index/" ++ t.cellId ++ "/" ++ t.edgeType ++ "/current"

/-- A generation of the index, with its payload. -/
structure Proposal (t : Target) where
  generation : GraphIndexGeneration
  payload : List UInt8
  valid : generation.Valid
  cellId : generation.cellId = t.cellId
  edgeType : generation.edgeType = t.edgeType

/-- `INDEX_PUBLISH_ATTEMPTS`. -/
def indexPublishAttempts : Nat := 8

/-- Where a call of `publish_graph_index` is. -/
inductive Publisher where
  | put
  | read (attempts : Nat)
  | swap (attempts : Nat) (seen : Option (List Char))
  | returned (result : Except GraphError GraphIndexGeneration)
  deriving DecidableEq

/-- Where a call of `gc_graph_index_generations` is. -/
inductive Collector where
  | read
  | list (base : StorageSequence) (older : List (StorageSequence × String))
  | delete (paths : List String) (deleted : Nat)
  | returned (result : Except GraphError Nat)
  deriving DecidableEq

/-- A call and where it is. -/
inductive Process (t : Target) where
  | publisher (proposal : Proposal t) (state : Publisher)
  | collector (retainPrevious : Nat) (state : Collector)

/-- The objects of the index. -/
structure Objects where
  manifest : Option (List Char)
  payloads : OrdMap String (List UInt8)

namespace Objects

/-- A put of a payload, which takes effect or not. -/
def putPayload (o : Objects) (applied : Bool) (path : String) (payload : List UInt8) : Objects :=
  if applied then { o with payloads := o.payloads.put path payload } else o

/-- A put of the manifest, which takes effect or not. -/
def putManifest (o : Objects) (applied : Bool) (text : List Char) : Objects :=
  if applied then { o with manifest := some text } else o

/-- A delete of a payload, which takes effect or not. -/
def deletePayload (o : Objects) (applied : Bool) (path : String) : Objects :=
  if applied then { o with payloads := o.payloads.del path } else o

end Objects

/-- The answer to a request. -/
inductive Answer where
  | ok
  /-- The condition of a write does not hold. -/
  | conflict
  | failed (reason : String)
  /-- A listing names an object. -/
  | entry (path : String)
  deriving DecidableEq

/-- The order of `older.sort_by`: newest first, then by path. -/
def olderLe (a b : StorageSequence × String) : Bool :=
  b.1 < a.1 || (a.1 == b.1 && decide (a.2 ≤ b.2))

variable {t : Target}

/-- The manifest, as a publisher reads it: it returns what is published if that is not behind its
proposal. -/
def readPublished (proposal : Proposal t) (attempts : Nat) : Option (List Char) → Publisher
  | none => .swap attempts none
  | some text =>
    match decodeGraphIndexManifest t.manifestPath text with
    | .error err => .returned (.error err)
    | .ok published =>
      if published.baseSequence > proposal.generation.baseSequence ∨
          (published.baseSequence = proposal.generation.baseSequence ∧
            published.lastWalId ≥ proposal.generation.lastWalId) then
        .returned (.ok published)
      else .swap attempts (some text)

/-- One request of `publish_graph_index`. -/
def Publisher.step (proposal : Proposal t) (o : Objects) (applied : Bool) (answer : Answer) :
    Publisher → Publisher × Objects
  | .put =>
    let o' := o.putPayload applied (proposal.generation.path t.storePath) proposal.payload
    match answer with
    | .failed reason => (.returned (.error (.objectStore reason)), o')
    | _ => (.read indexPublishAttempts, o')
  | .read 0 =>
    (.returned (.error (.conditionalWriteConflict "publish_graph_index" t.manifestPath)), o)
  | .read (attempts + 1) =>
    match answer with
    | .failed reason => (.returned (.error (.objectStore reason)), o)
    | _ => (readPublished proposal attempts o.manifest, o)
  | .swap attempts _ =>
    let o' := o.putManifest applied (encodeGraphIndexManifest proposal.generation)
    match answer with
    | .ok => (.returned (.ok proposal.generation), o')
    | .failed reason => (.returned (.error (.objectStore reason)), o')
    | _ => (.read attempts, o')
  | .returned result => (.returned result, o)

/-- `current_graph_index`, given the manifest. -/
def currentGraphIndex (t : Target) :
    Option (List Char) → Except GraphError (Option GraphIndexGeneration)
  | none => .ok none
  | some text => do
    let current ← decodeGraphIndexManifest t.manifestPath text
    if current.cellId ≠ t.cellId ∨ current.edgeType ≠ t.edgeType then
      .error (.corruptValue t.manifestPath "index manifest identity does not match path")
    else return some current

/-- The manifest, as a collector reads it. -/
def readCurrent (t : Target) (manifest : Option (List Char)) : Collector :=
  match currentGraphIndex t manifest with
  | .error err => .returned (.error err)
  | .ok none => .returned (.ok 0)
  | .ok (some current) => .list current.baseSequence []

/-- One request of `gc_graph_index_generations`. -/
def Collector.step (t : Target) (retainPrevious : Nat) (o : Objects) (applied : Bool)
    (answer : Answer) : Collector → Collector × Objects
  | .read =>
    match answer with
    | .failed reason => (.returned (.error (.objectStore reason)), o)
    | _ => (readCurrent t o.manifest, o)
  | .list base older =>
    match answer with
    | .failed reason => (.returned (.error (.objectStore reason)), o)
    | .entry path =>
      match graphIndexSequenceFromPath path with
      | .error err => (.returned (.error err), o)
      | .ok sequence =>
        (.list base (if sequence < base then older ++ [(sequence, path)] else older), o)
    | _ => (.delete (((older.mergeSort olderLe).drop retainPrevious).map Prod.snd) 0, o)
  | .delete [] deleted => (.returned (.ok deleted), o)
  | .delete (path :: paths) deleted =>
    let o' := o.deletePayload applied path
    match answer with
    | .failed reason => (.returned (.error (.objectStore reason)), o')
    | _ => (.delete paths (deleted + 1), o')
  | .returned result => (.returned result, o)

/-! ## Runs -/

/-- The objects and every call. -/
structure State (t : Target) (ι : Type) where
  objects : Objects
  processes : ι → Process t

/-- A request of a call, and its answer. -/
structure Event (ι : Type) where
  process : ι
  applied : Bool
  answer : Answer

variable {ι : Type}

/-- What an event does. -/
def State.exec [DecidableEq ι] (s : State t ι) (e : Event ι) : State t ι :=
  match s.processes e.process with
  | .publisher proposal state =>
    let r := state.step proposal s.objects e.applied e.answer
    ⟨r.2, Function.update s.processes e.process (.publisher proposal r.1)⟩
  | .collector retainPrevious state =>
    let r := state.step t retainPrevious s.objects e.applied e.answer
    ⟨r.2, Function.update s.processes e.process (.collector retainPrevious r.1)⟩

/-- The answers that a store with linearizable conditional writes gives. A write that creates takes
effect only if there is no object, and a write that updates only if the object is the one that was
read. -/
def State.feasible (s : State t ι) (e : Event ι) : Bool :=
  match s.processes e.process with
  | .publisher proposal .put =>
    let present := s.objects.payloads.contains (proposal.generation.path t.storePath)
    (!e.applied || !present) && match e.answer with
      | .ok => e.applied
      | .conflict => e.applied || present
      | .failed _ => true
      | .entry _ => false
  | .publisher _ (.swap _ seen) =>
    (!e.applied || s.objects.manifest == seen) && match e.answer with
      | .ok => e.applied
      | .conflict | .failed _ => true
      | .entry _ => false
  | .collector _ (.delete _ _) =>
    match e.answer with
      | .ok => e.applied
      | .failed _ => true
      | .conflict | .entry _ => false
  | .collector _ (.list _ _) => !e.applied && e.answer != .conflict
  | .publisher _ (.read _) | .collector _ .read =>
    !e.applied && match e.answer with
      | .ok | .failed _ => true
      | .conflict | .entry _ => false
  | .publisher _ (.returned _) | .collector _ (.returned _) => false

/-- The call has made no request. -/
def Process.Fresh : Process t → Prop
  | .publisher _ .put | .collector _ .read => True
  | _ => False

/-! ## Invariant -/

namespace Objects

/-- The manifest is that of a generation of the index. -/
structure Names (t : Target) (o : Objects) (g : GraphIndexGeneration) : Prop where
  manifest : o.manifest = some (encodeGraphIndexManifest g)
  valid : g.Valid
  cellId : g.cellId = t.cellId
  edgeType : g.edgeType = t.edgeType

/-- There is no manifest, or it names a payload that is there. -/
def Sound (t : Target) (o : Objects) : Prop :=
  o.manifest = none ∨ ∃ g, o.Names t g ∧ o.payloads.contains (g.path t.storePath) = true

/-- The manifest is newer than the sequence. -/
def Newer (t : Target) (o : Objects) (base : StorageSequence) : Prop :=
  ∃ g, o.Names t g ∧ base < g.baseSequence

/-- The payload of a proposal is there, or the manifest is newer than the proposal. -/
def Placed (o : Objects) (proposal : Proposal t) : Prop :=
  o.payloads.contains (proposal.generation.path t.storePath) = true ∨
    o.Newer t proposal.generation.baseSequence

/-- What the requests of all calls keep: the manifest goes forward, a payload disappears only when
its name says that it is older than the manifest, and the manifest names a payload that is there. -/
structure Later (t : Target) (o o' : Objects) : Prop where
  names : ∀ g, o.Names t g → ∃ g', o'.Names t g' ∧ g.position ≤ g'.position
  payload : ∀ path, o.payloads.contains path = true → o'.payloads.contains path = true ∨
    ∃ base, graphIndexSequenceFromPath path = .ok base ∧ o'.Newer t base
  sound : o.Sound t → o'.Sound t

end Objects

/-- What holds of a call at each of its steps. -/
def Process.Ok (o : Objects) : Process t → Prop
  | .publisher _ .put | .collector _ .read | .collector _ (.returned _) => True
  | .publisher proposal (.read _) => o.Placed proposal
  | .publisher proposal (.swap _ seen) => o.Placed proposal ∧ ∀ text, seen = some text →
      ∃ g, text = encodeGraphIndexManifest g ∧ g.Valid ∧ g.position < proposal.generation.position
  | .publisher proposal (.returned result) => ∀ g, result = .ok g →
      proposal.generation.position ≤ g.position
  | .collector _ (.list base older) => (∃ g, o.Names t g ∧ base ≤ g.baseSequence) ∧
      ∀ x ∈ older, graphIndexSequenceFromPath x.2 = .ok x.1 ∧ x.1 < base
  | .collector _ (.delete paths _) => ∀ path ∈ paths,
      ∃ base, graphIndexSequenceFromPath path = .ok base ∧ o.Newer t base

/-- The invariant of a run. -/
structure State.Ok (s : State t ι) : Prop where
  sound : s.objects.Sound t
  process : ∀ i, (s.processes i).Ok s.objects

section

variable {o o' : Objects} {g g' : GraphIndexGeneration} {proposal : Proposal t}

theorem position_le_iff : g.position ≤ g'.position ↔ g'.baseSequence > g.baseSequence ∨
    (g'.baseSequence = g.baseSequence ∧ g'.lastWalId ≥ g.lastWalId) := by
  rw [GraphIndexGeneration.position, GraphIndexGeneration.position, Prod.Lex.le_iff]
  exact or_congr Iff.rfl (and_congr eq_comm UInt64.le_iff_toNat_le.symm)

theorem baseSequence_le (h : g.position ≤ g'.position) : g.baseSequence ≤ g'.baseSequence := by
  rcases position_le_iff.1 h with h | h
  · exact h.le
  · exact h.1.ge

theorem Objects.Names.eq (h : o.Names t g) (h' : o.Names t g') : g = g' := by
  have hsame : encodeGraphIndexManifest g = encodeGraphIndexManifest g' :=
    Option.some.inj (h.manifest.symm.trans h'.manifest)
  have hdecode := decodeGraphIndexManifest_encode h.valid ""
  rw [hsame, decodeGraphIndexManifest_encode h'.valid] at hdecode
  exact (Except.ok.inj hdecode).symm

theorem Objects.Sound.names (h : o.Sound t) (hm : o.manifest = some text) :
    ∃ g, o.Names t g ∧ text = encodeGraphIndexManifest g := by
  rcases h with hnone | ⟨g, hg, -⟩
  · rw [hnone] at hm
    cases hm
  · exact ⟨g, hg, Option.some.inj (hm.symm.trans hg.manifest)⟩

theorem Objects.Later.refl : o.Later t o where
  names g hg := ⟨g, hg, le_refl _⟩
  payload _ hpath := .inl hpath
  sound h := h

theorem Objects.Later.newer (h : o.Later t o') (hb : o.Newer t base) : o'.Newer t base := by
  obtain ⟨g, hg, hlt⟩ := hb
  obtain ⟨g', hg', hle⟩ := h.names g hg
  exact ⟨g', hg', hlt.trans_le (baseSequence_le hle)⟩

theorem Objects.Later.placed (h : o.Later t o') (hp : o.Placed proposal) : o'.Placed proposal := by
  rcases hp with hp | hp
  · rcases h.payload _ hp with hp | ⟨base, hbase, hnewer⟩
    · exact .inl hp
    · rw [graphIndexSequenceFromPath_path proposal.valid] at hbase
      cases hbase
      exact .inr hnewer
  · exact .inr (h.newer hp)

/-- What holds of a call holds after the requests of the others. -/
theorem Objects.Later.process (h : o.Later t o') {p : Process t} (hp : p.Ok o) : p.Ok o' := by
  match p, hp with
  | .publisher _ .put, _ | .collector _ .read, _ | .collector _ (.returned _), _ => trivial
  | .publisher _ (.read _), hp => exact h.placed hp
  | .publisher _ (.swap _ _), hp => exact ⟨h.placed hp.1, hp.2⟩
  | .publisher _ (.returned _), hp => exact hp
  | .collector _ (.list _ _), ⟨⟨g, hg, hle⟩, hp⟩ =>
    obtain ⟨g', hg', hle'⟩ := h.names g hg
    exact ⟨⟨g', hg', hle.trans (baseSequence_le hle')⟩, hp⟩
  | .collector _ (.delete _ _), hp =>
    intro path hpath
    obtain ⟨base, hbase, hnewer⟩ := hp path hpath
    exact ⟨base, hbase, h.newer hnewer⟩

end

/-! ## Requests -/

section

variable {o : Objects} {proposal : Proposal t}

theorem later_putPayload (o : Objects) (applied : Bool) (path : String) (payload : List UInt8) :
    o.Later t (o.putPayload applied path payload) := by
  cases applied with
  | false => exact .refl
  | true =>
    refine ⟨fun g hg => ⟨g, ⟨hg.manifest, hg.valid, hg.cellId, hg.edgeType⟩, le_refl _⟩,
      fun path' hpath => .inl (contains_put.2 (.inr hpath)), ?_⟩
    rintro (hnone | ⟨g, hg, hcontains⟩)
    · exact .inl hnone
    · exact .inr ⟨g, ⟨hg.manifest, hg.valid, hg.cellId, hg.edgeType⟩,
        contains_put.2 (.inr hcontains)⟩

/-- A payload that is older than the manifest is not the one that the manifest names. -/
theorem later_deletePayload (applied : Bool) (hbase : graphIndexSequenceFromPath path = .ok base)
    (hnewer : o.Newer t base) : o.Later t (o.deletePayload applied path) := by
  cases applied with
  | false => exact .refl
  | true =>
    have hnames : ∀ g, o.Names t g → (o.deletePayload true path).Names t g :=
      fun g hg => ⟨hg.manifest, hg.valid, hg.cellId, hg.edgeType⟩
    refine ⟨fun g hg => ⟨g, hnames g hg, le_refl _⟩, fun path' hpath => ?_, ?_⟩
    · by_cases heq : path' = path
      · obtain ⟨g, hg, hlt⟩ := hnewer
        exact .inr ⟨base, heq ▸ hbase, g, hnames g hg, hlt⟩
      · exact .inl (contains_del.2 ⟨heq, hpath⟩)
    rintro (hnone | ⟨g, hg, hcontains⟩)
    · exact .inl hnone
    refine .inr ⟨g, hnames g hg, contains_del.2 ⟨?_, hcontains⟩⟩
    rintro rfl
    obtain ⟨g', hg', hlt⟩ := hnewer
    rw [graphIndexSequenceFromPath_path hg.valid, Objects.Names.eq hg hg'] at hbase
    cases hbase
    exact lt_irrefl _ hlt

/-- A publisher replaces a manifest that is behind its proposal, so its payload is there. -/
theorem later_putManifest (hplaced : o.Placed proposal)
    (hseen : a = true → ∀ text, o.manifest = some text → ∃ g,
      text = encodeGraphIndexManifest g ∧ g.Valid ∧ g.position < proposal.generation.position) :
    o.Later t (o.putManifest a (encodeGraphIndexManifest proposal.generation)) := by
  cases a with
  | false => exact .refl
  | true =>
    have hbehind : ∀ g, o.Names t g → g.position < proposal.generation.position := by
      intro g hg
      obtain ⟨g', htext, hvalid, hlt⟩ := hseen rfl _ hg.manifest
      have hdecode := decodeGraphIndexManifest_encode hg.valid ""
      rw [htext, decodeGraphIndexManifest_encode hvalid] at hdecode
      rwa [← Except.ok.inj hdecode]
    have hpayload : o.payloads.contains (proposal.generation.path t.storePath) = true := by
      refine hplaced.resolve_right ?_
      rintro ⟨g, hg, hlt⟩
      exact absurd (baseSequence_le (hbehind g hg).le) (Nat.not_le.2 hlt)
    have hnames : (o.putManifest true (encodeGraphIndexManifest proposal.generation)).Names t
        proposal.generation := ⟨rfl, proposal.valid, proposal.cellId, proposal.edgeType⟩
    exact ⟨fun g hg => ⟨_, hnames, (hbehind g hg).le⟩, fun _ hpath => .inl hpath,
      fun _ => .inr ⟨_, hnames, hpayload⟩⟩

/-- What a publisher does with the manifest it reads. -/
theorem readPublished_ok (hsound : o.Sound t) (hplaced : o.Placed proposal) :
    (Process.publisher proposal (readPublished proposal attempts o.manifest)).Ok o := by
  cases hm : o.manifest with
  | none => exact ⟨hplaced, nofun⟩
  | some text =>
    obtain ⟨g, hg, rfl⟩ := hsound.names hm
    rw [readPublished, decodeGraphIndexManifest_encode hg.valid]
    dsimp only
    split
    · next hle =>
      intro g' hg'
      cases hg'
      exact position_le_iff.2 hle
    · next hnot =>
      refine ⟨hplaced, fun text htext => ⟨g, (Option.some.inj htext).symm, hg.valid, ?_⟩⟩
      exact not_le.1 fun hle => hnot (position_le_iff.1 hle)

end

section

variable {s : State t ι} {e : Event ι}

/-- A request of a publisher. -/
theorem State.Ok.publisher (h : s.Ok)
    (hf : s.feasible e = true) (hp : s.processes e.process = .publisher proposal state) :
    s.objects.Later t (state.step proposal s.objects e.applied e.answer).2 ∧
      (Process.publisher proposal (state.step proposal s.objects e.applied e.answer).1).Ok
        (state.step proposal s.objects e.applied e.answer).2 := by
  have hok := h.process e.process
  rw [hp] at hok
  rw [State.feasible, hp] at hf
  cases state with
  | put =>
    rw [Bool.and_eq_true] at hf
    have hlater := later_putPayload (t := t) s.objects e.applied
      (proposal.generation.path t.storePath) proposal.payload
    cases hanswer : e.answer with
    | failed => exact ⟨hlater, nofun⟩
    | entry =>
      rw [hanswer] at hf
      exact absurd hf.2 Bool.false_ne_true
    | ok =>
      rw [hanswer] at hf
      have happlied : e.applied = true := hf.2
      refine ⟨hlater, .inl ?_⟩
      rw [happlied]
      exact contains_put.2 (.inl rfl)
    | conflict =>
      rw [hanswer] at hf
      refine ⟨hlater, .inl ?_⟩
      cases happlied : e.applied with
      | true => exact contains_put.2 (.inl rfl)
      | false =>
        rw [happlied] at hf
        exact hf.2
  | read attempts =>
    cases attempts with
    | zero => exact ⟨.refl, nofun⟩
    | succ =>
      cases e.answer with
      | failed => exact ⟨.refl, nofun⟩
      | ok | conflict | entry => exact ⟨.refl, readPublished_ok h.sound hok⟩
  | swap =>
    rw [Bool.and_eq_true, Bool.or_eq_true, beq_iff_eq, Bool.not_eq_true'] at hf
    have hlater := later_putManifest (a := e.applied) hok.1 fun happlied text htext => by
      refine hok.2 text ?_
      rw [← htext]
      exact (hf.1.resolve_left (by rw [happlied]; decide)).symm
    cases e.answer with
    | ok => exact ⟨hlater, fun g hg => (congrArg _ (Except.ok.inj hg)).le⟩
    | failed => exact ⟨hlater, nofun⟩
    | conflict | entry => exact ⟨hlater, hlater.placed hok.1⟩
  | returned => exact ⟨.refl, hok⟩

theorem currentGraphIndex_encode (hvalid : g.Valid) (hcell : g.cellId = t.cellId)
    (htype : g.edgeType = t.edgeType) :
    currentGraphIndex t (some (encodeGraphIndexManifest g)) = .ok (some g) := by
  rw [currentGraphIndex, decodeGraphIndexManifest_encode hvalid]
  exact if_neg (not_or.2 ⟨not_not.2 hcell, not_not.2 htype⟩)

/-- A request of a collector. -/
theorem State.Ok.collector (h : s.Ok)
    (hp : s.processes e.process = .collector retainPrevious state) :
    s.objects.Later t (state.step t retainPrevious s.objects e.applied e.answer).2 ∧
      Process.Ok (t := t) (state.step t retainPrevious s.objects e.applied e.answer).2
        (.collector retainPrevious
          (state.step t retainPrevious s.objects e.applied e.answer).1) := by
  have hok := h.process e.process
  rw [hp] at hok
  cases state with
  | read =>
    unfold Collector.step
    dsimp only
    split
    · exact ⟨.refl, trivial⟩
    refine ⟨.refl, ?_⟩
    cases hm : s.objects.manifest with
    | none => trivial
    | some =>
      obtain ⟨g, hg, rfl⟩ := h.sound.names hm
      rw [readCurrent, currentGraphIndex_encode hg.valid hg.cellId hg.edgeType]
      exact ⟨⟨g, hg, le_refl _⟩, nofun⟩
  | list =>
    obtain ⟨⟨g, hg, hle⟩, holder⟩ := hok
    unfold Collector.step
    dsimp only
    split
    · exact ⟨.refl, trivial⟩
    · split
      · exact ⟨.refl, trivial⟩
      next sequence hsequence =>
      refine ⟨.refl, ⟨g, hg, hle⟩, fun x hx => ?_⟩
      split at hx
      · next hlt =>
        rcases List.mem_snoc.1 hx with hx | rfl
        · exact holder x hx
        · exact ⟨hsequence, hlt⟩
      · exact holder x hx
    · refine ⟨.refl, fun path hpath => ?_⟩
      obtain ⟨x, hx, rfl⟩ := List.mem_map.1 hpath
      obtain ⟨hparse, hlt⟩ := holder x (List.mem_mergeSort.1 (List.mem_of_mem_drop hx))
      exact ⟨x.1, hparse, g, hg, hlt.trans_le hle⟩
  | delete paths =>
    cases paths with
    | nil => exact ⟨.refl, trivial⟩
    | cons path =>
      obtain ⟨base, hbase, hnewer⟩ := hok path List.mem_cons_self
      have hlater := later_deletePayload e.applied hbase hnewer
      unfold Collector.step
      dsimp only
      split
      · exact ⟨hlater, trivial⟩
      · refine ⟨hlater, fun path' hpath' => ?_⟩
        obtain ⟨base', hbase', hnewer'⟩ := hok path' (List.mem_cons_of_mem _ hpath')
        exact ⟨base', hbase', hlater.newer hnewer'⟩
  | returned => exact ⟨.refl, trivial⟩

/-- Every request keeps the invariant and takes the objects forward. -/
theorem State.Ok.exec [DecidableEq ι] (h : s.Ok) (hf : s.feasible e = true) :
    (s.exec e).Ok ∧ s.objects.Later t (s.exec e).objects := by
  have update : ∀ {o : Objects} {p : Process t}, s.objects.Later t o → p.Ok o →
      State.Ok ⟨o, Function.update s.processes e.process p⟩ := by
    intro o p hlater hp
    refine ⟨hlater.sound h.sound, fun i => ?_⟩
    dsimp only
    by_cases hi : i = e.process
    · subst hi
      rwa [Function.update_self]
    · rw [Function.update_of_ne hi]
      exact hlater.process (h.process i)
  rw [State.exec]
  split
  · next proposal state hp =>
    obtain ⟨hlater, hok⟩ := h.publisher hf hp
    exact ⟨update hlater hok, hlater⟩
  · next retainPrevious state hp =>
    obtain ⟨hlater, hok⟩ := h.collector hp
    exact ⟨update hlater hok, hlater⟩

/-- A state before any request. -/
structure State.Initial (s : State t ι) : Prop where
  sound : s.objects.Sound t
  fresh : ∀ i, (s.processes i).Fresh

theorem State.Initial.ok (h : s.Initial) : s.Ok where
  sound := h.sound
  process i := by
    have hfresh := h.fresh i
    match s.processes i, hfresh with
    | .publisher _ .put, _ | .collector _ .read, _ => trivial

/-- A run of requests that the store answers. -/
def State.Run [DecidableEq ι] : State t ι → State t ι → Prop :=
  Machine.Run State.exec fun s e => s.feasible e = true

theorem State.Run.ok [DecidableEq ι] (h : s.Run s') (hok : s.Ok) :
    s'.Ok ∧ ∀ g, s.objects.Names t g → ∃ g', s'.objects.Names t g' ∧ g.position ≤ g'.position := by
  refine Machine.Run.invariant (I := fun s' => State.Ok s' ∧ ∀ g, s.objects.Names t g →
    ∃ g', s'.objects.Names t g' ∧ g.position ≤ g'.position) h
    ⟨hok, fun g hg => ⟨g, hg, le_refl _⟩⟩ ?_
  rintro s' e hf ⟨hok', hnames⟩
  obtain ⟨hnext, hlater⟩ := hok'.exec hf
  refine ⟨hnext, fun g hg => ?_⟩
  obtain ⟨g', hg', hle⟩ := hnames g hg
  obtain ⟨g'', hg'', hle'⟩ := hlater.names g' hg'
  exact ⟨g'', hg'', hle.trans hle'⟩

end

/-- The generation that the current pointer names, as a reader decodes it. -/
def Objects.current (t : Target) (o : Objects) : Option (Except GraphError GraphIndexGeneration) :=
  o.manifest.map (decodeGraphIndexManifest t.manifestPath)

theorem Objects.Names.current {o : Objects} (h : o.Names t g) : o.current t = some (.ok g) := by
  rw [Objects.current, h.manifest, Option.map_some, decodeGraphIndexManifest_encode h.valid]

theorem Objects.Sound.current {o : Objects} (h : o.Sound t) (hr : o.current t = some r) :
    ∃ g, r = .ok g ∧ o.Names t g ∧ o.payloads.contains (g.path t.storePath) = true := by
  rcases h with hnone | ⟨g, hg, hpayload⟩
  · rw [Objects.current, hnone] at hr
    cases hr
  · rw [hg.current] at hr
    exact ⟨g, (Option.some.inj hr).symm, hg, hpayload⟩

/-- In every run of publishers and collectors the current pointer goes forward and names a payload
that is there, and a publisher that returns a generation returns one that is not behind its own. -/
theorem publication_of_run [DecidableEq ι] {s₀ s s' : State t ι} (hinit : s₀.Initial)
    (hs : s₀.Run s) (hs' : s.Run s') :
    (∀ g, s.objects.current t = some (.ok g) →
      ∃ g', s'.objects.current t = some (.ok g') ∧ g.position ≤ g'.position) ∧
    (∀ r, s.objects.current t = some r →
      ∃ g, r = .ok g ∧ s.objects.payloads.contains (g.path t.storePath) = true) ∧
    ∀ i proposal g, s.processes i = .publisher proposal (.returned (.ok g)) →
      proposal.generation.position ≤ g.position := by
  have hok := (hs.ok hinit.ok).1
  refine ⟨fun g hg => ?_, fun r hr => ?_, fun i proposal g hi => ?_⟩
  · obtain ⟨_, ⟨⟩, hnames, -⟩ := hok.sound.current hg
    obtain ⟨g', hg', hle⟩ := (hs'.ok hok).2 g hnames
    exact ⟨g', hg'.current, hle⟩
  · obtain ⟨g, hr, -, hpayload⟩ := hok.sound.current hr
    exact ⟨g, hr, hpayload⟩
  · have hprocess := hok.process i
    rw [hi] at hprocess
    exact hprocess g rfl

/-- An index of the examples, a digest, and a proposal for it. -/
def sampleTarget : Target := ⟨"store", "c", "T"⟩

def sampleDigest : String := String.ofList (List.replicate 64 'a')

theorem sampleDigest_hex :
    sampleDigest.toList.length = 64 ∧ sampleDigest.toList.all isHexDigit = true := by
  have hchars : sampleDigest.toList = List.replicate 64 'a' := String.toList_ofList
  rw [hchars]
  decide +kernel

def sampleProposal (baseSequence : StorageSequence) (h : baseSequence < 2 ^ 64) :
    Proposal sampleTarget where
  generation := ⟨"c", "T", baseSequence, 0, 1, 0, sampleDigest⟩
  payload := [0]
  valid := by
    have hcell : validateComponent "cell_id" "c" = .ok () := by decide +kernel
    have htype : validateComponent "edge_type" "T" = .ok () := by decide +kernel
    exact ⟨hcell, htype, h, Nat.one_lt_two_pow (by decide), sampleDigest_hex⟩
  cellId := rfl
  edgeType := rfl

/-- Two publishers and a collector, before the first publication. -/
def sampleStart : State sampleTarget (Fin 3) where
  objects := ⟨none, ∅⟩
  processes
    | 0 => .publisher (sampleProposal 1 (by decide)) .put
    | 1 => .publisher (sampleProposal 2 (by decide)) .put
    | 2 => .collector 0 .read

/-- The newer generation is published. -/
def samplePublished : State sampleTarget (Fin 3) :=
  [⟨1, true, .ok⟩, ⟨1, false, .ok⟩, ⟨1, true, .ok⟩].foldl State.exec sampleStart

/-- The other publisher finds it, and the collector deletes the payload of the older one. -/
def sampleCollected : State sampleTarget (Fin 3) :=
  [⟨0, true, .ok⟩, ⟨0, false, .ok⟩, ⟨2, false, .ok⟩,
    ⟨2, false, .entry ((sampleProposal 1 (by decide)).generation.path "store")⟩,
    ⟨2, false, .ok⟩, ⟨2, true, .ok⟩].foldl State.exec samplePublished

theorem publication_of_run_sampleCollected :
    (∃ g', sampleCollected.objects.current sampleTarget = some (.ok g') ∧
      (sampleProposal 2 (by decide)).generation.position ≤ g'.position) ∧
    samplePublished.objects.payloads.contains
      ((sampleProposal 2 (by decide)).generation.path "store") = true ∧
    sampleCollected.processes 0 = .publisher (sampleProposal 1 (by decide))
      (.returned (.ok (sampleProposal 2 (by decide)).generation)) ∧
    (sampleProposal 1 (by decide)).generation.position ≤
      (sampleProposal 2 (by decide)).generation.position := by
  have hinit : sampleStart.Initial := ⟨.inl rfl, fun | 0 | 1 | 2 => trivial⟩
  have hpublished : sampleStart.Run samplePublished := Machine.Run.of_admits (by decide +kernel)
  have hcollected : samplePublished.Run sampleCollected :=
    Machine.Run.of_admits (by decide +kernel)
  have hcurrent : samplePublished.objects.current sampleTarget =
      some (.ok (sampleProposal 2 (by decide)).generation) := by decide +kernel
  have hreturned : sampleCollected.processes 0 = .publisher (sampleProposal 1 (by decide))
      (.returned (.ok (sampleProposal 2 (by decide)).generation)) := rfl
  obtain ⟨hforward, hnamed, -⟩ := publication_of_run hinit hpublished hcollected
  obtain ⟨_, ⟨⟩, hpayload⟩ := hnamed _ hcurrent
  exact ⟨hforward _ hcurrent, hpayload, hreturned,
    (publication_of_run hinit (hpublished.trans hcollected) .refl).2.2 0 _ _ hreturned⟩

end Publication

end HydraDb
