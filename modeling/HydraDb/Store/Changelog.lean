import HydraDb.Store.Topology

/-!
# The topology changelog

Every topology change writes an entry for its edge at the sequence of its commit
(`mark_topology_change_txn`, `shard/write.rs`), so the edges that changed in a range of sequences
are a range scan (`xlog_delta_since`, `shard/xlog.rs`). Garbage collection deletes entries a
published index no longer needs and moves the low-water mark (`gc_topology_changelog_to`).
-/

namespace HydraDb

open OrdMap

/-! ## Overlays -/

/-- Changes of existence, by source and destination (`GraphTopologyOverlay`). -/
structure GraphTopologyOverlay where
  states : OrdMap VertexId (OrdMap VertexId Bool)

namespace GraphTopologyOverlay

def empty : GraphTopologyOverlay := ⟨∅⟩

def set (o : GraphTopologyOverlay) (src dst : VertexId) (present : Bool) : GraphTopologyOverlay :=
  ⟨o.states.put src (((o.states.get src).getD ∅).put dst present)⟩

def state (o : GraphTopologyOverlay) (src dst : VertexId) : Option Bool :=
  (o.states.get src).bind fun destinations => destinations.get dst

/-- `GraphTopologyOverlay::entries`. -/
def entries (o : GraphTopologyOverlay) : List (VertexId × VertexId × Bool) :=
  o.states.entries.flatMap fun e => e.2.entries.map fun d => (e.1, d.1, d.2)

@[simp] theorem state_empty : empty.state src dst = none := rfl

theorem state_set (o : GraphTopologyOverlay) (src dst src' dst' : VertexId) (present : Bool) :
    (o.set src dst present).state src' dst' =
      if src' = src ∧ dst' = dst then some present else o.state src' dst' := by
  unfold state set
  by_cases hs : src' = src
  · subst hs
    simp only [get_put_self, Option.bind_some, get_put, true_and]
    cases o.states.get src' <;> simp
  · rw [get_put_of_ne hs, if_neg fun h => hs h.1]

theorem mem_entries {o : GraphTopologyOverlay} :
    (src, dst, present) ∈ o.entries ↔ o.state src dst = some present := by
  simp only [entries, state, List.mem_flatMap, List.mem_map, Prod.exists, OrdMap.mem_entries,
    Option.bind_eq_some_iff, Prod.mk.injEq]
  constructor
  · rintro ⟨s, ds, hs, d, b, hd, rfl, rfl, rfl⟩
    exact ⟨ds, hs, hd⟩
  · rintro ⟨ds, hs, hd⟩
    exact ⟨src, ds, hs, dst, present, hd, rfl, rfl, rfl⟩

/-- Setting a list of changes in order leaves, for each edge, its last change. -/
theorem state_foldl_set (changes : List (VertexId × VertexId × Bool)) (o : GraphTopologyOverlay)
    (src dst : VertexId) :
    (changes.foldl (fun o c => o.set c.1 c.2.1 c.2.2) o).state src dst =
      ((changes.reverse.find? fun c => c.1 = src ∧ c.2.1 = dst).map fun c => c.2.2).or
        (o.state src dst) := by
  induction changes generalizing o with
  | nil => rfl
  | cons c changes ih =>
    rw [List.foldl_cons, ih, state_set, List.reverse_cons, List.find?_append]
    cases hfind : changes.reverse.find? fun c => decide (c.1 = src ∧ c.2.1 = dst) with
    | some => rfl
    | none =>
      by_cases hc : c.1 = src ∧ c.2.1 = dst
      · simp [hc]
      · have hc' : ¬ (src = c.1 ∧ dst = c.2.1) := fun h => hc ⟨h.1.symm, h.2.symm⟩
        simp [hc, hc']

end GraphTopologyOverlay

namespace Changelog

variable {edgeType : EdgeType} {currentEpoch : StorageSequence}

/-! ## Logging a change -/

/-- Set the low-water mark of an edge type that has none, unless the in-memory cache says there is
one. -/
def ensureFloor (l : Changelog) (ensured : Bool) (edgeType : EdgeType) (epoch : StorageSequence) :
    Changelog :=
  if ensured || l.lowWater.contains edgeType then l
  else { l with lowWater := l.lowWater.put edgeType epoch }

/-- The entries of a list of changes at one sequence. -/
def entriesAt (edgeType : EdgeType) (epoch : StorageSequence)
    (changes : List (VertexId × VertexId × Bool)) : List (XlogKey × Bool) :=
  changes.map fun c => (⟨edgeType, epoch, c.1, c.2.1⟩, c.2.2)

/-- `mark_topology_change_txn`: the dirty marker, the adjacency generation, and an entry for each
changed edge with its existence after the commit. -/
def markTopologyChange (l : Changelog) (ensured : Bool) (edgeType : EdgeType)
    (epoch : StorageSequence) (changes : List (VertexId × VertexId × Bool)) : Changelog :=
  let l := { l with
    matrixDirty := l.matrixDirty.put edgeType epoch
    adjacencyGeneration := l.adjacencyGeneration.put edgeType epoch }
  if changes.isEmpty then l
  else
    let l := l.ensureFloor ensured edgeType epoch
    { l with entries := l.entries.putAll (entriesAt edgeType epoch changes) }

section

variable (l : Changelog) (ensured : Bool) (edgeType : EdgeType) (epoch : StorageSequence)
  (changes : List (VertexId × VertexId × Bool))

theorem matrixDirty_markTopologyChange :
    (l.markTopologyChange ensured edgeType epoch changes).matrixDirty =
      l.matrixDirty.put edgeType epoch := by
  unfold markTopologyChange ensureFloor
  split
  · rfl
  · dsimp only; split <;> rfl

theorem adjacencyGeneration_markTopologyChange :
    (l.markTopologyChange ensured edgeType epoch changes).adjacencyGeneration =
      l.adjacencyGeneration.put edgeType epoch := by
  unfold markTopologyChange ensureFloor
  split
  · rfl
  · dsimp only; split <;> rfl

theorem entries_markTopologyChange :
    (l.markTopologyChange ensured edgeType epoch changes).entries =
      l.entries.putAll (entriesAt edgeType epoch changes) := by
  unfold markTopologyChange ensureFloor
  split
  · next h => rw [List.isEmpty_iff.1 h]; rfl
  · dsimp only; split <;> rfl

/-- Logging leaves a low-water mark as it is, or sets one where there was none. -/
theorem lowWater_markTopologyChange :
    (l.markTopologyChange ensured edgeType epoch changes).lowWater.get edgeType' =
        l.lowWater.get edgeType' ∨
      l.lowWater.get edgeType' = none ∧
        (l.markTopologyChange ensured edgeType epoch changes).lowWater.get edgeType' =
          some epoch := by
  unfold markTopologyChange ensureFloor
  split
  · exact .inl rfl
  dsimp only
  split
  · exact .inl rfl
  next h =>
  rw [get_put]
  split
  · next heq =>
    subst heq
    refine .inr ⟨?_, rfl⟩
    rw [Bool.or_eq_true, not_or, contains_iff, Option.not_isSome_iff_eq_none] at h
    exact h.2
  · exact .inl rfl

/-- Logging changes one after the other is logging them at once. -/
theorem markTopologyChange_cons (hchanges : changes.isEmpty = false) :
    (l.markTopologyChange ensured edgeType epoch [change]).markTopologyChange ensured edgeType epoch
      changes = l.markTopologyChange ensured edgeType epoch (change :: changes) := by
  have hset : (ensured || (l.lowWater.put edgeType epoch).contains edgeType) = true := by
    rw [contains_put.2 (.inl rfl), Bool.or_true]
  simp only [markTopologyChange, hchanges, List.isEmpty_cons, Bool.false_eq_true, if_false,
    ensureFloor]
  cases hfloor : ensured || l.lowWater.contains edgeType with
  | true => simp only [hfloor, if_true, put_put]; rfl
  | false =>
    simp only [hset, Bool.false_eq_true, if_false, if_true, put_put]
    rfl

end

/-! ## Reading a range -/

/-- `XlogDelta`. -/
inductive XlogDelta where
  | complete (overlay : GraphTopologyOverlay)
  | uninitialized
  | coverageGap (lowWater : StorageSequence)

/-- The changes logged for an edge type at the sequences of a half-open range, in key order. -/
def changesIn (l : Changelog) (edgeType : EdgeType) (start stop : StorageSequence) :
    List (VertexId × VertexId × Bool) :=
  (l.entries.scan fun k => k.edgeType = edgeType ∧ start ≤ k.sequence ∧ k.sequence < stop).map
    fun e => (e.1.src, e.1.dst, e.2)

/-- The changes of a list, the last one of each edge winning. -/
def resolve (changes : List (VertexId × VertexId × Bool)) : GraphTopologyOverlay :=
  changes.foldl (fun o c => o.set c.1 c.2.1 c.2.2) .empty

/-- `xlog_delta_since`: the changes in `(previousBase, baseSequence]`, if all of them are kept. -/
def xlogDeltaSince (l : Changelog) (previousBase baseSequence : StorageSequence)
    (edgeType : EdgeType) : XlogDelta :=
  match l.lowWater.get edgeType with
  | none => .uninitialized
  | some lowWater =>
    let start := saturatingSucc previousBase
    if start < lowWater then .coverageGap lowWater
    else .complete (resolve (l.changesIn edgeType start (saturatingSucc baseSequence)))

/-! ## Garbage collection -/

/-- The scan of `gc_topology_changelog_to`: the dead keys up to the cap, the last sequence seen,
and whether the cap stopped the scan. -/
def gcScan (cap gcThrough : Nat) :
    List (XlogKey × Bool) → List XlogKey → StorageSequence → List XlogKey × StorageSequence × Bool
  | [], dead, lastSequence => (dead, lastSequence, false)
  | e :: es, dead, lastSequence =>
    if e.1.sequence > gcThrough then (dead, lastSequence, false)
    else
      let dead := dead ++ [e.1]
      if dead.length ≥ cap then (dead, e.1.sequence, true)
      else gcScan cap gcThrough es dead e.1.sequence

/-- `gc_topology_changelog_to`, with the cap as a parameter: the changelog written, if any, and
the number of entries deleted. `currentEpoch` is the store's sequence, used to repair an absent
low-water mark. -/
def gcTopologyChangelogTo (l : Changelog) (cap : Nat) (currentEpoch : StorageSequence)
    (edgeType : EdgeType) (gcThrough : StorageSequence) : Option Changelog × Nat :=
  match l.lowWater.get edgeType with
  | none => (some { l with lowWater := l.lowWater.put edgeType currentEpoch }, 0)
  | some lowWater =>
    if lowWater > gcThrough then (none, 0)
    else
      let scanned := l.entries.scan fun k => k.edgeType = edgeType ∧ lowWater ≤ k.sequence
      let (dead, lastSequence, capped) := gcScan cap gcThrough scanned [] lowWater
      if dead.isEmpty then (none, 0)
      else
        let nextLow := if capped then lastSequence else saturatingSucc gcThrough
        let l' := { l with entries := l.entries.delAll dead }
        (some (if nextLow > lowWater then
          { l' with lowWater := l'.lowWater.put edgeType nextLow } else l'), dead.length)

/-- Whether a pass stops at its cap. -/
def gcStopsAtCap (l : Changelog) (cap : Nat) (edgeType : EdgeType) (gcThrough : StorageSequence) :
    Bool :=
  match l.lowWater.get edgeType with
  | none => false
  | some lowWater =>
    lowWater ≤ gcThrough &&
      (gcScan cap gcThrough
        (l.entries.scan fun k => k.edgeType = edgeType ∧ lowWater ≤ k.sequence) [] lowWater).2.2

/-- A pass deletes only entries up to the base of its generation. -/
theorem mem_gcScan (es : List (XlogKey × Bool)) (dead : List XlogKey)
    (lastSequence : StorageSequence) (h : x ∈ (gcScan cap gcThrough es dead lastSequence).1) :
    x ∈ dead ∨ x ∈ es.map Prod.fst ∧ x.sequence ≤ gcThrough := by
  induction es generalizing dead lastSequence with
  | nil => exact .inl h
  | cons e es ih =>
    unfold gcScan at h
    split at h
    · exact .inl h
    next hle =>
    have hdead : x ∈ dead ++ [e.1] →
        x ∈ dead ∨ x ∈ (e :: es).map Prod.fst ∧ x.sequence ≤ gcThrough := by
      intro hx
      rcases List.mem_snoc.1 hx with hx | rfl
      · exact .inl hx
      · exact .inr ⟨List.mem_cons_self, Nat.not_lt.1 hle⟩
    dsimp only at h
    split at h
    · exact hdead h
    · rcases ih _ _ h with hx | ⟨hx, hseq⟩
      · exact hdead hx
      · exact .inr ⟨List.mem_cons_of_mem _ hx, hseq⟩

section

variable {l : Changelog}
  (h : l.gcTopologyChangelogTo cap currentEpoch edgeType gcThrough = (some l', deleted))

include h

/-- What a pass over an edge type that writes does to the changelog: a missing low-water mark is
set, or entries not newer than the base go and the mark moves. -/
theorem gcTopologyChangelogTo_spec :
    l.lowWater.get edgeType = none ∧
        l' = { l with lowWater := l.lowWater.put edgeType currentEpoch } ∨
      ∃ lowWater dead nextLow, l.lowWater.get edgeType = some lowWater ∧ lowWater ≤ gcThrough ∧
        (∀ x ∈ dead, x.edgeType = edgeType ∧ x.sequence ≤ gcThrough) ∧
        (l.gcStopsAtCap cap edgeType gcThrough = false → nextLow = saturatingSucc gcThrough) ∧
        l' = { l with
          entries := l.entries.delAll dead
          lowWater := if lowWater < nextLow then l.lowWater.put edgeType nextLow
            else l.lowWater } := by
  unfold gcTopologyChangelogTo at h
  split at h
  · next hnone => cases h; exact .inl ⟨hnone, rfl⟩
  next lowWater hlow =>
  obtain ⟨hle, h⟩ := else_of_ne h nofun
  have hle := Nat.not_lt.1 hle
  have hcap : l.gcStopsAtCap cap edgeType gcThrough = (gcScan cap gcThrough
      (l.entries.scan fun k => k.edgeType = edgeType ∧ lowWater ≤ k.sequence) []
      lowWater).2.2 := by
    rw [gcStopsAtCap, hlow]
    simp [hle]
  have hdead : ∀ x ∈ (gcScan cap gcThrough
      (l.entries.scan fun k => k.edgeType = edgeType ∧ lowWater ≤ k.sequence) []
      lowWater).1, x.edgeType = edgeType ∧ x.sequence ≤ gcThrough := by
    intro x hx
    rcases mem_gcScan _ _ _ hx with hx | ⟨hx, hseq⟩
    · cases hx
    · obtain ⟨⟨x, b⟩, hscan, rfl⟩ := List.mem_map.1 hx
      rw [mem_scan, decide_eq_true_eq] at hscan
      exact ⟨hscan.2.1, hseq⟩
  dsimp only at h
  revert h hcap hdead
  generalize gcScan cap gcThrough
    (l.entries.scan fun k => k.edgeType = edgeType ∧ lowWater ≤ k.sequence) [] lowWater = scan
  obtain ⟨dead, lastSequence, capped⟩ := scan
  intro h hcap hdead
  dsimp only at h hcap hdead
  replace h := rest_of_ne h nofun
  cases h
  refine .inr ⟨lowWater, dead, if capped then lastSequence else saturatingSucc gcThrough,
    hlow, hle, hdead, fun hnot => ?_, ?_⟩
  · rw [← hcap, hnot]
    rfl
  · by_cases hlt : lowWater < if capped = true then lastSequence else saturatingSucc gcThrough
    · rw [if_pos hlt, if_pos hlt]
    · rw [if_neg hlt, if_neg hlt]

/-- A pass leaves the entries it does not delete as they were. -/
theorem get_gcTopologyChangelogTo
    : l'.entries.get x = none ∨ l'.entries.get x = l.entries.get x := by
  rcases gcTopologyChangelogTo_spec h with ⟨-, rfl⟩ | ⟨lowWater, dead, nextLow, -, -, -, -, rfl⟩
  · exact .inr rfl
  rw [get_delAll]
  split
  · exact .inl rfl
  · exact .inr rfl

/-- A pass that does not stop at its cap moves the low-water mark past every entry it deletes, and
never back. -/
theorem gcTopologyChangelogTo_uncapped (uncapped : l.gcStopsAtCap cap edgeType gcThrough = false)
    (hthrough : gcThrough + 1 < u64Bound) :
    (∀ x, l.entries.contains x = true → l'.entries.contains x = true ∨
      ∃ low, l'.lowWater.get x.edgeType = some low ∧ x.sequence < low) ∧
    ∀ ty low, l.lowWater.get ty = some low → ∃ low', l'.lowWater.get ty = some low' ∧
      low ≤ low' := by
  rcases gcTopologyChangelogTo_spec h with
    ⟨hnone, rfl⟩ | ⟨lowWater, dead, nextLow, hlow, hle, hdead, hnext, rfl⟩
  · refine ⟨fun x hx => .inl hx, fun ty low hty => ⟨low, ?_, le_refl low⟩⟩
    rw [get_put_of_ne, hty]
    rintro rfl
    rw [hnone] at hty
    cases hty
  have hnext : nextLow = gcThrough + 1 := (hnext uncapped).trans (saturatingSucc_of_lt hthrough)
  have hset : lowWater < nextLow := hnext ▸ Nat.lt_succ_of_le hle
  simp only [if_pos hset, get_put]
  refine ⟨fun x hx => ?_, fun ty low hty => ?_⟩
  · by_cases hmem : x ∈ dead
    · obtain ⟨hty, hseq⟩ := hdead x hmem
      exact .inr ⟨nextLow, if_pos hty, hnext ▸ Nat.lt_succ_of_le hseq⟩
    · exact .inl (contains_delAll.2 ⟨hmem, hx⟩)
  · by_cases heq : ty = edgeType
    · rw [heq, hlow] at hty
      cases hty
      exact ⟨nextLow, if_pos heq, hset.le⟩
    · exact ⟨low, (if_neg heq).trans hty, le_refl low⟩

end

end Changelog

end HydraDb
