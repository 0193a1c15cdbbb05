import HydraDb.Invariant.Draft

/-!
# The changelog invariant

Every change of visibility that a transaction makes is logged at its commit: an edge that is
visible after the transaction and was not before, or the other way round, has an entry at the
commit's sequence, and an entry at that sequence says whether its edge is visible. Entries at other
sequences are left alone, and a low-water mark is only ever set where there was none.
-/

namespace HydraDb

/-- The changelog key of an edge at a sequence. -/
def EdgeKey.entry (k : EdgeKey) (sequence : StorageSequence) : XlogKey :=
  ⟨k.edgeType, sequence, k.src, k.dst⟩

theorem EdgeKey.entry_inj {k' : EdgeKey} : k.entry e = k'.entry e ↔ k = k' := by
  obtain ⟨_, _, _⟩ := k
  obtain ⟨_, _, _⟩ := k'
  simp [entry]

/-- The changelog `l` of a transaction that commits at `e`, started on `c₀` and has brought the
adjacency to `t`. -/
structure Logged (g : Regime) (e : StorageSequence) (c₀ : Cell) (l : Changelog) (t : Topology) :
    Prop where
  /-- Entries at other sequences are as they were. -/
  older : ∀ x : XlogKey, x.sequence ≠ e → l.entries.get x = c₀.changelog.entries.get x
  /-- An entry of this commit says what is visible. -/
  agrees : g.trusted = true → ∀ k : EdgeKey, ∀ b, l.entries.get (k.entry e) = some b →
    (b = true ↔ t.Visible k)
  /-- An edge whose visibility changed has an entry. -/
  logged : ∀ k : EdgeKey, (t.Visible k ↔ c₀.topology.Visible k) ∨
    l.entries.contains (k.entry e) = true
  /-- Low-water marks stay, or are set where there was none. -/
  floor : ∀ edgeType, l.lowWater.get edgeType = c₀.changelog.lowWater.get edgeType ∨
    c₀.changelog.lowWater.get edgeType = none ∧ l.lowWater.get edgeType = some e
  /-- Dirty markers stay, or name this commit. -/
  dirty : ∀ edgeType, l.matrixDirty.get edgeType = c₀.changelog.matrixDirty.get edgeType ∨
    l.matrixDirty.get edgeType = some e
  /-- The dirty marker of a change names this commit. -/
  dirtied : ∀ k : EdgeKey, (t.Visible k ↔ c₀.topology.Visible k) ∨
    l.matrixDirty.get k.edgeType = some e
  /-- The adjacency generation of a type is written with its dirty marker. -/
  marked : c₀.changelog.adjacencyGeneration = c₀.changelog.matrixDirty →
    l.adjacencyGeneration = l.matrixDirty

namespace Logged

variable {g : Regime} {e : StorageSequence} {c₀ : Cell} {l : Changelog} {t : Topology}

/-- Before its first write a transaction has logged nothing. -/
theorem start (h : ∀ k : EdgeKey, c.changelog.entries.get (k.entry e) = none) :
    Logged g e c c.changelog c.topology where
  older _ _ := rfl
  agrees _ k b hb := by rw [h] at hb; cases hb
  logged _ := .inl Iff.rfl
  floor _ := .inl rfl
  dirty _ := .inl rfl
  dirtied _ := .inl Iff.rfl
  marked := id

/-- A write that changes no visibility needs no entry. -/
theorem topology (h : Logged g e c₀ l t) (same : ∀ k, t'.Visible k ↔ t.Visible k) :
    Logged g e c₀ l t' :=
  { h with
    agrees ht k b hb := (h.agrees ht k b hb).trans (same k).symm
    logged k := (h.logged k).imp_left fun hk => (same k).trans hk
    dirtied k := (h.dirtied k).imp_left fun hk => (same k).trans hk }

/-- A change of edges of one type, all to the same existence, with its entries. -/
theorem log (h : Logged g e c₀ l t) (present : Bool) (hp : ∀ x ∈ changes, x.2.2 = present)
    (agree : g.trusted = true → ∀ k : EdgeKey, k.edgeType = edgeType →
      (k.src, k.dst, present) ∈ changes → (present = true ↔ t'.Visible k))
    (covers : ∀ k : EdgeKey, ¬ (k.edgeType = edgeType ∧ (k.src, k.dst, present) ∈ changes) →
      (t'.Visible k ↔ t.Visible k)) :
    Logged g e c₀ (l.markTopologyChange ensured edgeType e changes) t' := by
  have hmem : ∀ k : EdgeKey, k.edgeType = edgeType ∧ (k.src, k.dst, present) ∈ changes →
      (l.entries.putAll (Changelog.entriesAt edgeType e changes)).get (k.entry e) =
        some present := by
    rintro ⟨_, src, dst⟩ ⟨rfl, hk⟩
    refine OrdMap.get_putAll_of_mem (List.mem_map.2 ⟨_, hk, rfl⟩) ?_
    rintro x hx -
    obtain ⟨y, hy, rfl⟩ := List.mem_map.1 hx
    exact hp y hy
  have hnot : ∀ x,
      (∀ k : EdgeKey, k.edgeType = edgeType ∧ (k.src, k.dst, present) ∈ changes → k.entry e ≠ x) →
      (l.entries.putAll (Changelog.entriesAt edgeType e changes)).get x = l.entries.get x := by
    intro x hx
    refine OrdMap.get_putAll_of_notMem fun y hy => ?_
    obtain ⟨⟨src, dst, b⟩, hz, rfl⟩ := List.mem_map.1 hy
    obtain rfl : b = present := hp _ hz
    exact hx ⟨edgeType, src, dst⟩ ⟨rfl, hz⟩
  have hentry : ∀ k : EdgeKey, ¬ (k.edgeType = edgeType ∧ (k.src, k.dst, present) ∈ changes) →
      (l.entries.putAll (Changelog.entriesAt edgeType e changes)).get (k.entry e) =
        l.entries.get (k.entry e) := fun k hk =>
    hnot _ fun k' hk' heq => hk (EdgeKey.entry_inj.1 heq ▸ hk')
  refine ⟨?_, ?_, ?_, ?_, ?_, ?_, fun hmarked => ?_⟩
  · intro x hx
    rw [Changelog.entries_markTopologyChange, hnot, h.older x hx]
    rintro k - rfl
    exact hx rfl
  · intro ht k b hb
    rw [Changelog.entries_markTopologyChange] at hb
    by_cases hk : k.edgeType = edgeType ∧ (k.src, k.dst, present) ∈ changes
    · rw [hmem k hk] at hb
      cases hb
      exact agree ht k hk.1 hk.2
    · rw [hentry k hk] at hb
      exact (h.agrees ht k b hb).trans (covers k hk).symm
  · intro k
    rw [Changelog.entries_markTopologyChange, OrdMap.contains_iff]
    by_cases hk : k.edgeType = edgeType ∧ (k.src, k.dst, present) ∈ changes
    · exact .inr (by rw [hmem k hk]; rfl)
    · rw [hentry k hk]
      exact (h.logged k).imp_left fun hv => (covers k hk).trans hv
  · intro ty
    rcases l.lowWater_markTopologyChange ensured edgeType e changes with hl | ⟨hl, hl'⟩
    · rw [hl]; exact h.floor ty
    · rcases h.floor ty with hf | ⟨hf, hf'⟩
      · exact .inr ⟨hf ▸ hl, hl'⟩
      · exact .inr ⟨hf, hl'⟩
  · intro ty
    rw [Changelog.matrixDirty_markTopologyChange, OrdMap.get_put]
    split
    · exact .inr rfl
    · exact h.dirty ty
  · intro k
    rw [Changelog.matrixDirty_markTopologyChange, OrdMap.get_put]
    split
    · exact .inr rfl
    · next hne =>
      exact (h.dirtied k).imp_left fun hv => (covers k fun hk => hne hk.1).trans hv
  · rw [Changelog.matrixDirty_markTopologyChange, Changelog.adjacencyGeneration_markTopologyChange,
      h.marked hmarked]

/-- A change of one edge with its entry. -/
theorem logEdge (h : Logged g e c₀ l t) (agree : g.trusted = true → (present = true ↔ t'.Visible k))
    (covers : ∀ k', k' ≠ k → (t'.Visible k' ↔ t.Visible k')) :
    Logged g e c₀ (l.markTopologyChange ensured k.edgeType e [(k.src, k.dst, present)]) t' := by
  have hk : ∀ k', k'.edgeType = k.edgeType ∧
      (k'.src, k'.dst, present) ∈ [(k.src, k.dst, present)] ↔ k' = k := by
    intro k'
    obtain ⟨_, _, _⟩ := k
    obtain ⟨_, _, _⟩ := k'
    simp
  refine h.log present (by simp) ?_ ?_
  · intro ht k' hty hk'
    rw [(hk k').1 ⟨hty, hk'⟩]
    exact agree ht
  · intro k' hk'
    exact covers k' fun heq => hk' ((hk k').2 heq)

end Logged

/-- Every write of a transaction keeps the changelog invariant. -/
theorem Step.logged (h : Step F g e d d') (bounded : d.cell.topology.Bounded e)
    (disjoint : g.trusted = true → ∀ k, d.cell.topology.Direct k → ¬ d.cell.topology.SegVisible k)
    (ok : Logged g e c₀ d.cell.changelog d.cell.topology) :
    Logged g e c₀ d'.cell.changelog d'.cell.topology := by
  cases h with
  | insertEdge =>
    refine ok.logEdge (fun _ => iff_of_true rfl (Topology.visible_insertDirect.2 (.inl rfl))) ?_
    exact fun k' hne => Topology.visible_insertDirect.trans (or_iff_right hne)
  | removeEdge k ensured mirror direct =>
    refine ok.logEdge (fun ht => iff_of_false Bool.false_ne_true fun hv => ?_) ?_
    · exact ((Topology.visible_removeDirect (disjoint ht k direct)).1 hv).1 rfl
    · exact fun k' hne => Topology.visible_removeDirect_of_ne hne
  | hideEdge k ensured hidden =>
    refine ok.logEdge (fun _ => iff_of_false Bool.false_ne_true fun hv => ?_) ?_
    · exact ((Topology.visible_putTombstone bounded hidden).1 hv).1 rfl
    · exact fun k' hne => Topology.visible_putTombstone_of_ne hne
  | appendSegment s ds ensured policy current fresh =>
    refine ok.log true ?_ ?_ ?_
    · intro x hx
      obtain ⟨dst, -, rfl⟩ := List.mem_map.1 hx
      rfl
    · intro _ k' hty hk'
      obtain ⟨dst, hdst, heq⟩ := List.mem_map.1 hk'
      simp only [Prod.mk.injEq] at heq
      refine iff_of_true rfl ((Topology.visible_appendSegment fresh).2 (.inl ⟨hty, ?_, ?_⟩))
      · exact heq.1.symm
      · exact heq.2.1 ▸ hdst
    · intro k' hk'
      refine (Topology.visible_appendSegment fresh).trans (or_iff_right ?_)
      rintro ⟨hty, hsrc, hmem⟩
      exact hk' ⟨hty, List.mem_map.2 ⟨k'.dst, hmem, by rw [hsrc]⟩⟩
  | resegment segments tombstones bounded policy same _ =>
    exact ok.topology fun k => or_congr_right (same k)
  | countOut | countIn => exact ok.topology fun _ => Iff.rfl
  | touch edgeType ensured =>
    change Logged g e c₀ (d.cell.changelog.markTopologyChange ensured edgeType e []) d.cell.topology
    refine ok.log true ?_ ?_ ?_
    · exact nofun
    · exact nofun
    · exact fun _ _ => Iff.rfl
  | putVertex | ensureVertex | deleteVertex | settle | putEdgeMetadata | insertRelationship
  | replaceRelationship | deleteRelationship | countRelationships | putLastId | putMerges
  | putIdempotency => exact ok

end HydraDb
