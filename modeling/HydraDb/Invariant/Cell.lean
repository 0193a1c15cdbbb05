import HydraDb.Invariant.Adjacency
import HydraDb.Invariant.Log
import HydraDb.Invariant.Records

/-!
# The invariant of a cell

The invariants of a cell between transactions, put together, and the theorem that a transaction
keeps them: its steps keep the invariants of its draft, and when nothing is owed those of the
draft are those of a cell.
-/

namespace HydraDb

/-- The invariants of a draft, in a transaction that commits at `e` and started on `c₀`. -/
structure DraftOk (g : Regime) (e : StorageSequence) (c₀ : Cell) (d : Draft) : Prop where
  adjacency : AdjacencyOk g e d.cell.topology d.ledger.out d.ledger.inn
  endpoints : EndpointsOk g d.cell d.ledger.lacking
  relationships : RelationshipsOk g d.cell.topology d.cell.relationships d.ledger.uncounted
  logged : Logged g e c₀ d.cell.changelog d.cell.topology

/-- The invariants of a cell in a store whose last commit is `n`. -/
structure CellOk (g : Regime) (n : StorageSequence) (c : Cell) : Prop where
  adjacency : AdjacencyOk g n c.topology (fun _ => 0) (fun _ => 0)
  endpoints : EndpointsOk g c fun _ => False
  relationships : RelationshipsOk g c.topology c.relationships fun _ => 0
  /-- No changelog entry is newer than the last commit. -/
  entries_le : ∀ x, c.changelog.entries.contains x = true → x.sequence ≤ n
  /-- No dirty marker is newer than the last commit. -/
  dirty_le : ∀ edgeType sequence, c.changelog.matrixDirty.get edgeType = some sequence →
    sequence ≤ n
  /-- Every edge type with a visible edge has a dirty marker. -/
  catalog : ∀ k : EdgeKey, c.topology.Visible k → c.changelog.matrixDirty.contains k.edgeType = true
  /-- The adjacency generation of a type is its dirty marker. -/
  marked : c.changelog.adjacencyGeneration = c.changelog.matrixDirty
  /-- Before the first commit there is nothing. -/
  fresh : n = 0 → c = .empty

section

variable {g : Regime} {n e : StorageSequence} {c c₀ : Cell}
  {d : Draft}

theorem DraftOk.step (ok : DraftOk g e c₀ d) (h : Step F g e d d') : DraftOk g e c₀ d' where
  adjacency := h.adjacencyOk ok.adjacency
  endpoints := h.endpointsOk ok.adjacency.bounded ok.endpoints
  relationships := h.relationshipsOk ok.relationships
  logged := h.logged ok.adjacency.bounded ok.adjacency.disjoint ok.logged

theorem DraftOk.steps (ok : DraftOk g e c₀ d) (h : Steps F g e d d') : DraftOk g e c₀ d' :=
  h.invariant ok fun hs ok => ok.step hs

theorem Topology.not_visible_empty : ¬ Topology.empty.Visible k := by
  rintro (hd | ⟨s, ds, hs, -⟩)
  · cases hd
  · cases hs

/-- A cell that no key was written to, at any sequence. -/
theorem CellOk.empty (g : Regime) (n : StorageSequence) : CellOk g n .empty where
  adjacency :=
    { bounded := ⟨nofun, nofun⟩
      noSegments := fun _ _ => rfl
      mirror := fun k => ⟨nofun, fun hk => (by cases hk.2)⟩
      disjoint := nofun
      outDegree := fun _ _ => rfl
      inDegree := fun _ _ => rfl }
  endpoints := fun _ _ k _ hv => absurd hv Topology.not_visible_empty
  relationships :=
    { id_of_record := nofun
      record_of_id := nofun
      count := fun _ => rfl
      canonical := nofun
      index := fun _ p => ⟨nofun, fun ⟨_, hp, _⟩ => (by cases hp)⟩
      visible := nofun }
  entries_le := nofun
  dirty_le := nofun
  catalog := fun k hv => absurd hv Topology.not_visible_empty
  marked := rfl
  fresh := fun _ => rfl

section

variable (ok : CellOk g n c)

include ok

/-- The commits of other cells do not matter. -/
theorem CellOk.mono (hn : n ≤ e) : CellOk g e c :=
  { ok with
    adjacency := { ok.adjacency with bounded := ok.adjacency.bounded.mono hn }
    entries_le x hx := (ok.entries_le x hx).trans hn
    dirty_le ty s hs := (ok.dirty_le ty s hs).trans hn
    fresh he := ok.fresh (Nat.le_zero.1 (he ▸ hn)) }

/-- A transaction starts with a draft in order. -/
theorem CellOk.draft : DraftOk g (n + 1) c ⟨c, .zero⟩ :=
  { ok with
    adjacency := { ok.adjacency with bounded := ok.adjacency.bounded.mono (Nat.le_succ n) }
    logged := Logged.start fun k => by
      cases hk : c.changelog.entries.get (k.entry (n + 1)) with
      | none => rfl
      | some =>
        exact absurd (ok.entries_le _ (OrdMap.contains_of_get hk)) (Nat.not_succ_le_self n) }

theorem CellOk.steps (h : Steps F g (n + 1) ⟨c, .zero⟩ d) : DraftOk g (n + 1) c d :=
  ok.draft.steps h

/-- What a transaction commits is logged. -/
theorem CellOk.logged (h : Committed F g (n + 1) c c') :
    Logged g (n + 1) c c'.changelog c'.topology :=
  (ok.steps h).logged

/-- A transaction keeps the invariants of its cell. -/
theorem CellOk.commit (h : Committed F g (n + 1) c c') : CellOk g (n + 1) c' := by
  have draft := ok.steps h
  have logged : Logged g (n + 1) c c'.changelog c'.topology := draft.logged
  refine ⟨draft.adjacency, draft.endpoints, draft.relationships, ?_, ?_, ?_,
    logged.marked ok.marked, fun h => absurd h (Nat.succ_ne_zero n)⟩
  · intro x hx
    by_cases hseq : x.sequence = n + 1
    · exact hseq.le
    · rw [OrdMap.contains_iff, logged.older x hseq] at hx
      exact (ok.entries_le x hx).trans (Nat.le_succ n)
  · intro ty s hdirty
    rcases logged.dirty ty with hd | hd
    · exact (ok.dirty_le ty s (hd ▸ hdirty)).trans (Nat.le_succ n)
    · rw [hd] at hdirty
      exact (Option.some.inj hdirty).symm.le
  · intro k hv
    rcases logged.dirtied k with hsame | hd
    · rcases logged.dirty k.edgeType with hd | hd
      · rw [OrdMap.contains_iff, hd]
        exact ok.catalog k (hsame.1 hv)
      · exact OrdMap.contains_of_get hd
    · exact OrdMap.contains_of_get hd

end

end

end HydraDb
