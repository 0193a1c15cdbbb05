import HydraDb.Index.Kernels
import Mathlib.Data.List.Sort

/-!
# What the kernels answer

Each kernel is related to the walks of its graph (`Walk.between`). The searches that leave out what
they have seen are cases of `Walk.rounds_searched`, and the searches that keep every walk of
`Walk.rounds_window`. The compressed matrix is searched by ordinal: its walks are carried to
vertices along the dictionary (`GraphBlasCsc.WellFormed.between_present`).
-/

namespace HydraDb

open OrdMap List Walk Set

variable {starts : List VertexId} {found : OrdMap VertexId Unit × OrdMap VertexId Unit}
  {hops : UInt8} {α : Type}

/-- A list is a set in ascending order. -/
def Lists (l : List VertexId) (s : Set VertexId) : Prop :=
  l.Pairwise (· < ·) ∧ ∀ v, v ∈ l ↔ v ∈ s

/-- The vertices that are starts. -/
def startSet (starts : List VertexId) : Set VertexId := {v | v ∈ starts}

theorem Lists.set_eq (h : Lists l s) (h' : Lists l s') : s = s' :=
  ext fun v => (h.2 v).symm.trans (h'.2 v)

theorem Lists.unique (h : Lists l s) (h' : Lists l' s) : l = l' :=
  Perm.eq_of_pairwise (fun _ _ _ _ hlt hlt' => absurd hlt' (not_lt_of_gt hlt)) h.1 h'.1
    ((perm_ext_iff_of_nodup (h.1.imp ne_of_lt) (h'.1.imp ne_of_lt)).2
      fun v => (h.2 v).trans (h'.2 v).symm)

/-! ## The adjacency search -/

/-- The members of an ordered set. -/
def members {α : Type} [LinearOrder α] (m : OrdMap α Unit) : Set α := {a | m.contains a = true}

theorem members_addAll [LinearOrder α] {m : OrdMap α Unit} :
    members (m.addAll l) = members m ∪ {a | a ∈ l} := by
  ext a
  rw [members, mem_ofPred_eq, contains_addAll, or_comm]
  rfl

theorem members_empty [LinearOrder α] : members (∅ : OrdMap α Unit) = ∅ :=
  eq_empty_of_forall_notMem nofun

theorem members_starts (starts : List VertexId) : members (addAll ∅ starts) = startSet starts := by
  rw [members_addAll, members_empty, empty_union]
  rfl

/-- What a search in its range adds to its result. -/
theorem members_addAll_if [LinearOrder α] {m : OrdMap α Unit} [Decidable p]
    {new : Set α} (h : ∀ a, a ∈ l ↔ a ∈ new) :
    members (if p then m.addAll l else m) = members m ∪ {a | p ∧ a ∈ new} := by
  split
  · next hp =>
    rw [members_addAll]
    exact congrArg _ (ext fun a => (h a).trans (and_iff_right hp).symm)
  · next hp => exact (union_eq_self_of_subset_right fun _ ha => absurd ha.1 hp).symm

theorem members_of_isEmpty [LinearOrder α] {m : OrdMap α Unit} (h : m.keys.isEmpty = true) :
    members m = ∅ := by
  refine eq_empty_of_forall_notMem fun a ha => ?_
  have hmem := mem_keys_iff_contains.2 ha
  rw [isEmpty_iff.1 h] at hmem
  cases hmem

/-- What a search has found beyond what it knew: the next frontier is new, and what is seen is what
was known or is new. -/
structure Found (known new : VertexId → Prop)
    (found : OrdMap VertexId Unit × OrdMap VertexId Unit) : Prop where
  next : ∀ v, found.2.contains v = true ↔ ¬ known v ∧ new v
  seen : ∀ v, found.1.contains v = true ↔ known v ∨ found.2.contains v = true

theorem Found.visitNeighbor (h : Found known new found)
    : Found known (fun v => new v ∨ v = dst) (visitNeighbor found dst) := by
  unfold HydraDb.visitNeighbor
  split
  · next hseen =>
    refine ⟨fun v => ?_, h.seen⟩
    rw [h.next]
    constructor
    · exact fun ⟨hk, hv⟩ => ⟨hk, .inl hv⟩
    · rintro ⟨hk, hv | rfl⟩
      · exact ⟨hk, hv⟩
      · exact (h.next v).1 (((h.seen v).1 hseen).resolve_left hk)
  · next hseen =>
    have hnew : ¬ known dst := fun hk => hseen ((h.seen dst).2 (.inl hk))
    refine ⟨fun v => ?_, fun v => ?_⟩
    · rw [contains_put, h.next]
      constructor
      · rintro (rfl | ⟨hk, hv⟩)
        · exact ⟨hnew, .inr rfl⟩
        · exact ⟨hk, .inl hv⟩
      · rintro ⟨hk, hv | rfl⟩
        · exact .inr ⟨hk, hv⟩
        · exact .inl rfl
    · rw [contains_put, contains_put, h.seen]
      exact or_left_comm

theorem Found.congr (h : Found known new found)
    (heq : ∀ v, new v ↔ new' v) : Found known new' found :=
  ⟨fun v => (h.next v).trans (and_congr_right fun _ => heq v), h.seen⟩

theorem Found.foldl (l : List VertexId) (h : Found known new found) :
    Found known (fun v => new v ∨ v ∈ l) (l.foldl HydraDb.visitNeighbor found) := by
  induction l generalizing new found with
  | nil => exact h.congr fun v => by simp
  | cons dst l ih =>
    exact (ih h.visitNeighbor).congr fun v => by rw [mem_cons, or_assoc]

/-- One hop of the search over the adjacency map. -/
theorem adjacencyHop_ok (hs : adjacencyHop a s = .ok (s', stop)) :
    Round (next a.HasEdge (members s.frontier) \ members s.seen)
      (next a.HasEdge (members s.frontier) \ members s.seen) (members s.seen)
      (members s'.seen) (members s'.frontier) stop := by
  have hfound := foldl_induction (f := visitSource a) (l := s.frontier.keys)
    (b := ((s.seen, ∅), s.edgeVisits))
    (P := fun done state => Found (fun v => s.seen.contains v = true)
      (fun v => ∃ u ∈ done, a.HasEdge u v) state.1)
    ⟨fun v => by simp, fun v => by simp⟩ ?_
  · rw [adjacencyHop] at hs
    cases hs
    have hfrontier : members (s.frontier.keys.foldl (visitSource a)
        ((s.seen, ∅), s.edgeVisits)).1.2 =
          next a.HasEdge (members s.frontier) \ members s.seen := by
      ext v
      refine (hfound.next v).trans ?_
      rw [and_comm]
      simp only [mem_keys_iff_contains]
      rfl
    rw [← hfrontier]
    exact ⟨ext hfound.seen, fun _ => rfl, members_of_isEmpty⟩
  · intro done src rest state _ ih
    unfold visitSource
    split
    · next hget =>
      refine ih.congr fun v => ?_
      rw [exists_mem_snoc]
      refine (or_iff_left ?_).symm
      rintro ⟨ds, hds, -⟩
      rw [hget] at hds
      cases hds
    · next neighbors hget =>
      refine (ih.foldl neighbors.keys).congr fun v => ?_
      rw [exists_mem_snoc, mem_keys_iff_contains]
      refine or_congr_right ⟨fun hv => ⟨neighbors, hget, hv⟩, ?_⟩
      rintro ⟨ds, hds, hv⟩
      rw [hget] at hds
      cases hds
      exact hv

/-- The search over the adjacency map answers what is within the hops, without the starts. -/
theorem expandRust_lists (h : expandRust a starts hops = .ok r) :
    Lists r.vertices (between a.HasEdge (startSet starts) 1 hops.toNat \ startSet starts) := by
  obtain ⟨s, hs, h⟩ := bind_ok h
  cases h
  have hseen := rounds_searched (fun s => members s.frontier) (fun s => members s.seen)
    (I := fun _ _ => True) hs trivial (members_starts starts) (members_starts starts)
    fun _ _ _ _ _ hbody => ⟨trivial, adjacencyHop_ok hbody⟩
  refine ⟨pairwise_keys.filter _, fun v => ?_⟩
  rw [← between_zero_diff, ← hseen, ← members_starts, mem_filter,
    mem_keys_iff_contains, Bool.not_eq_true', Bool.eq_false_iff]
  rfl

namespace GraphBlasCsc

variable {i : Nat}

/-! ## Ordinals and vertices -/

/-- What the searches need of a matrix. -/
structure WellFormed (csc : GraphBlasCsc) : Prop where
  sorted : csc.vertices.Pairwise (· < ·)
  index_lt : ∀ i ∈ csc.indices, i < csc.vertices.length

theorem wellFormed_of_validate {csc : GraphBlasCsc} (h : csc.validate = .ok ()) :
    csc.WellFormed := by
  unfold validate at h
  split at h; · cases h
  split at h; · cases h
  split at h; · cases h
  split at h; · cases h
  split at h; · cases h
  split at h
  · cases h
  next hfind =>
  obtain ⟨hchain, h⟩ := else_of_ne h nofun
  refine ⟨isChain_iff_pairwise.1 (not_not.1 hchain), fun i hi => ?_⟩
  have hnot := find?_eq_none.1 hfind i hi
  simpa using hnot

/-- An edge of the matrix, as `contains_edge` answers. -/
def Edge (csc : GraphBlasCsc) (src dst : VertexId) : Prop := csc.containsEdge src dst = true

/-- An edge of the matrix, by ordinals. -/
def OrdinalEdge (csc : GraphBlasCsc) (src dst : Nat) : Prop := dst ∈ csc.neighbors src

/-- The vertex at an ordinal of the dictionary. -/
def vertexAt (csc : GraphBlasCsc) (ordinal : Nat) : VertexId := csc.vertices.getD ordinal 0

/-- The starts that the dictionary has. -/
def present (csc : GraphBlasCsc) (starts : List VertexId) : Set VertexId :=
  {v | v ∈ starts ∧ v ∈ csc.vertices}

/-- The starts that the dictionary has, by ordinal. -/
def startOrdinalSet (csc : GraphBlasCsc) (starts : List VertexId) : Set Nat :=
  {i | i < csc.vertices.length ∧ csc.vertexAt i ∈ starts}

/-- The ordinals that walks from the starts lead to. -/
abbrev walked (csc : GraphBlasCsc) (starts : List VertexId) : ℕ → ℕ → Set Nat :=
  between csc.OrdinalEdge (csc.startOrdinalSet starts)

namespace WellFormed

variable {csc : GraphBlasCsc} (wf : csc.WellFormed)

include wf

theorem nodup : csc.vertices.Nodup := wf.sorted.imp ne_of_lt

theorem lt_of_ordinalEdge (h : csc.OrdinalEdge i j) : j < csc.vertices.length :=
  wf.index_lt j (mem_of_mem_drop (mem_of_mem_take h))

theorem vertexAt_inj (hi : i < csc.vertices.length) (hj : j < csc.vertices.length)
    (h : csc.vertexAt i = csc.vertexAt j) : i = j := by
  rw [vertexAt, vertexAt, getD_eq_getElem _ _ hi, getD_eq_getElem _ _ hj] at h
  exact (wf.nodup.getElem_inj_iff).1 h

theorem ordinal_eq_some :
    csc.ordinal v = some i ↔ i < csc.vertices.length ∧ csc.vertexAt i = v := by
  unfold ordinal
  constructor
  · intro h
    obtain ⟨hv, h⟩ := then_of_ne h nofun
    cases h
    have hlt := idxOf_lt_length_of_mem hv
    exact ⟨hlt, by rw [vertexAt, getD_eq_getElem _ _ hlt, getElem_idxOf]⟩
  · rintro ⟨hi, rfl⟩
    rw [vertexAt, getD_eq_getElem _ _ hi, if_pos (getElem_mem hi), wf.nodup.idxOf_getElem i hi]

theorem edge_vertexAt (hi : i < csc.vertices.length) (v : VertexId) :
    csc.Edge (csc.vertexAt i) v ↔ ∃ j, csc.vertexAt j = v ∧ csc.OrdinalEdge i j := by
  have hsrc : csc.ordinal (csc.vertexAt i) = some i := wf.ordinal_eq_some.2 ⟨hi, rfl⟩
  rw [Edge, containsEdge, hsrc]
  constructor
  · intro h
    cases hdst : csc.ordinal v with
    | none =>
      rw [hdst] at h
      cases h
    | some j =>
      rw [hdst] at h
      exact ⟨j, (wf.ordinal_eq_some.1 hdst).2, contains_iff_mem.1 h⟩
  · rintro ⟨j, rfl, hij⟩
    rw [wf.ordinal_eq_some.2 ⟨wf.lt_of_ordinalEdge hij, rfl⟩]
    exact contains_iff_mem.2 hij

/-- The starts that the dictionary has. -/
theorem mem_filterMap_ordinal :
    i ∈ starts.filterMap csc.ordinal ↔ i < csc.vertices.length ∧ csc.vertexAt i ∈ starts := by
  rw [mem_filterMap]
  constructor
  · rintro ⟨v, hv, hi⟩
    obtain ⟨hlt, rfl⟩ := wf.ordinal_eq_some.1 hi
    exact ⟨hlt, hv⟩
  · rintro ⟨hlt, hv⟩
    exact ⟨_, hv, wf.ordinal_eq_some.2 ⟨hlt, rfl⟩⟩

/-- Walks from the starts that the dictionary has are walks from their ordinals. -/
theorem between_present (starts : List VertexId) (m n : ℕ) :
    between csc.Edge (csc.present starts) m n = csc.vertexAt '' csc.walked starts m n ∧
      csc.walked starts m n ⊆ {i | i < csc.vertices.length} := by
  have himage : csc.present starts = csc.vertexAt '' csc.startOrdinalSet starts := by
    ext v
    constructor
    · rintro ⟨hv, hmem⟩
      obtain ⟨hlt, hat⟩ := wf.ordinal_eq_some.1 (if_pos hmem : csc.ordinal v = _)
      exact ⟨_, ⟨hlt, hat.symm ▸ hv⟩, hat⟩
    rintro ⟨i, ⟨hlt, hi⟩, rfl⟩
    refine ⟨hi, ?_⟩
    rw [vertexAt, getD_eq_getElem _ _ hlt]
    exact getElem_mem hlt
  rw [himage]
  exact between_image (fun i hi => hi.1) (fun i _ j hij => wf.lt_of_ordinalEdge hij)
    fun i hi => wf.edge_vertexAt hi

omit wf in
/-- Walks of at least one step start at vertices that the dictionary has. -/
theorem between_startSet (hm : 1 ≤ m) :
    between csc.Edge (startSet starts) m n = between csc.Edge (csc.present starts) m n := by
  refine between_of_stuck (fun v hv => hv.1) (fun v hv hnot w hedge => hnot ⟨hv, ?_⟩) hm
  by_contra habsent
  rw [Edge, containsEdge, ordinal, if_neg habsent] at hedge
  cases hedge

end WellFormed

/-! ## The search over the compressed matrix -/

/-- The destinations found in a hop: those that are not hidden, each marked with the hop. -/
structure Marked (hidden : Nat → Bool) (marker : Nat) (new : Nat → Prop)
    (state : List Nat × OrdMap Nat Nat) : Prop where
  mem : ∀ x, x ∈ state.1 ↔ new x ∧ hidden x = false
  mark : ∀ x, state.2.get x = some marker ↔ x ∈ state.1
  le : ∀ x m, state.2.get x = some m → m ≤ marker

section

variable {csc : GraphBlasCsc} {hidden : Nat → Bool} {marker : Nat} {new : Nat → Prop}
  {state : List Nat × OrdMap Nat Nat}

variable {l : List Nat} {s : Search}

theorem Marked.congr (h : Marked hidden marker new state)
    (heq : ∀ x, new x ↔ new' x) : Marked hidden marker new' state :=
  ⟨fun x => (h.mem x).trans (and_congr_left fun _ => heq x), h.mark, h.le⟩

theorem Marked.visit (h : Marked hidden marker new state) (pos : 0 < marker)
    (hdst : dst < csc.vertices.length) :
    Marked hidden marker (fun x => new x ∨ x = dst) (csc.visit hidden marker state dst) := by
  unfold GraphBlasCsc.visit
  split
  · next hskip =>
    refine ⟨fun x => ?_, h.mark, h.le⟩
    rw [h.mem]
    refine and_congr_left fun hx => (or_iff_left_of_imp ?_).symm
    rintro rfl
    rcases hskip with hle | hhidden | hmarked
    · exact absurd hle (Nat.not_le.2 hdst)
    · rw [hx] at hhidden
      cases hhidden
    cases hget : state.2.get x with
    | none =>
      rw [hget] at hmarked
      exact absurd hmarked pos.ne
    | some =>
      rw [hget, Option.getD_some] at hmarked
      exact ((h.mem x).1 ((h.mark x).1 (hmarked ▸ hget))).1
  · next hnew =>
    simp only [not_or, Bool.not_eq_true] at hnew
    refine ⟨fun x => ?_, fun x => ?_, forall_get_put h.le le_rfl⟩
    · rw [mem_snoc, h.mem]
      constructor
      · rintro (⟨hx, hh⟩ | rfl)
        · exact ⟨.inl hx, hh⟩
        · exact ⟨.inr rfl, hnew.2.1⟩
      · rintro ⟨hx | rfl, hh⟩
        · exact .inl ⟨hx, hh⟩
        · exact .inr rfl
    · rw [get_put, mem_snoc, ← h.mark]
      split
      · next heq => simp [heq]
      · next hne => simp [hne]

/-- What a hop finds. -/
theorem visitFrontier_ok (hidden : Nat → Bool) (wf : csc.WellFormed) (pos : 0 < marker)
    (fresh : ∀ x m, s.nextSeen.get x = some m → m < marker) :
    Marked hidden marker (fun x => ∃ src ∈ s.frontier, csc.OrdinalEdge src x)
      (csc.visitFrontier hidden marker s).1 := by
  refine foldl_induction (P := fun done (state : (List Nat × OrdMap Nat Nat) × Nat) =>
    Marked hidden marker (fun x => ∃ src ∈ done, csc.OrdinalEdge src x) state.1)
    ⟨fun x => by simp, fun x => ?_, fun x m hm => (fresh x m hm).le⟩ ?_
  · constructor
    · exact fun hm => absurd (fresh x marker hm) (lt_irrefl _)
    · exact nofun
  intro done src rest state _ ih
  have hrow := foldl_induction (l := csc.neighbors src)
    (P := fun row state => Marked hidden marker
      (fun x => (∃ src ∈ done, csc.OrdinalEdge src x) ∨ x ∈ row) state)
    (ih.congr fun x => by simp) fun row dst _ state hsplit hstate => by
      have hdst : csc.OrdinalEdge src dst := by
        rw [OrdinalEdge, ← hsplit]
        simp
      refine (hstate.visit pos (wf.lt_of_ordinalEdge hdst)).congr fun x => ?_
      rw [mem_snoc, or_assoc]
  refine hrow.congr fun x => ?_
  rw [exists_mem_snoc]
  rfl

/-- The vertices at the ordinals of a set. -/
theorem lists_zipIdx (wf : csc.WellFormed) (p : Nat → Prop) [DecidablePred p] :
    Lists (csc.vertices.zipIdx.filterMap fun x => if p x.2 then some x.1 else none)
      (csc.vertexAt '' {i | i < csc.vertices.length ∧ p i}) := by
  rw [filterMap_ite]
  constructor
  · refine Pairwise.sublist (filter_sublist.map Prod.fst) ?_
    rw [zipIdx_map_fst]
    exact wf.sorted
  intro v
  rw [mem_map]
  constructor
  · rintro ⟨⟨w, i⟩, hmem, rfl⟩
    obtain ⟨hmem, hp⟩ := mem_filter.1 hmem
    obtain ⟨hi, hw⟩ := mem_zipIdx' hmem
    refine ⟨i, ⟨hi, of_decide_eq_true hp⟩, ?_⟩
    rw [vertexAt, getD_eq_getElem _ _ hi]
    exact hw.symm
  · rintro ⟨i, ⟨hi, hp⟩, rfl⟩
    refine ⟨(csc.vertexAt i, i), mem_filter.2 ⟨?_, decide_eq_true hp⟩, rfl⟩
    rw [mem_zipIdx_iff_getElem?, getElem?_eq_getElem hi, vertexAt, getD_eq_getElem _ _ hi]

/-- A search with no start that the dictionary has finds nothing. -/
theorem between_present_eq_empty (wf : csc.WellFormed)
    (h : csc.vertices.isEmpty = true ∨ starts.isEmpty = true ∨
      (starts.filterMap csc.ordinal).isEmpty = true) :
    between csc.Edge (csc.present starts) m n = ∅ := by
  have hempty : csc.startOrdinalSet starts = ∅ := by
    refine eq_empty_of_forall_notMem fun i hi => ?_
    rcases h with h | h | h
    · rw [startOrdinalSet, isEmpty_iff.1 h] at hi
      exact absurd hi.1 (Nat.not_lt_zero i)
    · rw [startOrdinalSet, isEmpty_iff.1 h] at hi
      exact absurd hi.2 not_mem_nil
    · have hmem := wf.mem_filterMap_ordinal.2 hi
      rw [isEmpty_iff.1 h] at hmem
      cases hmem
  rw [(wf.between_present starts m n).1, walked, hempty, between_empty, image_empty]

/-- What is found by ordinal and is no start, by vertex. -/
theorem image_between_diff (wf : csc.WellFormed) :
    csc.vertexAt '' (csc.walked starts 0 n \ csc.startOrdinalSet starts) =
      between csc.Edge (startSet starts) 1 n \ startSet starts := by
  obtain ⟨himage, hsub⟩ := wf.between_present starts 1 n
  rw [between_zero_diff, WellFormed.between_startSet (le_refl 1), himage]
  ext v
  constructor
  · rintro ⟨i, ⟨hi, hnot⟩, rfl⟩
    exact ⟨⟨i, hi, rfl⟩, fun hv => hnot ⟨hsub hi, hv⟩⟩
  · rintro ⟨⟨i, hi, rfl⟩, hnot⟩
    exact ⟨i, ⟨hi, fun hv => hnot hv.2⟩, rfl⟩

theorem lists_nil {s : Set VertexId} (h : s = ∅) : Lists [] s :=
  ⟨.nil, fun v => ⟨nofun, fun hv => absurd (h ▸ hv) (notMem_empty v)⟩⟩

theorem members_startOrdinals (wf : csc.WellFormed) (starts : List VertexId)
    (hl : ∀ i, i ∈ l ↔ i ∈ starts.filterMap csc.ordinal) :
    members (addAll ∅ l) = csc.startOrdinalSet starts := by
  rw [members_addAll, members_empty, empty_union]
  ext i
  exact (hl i).trans wf.mem_filterMap_ordinal

/-- A search either has a start to search from, or nothing to find. -/
theorem searchUnless_ok (wf : csc.WellFormed)
    (hordinals : ∀ i, i ∈ ordinals ↔ i ∈ starts.filterMap csc.ordinal)
    (h : csc.searchUnless noHops starts backend ordinals search = .ok r)
    (hhops : noHops = true → n < m) :
    search = .ok r ∨ r.vertices = [] ∧ between csc.Edge (csc.present starts) m n = ∅ := by
  unfold searchUnless at h
  split at h
  · next hnone =>
    cases h
    refine .inr ⟨rfl, ?_⟩
    rcases hnone with hnone | hnone
    · exact between_eq_empty (hhops hnone)
    · exact between_present_eq_empty wf (hnone.imp_right .inl)
  · split at h
    · next hnone =>
      cases h
      refine .inr ⟨rfl, between_present_eq_empty wf (.inr (.inr ?_))⟩
      rw [List.isEmpty_iff, List.eq_nil_iff_forall_not_mem]
      intro i hi
      have hmem := (hordinals i).2 hi
      rw [isEmpty_iff.1 hnone] at hmem
      cases hmem
    · exact .inl h

theorem mem_startOrdinals (starts : List VertexId) (i : Nat) :
    i ∈ csc.startOrdinals starts ↔ i ∈ starts.filterMap csc.ordinal := mem_sortDedup

theorem toNat_lt_one_of_beq (h : (hops == 0) = true) : hops.toNat < 1 := by
  rw [eq_of_beq h]
  decide

theorem toNat_lt_of_decide {b : UInt8} (h : decide (a < b) = true) : a.toNat < b.toNat :=
  UInt8.lt_iff_toNat_lt.1 (of_decide_eq_true h)

section

variable (wf : csc.WellFormed) {minHops maxHops : UInt8}

include wf

/-- One hop of `expand`. -/
theorem expandHop_ok (fresh : ∀ x m, s.nextSeen.get x = some m → m ≤ depth)
    (h : csc.expandHop (depth + 1) s = .ok (s', stop)) :
    (∀ x m, s'.nextSeen.get x = some m → m ≤ depth + 1) ∧
      Round (next csc.OrdinalEdge {i | i ∈ s.frontier} \ members s.result)
        (next csc.OrdinalEdge {i | i ∈ s.frontier} \ members s.result) (members s.result)
        (members s'.result) {i | i ∈ s'.frontier} stop := by
  have hmarked := visitFrontier_ok s.result.contains wf (Nat.succ_pos depth)
    fun x m hm => Nat.lt_succ_of_le (fresh x m hm)
  have hnext : {i | i ∈ (csc.visitFrontier s.result.contains (depth + 1) s).1.1} =
      next csc.OrdinalEdge {i | i ∈ s.frontier} \ members s.result := by
    ext x
    refine (hmarked.mem x).trans (and_congr Iff.rfl ?_)
    rw [Bool.eq_false_iff]
    rfl
  rw [← hnext]
  unfold expandHop at h
  dsimp only at h
  split at h
  · next hempty =>
    cases h
    rw [isEmpty_iff.1 hempty]
    exact ⟨hmarked.le, by simp, nofun, fun _ => by simp⟩
  · cases h
    exact ⟨hmarked.le, members_addAll, fun _ => rfl, nofun⟩

/-- The result of the search, by ordinal. -/
theorem rounds_expandHop {hops : ℕ}
    (hs : rounds csc.expandHop hops 0 ⟨csc.startOrdinals starts, ∅,
      addAll ∅ (csc.startOrdinals starts), 0⟩ = .ok s) :
    members s.result = csc.walked starts 0 hops :=
  rounds_searched (fun s => {i | i ∈ s.frontier}) (fun s => members s.result)
    (I := fun k (s : Search) => ∀ x m, s.nextSeen.get x = some m → m ≤ k) hs nofun
    (ext fun i => (mem_startOrdinals starts i).trans wf.mem_filterMap_ordinal)
    (members_startOrdinals wf starts (mem_startOrdinals starts))
    fun _ _ _ _ fresh hbody => expandHop_ok wf fresh hbody

/-- The search over the matrix answers what is within the hops, without the starts. -/
theorem expand_lists (h : csc.expand starts hops = .ok r) :
    Lists r.vertices (between csc.Edge (startSet starts) 1 hops.toNat \ startSet starts) := by
  rcases searchUnless_ok wf (mem_startOrdinals starts) h toNat_lt_one_of_beq with h | ⟨hnil, hempty⟩
  · obtain ⟨s, hs, h⟩ := bind_ok h
    cases h
    have hresult := rounds_expandHop wf hs
    have hset : {i | i < csc.vertices.length ∧
        (s.result.contains i = true ∧ i ∉ csc.startOrdinals starts)} =
          csc.walked starts 0 hops.toNat \ csc.startOrdinalSet starts := by
      rw [← hresult]
      ext i
      have hstart := (mem_startOrdinals starts i).trans wf.mem_filterMap_ordinal
      refine ⟨fun hi => ⟨hi.2.1, fun hmem => hi.2.2 (hstart.2 hmem)⟩, fun hi => ⟨?_, hi.1, ?_⟩⟩
      · exact (wf.between_present starts 0 hops.toNat).2 (hresult ▸ hi.1)
      · exact fun hmem => hi.2 (hstart.1 hmem)
    have hlists := lists_zipIdx wf fun i =>
      s.result.contains i = true ∧ i ∉ csc.startOrdinals starts
    rwa [hset, image_between_diff wf] at hlists
  · rw [hnil, WellFormed.between_startSet (le_refl 1), hempty, empty_sdiff]
    exact lists_nil rfl

/-- One hop of `expand_range_bitmap`. -/
theorem expandRangeHop_ok {minHops : Nat} (fresh : ∀ x m, s.nextSeen.get x = some m → m ≤ depth)
    (h : csc.expandRangeHop minHops (depth + 1) s = .ok (s', stop)) :
    (∀ x m, s'.nextSeen.get x = some m → m ≤ depth + 1) ∧
      Round (next csc.OrdinalEdge {i | i ∈ s.frontier})
        {i | minHops ≤ depth + 1 ∧ i ∈ next csc.OrdinalEdge {i | i ∈ s.frontier}}
        (members s.result) (members s'.result) {i | i ∈ s'.frontier} stop := by
  have hmarked := visitFrontier_ok (fun _ => false) wf (Nat.succ_pos depth)
    fun x m hm => Nat.lt_succ_of_le (fresh x m hm)
  have hnext : ∀ i, i ∈ (csc.visitFrontier (fun _ => false) (depth + 1) s).1.1 ↔
      i ∈ next csc.OrdinalEdge {i | i ∈ s.frontier} :=
    fun i => (hmarked.mem i).trans (and_iff_left rfl)
  unfold expandRangeHop at h
  dsimp only at h
  split at h
  · next hempty =>
    cases h
    refine ⟨hmarked.le, members_addAll_if hnext, nofun, fun _ => ?_⟩
    refine eq_empty_of_forall_notMem fun i hi => ?_
    rw [← hnext, isEmpty_iff.1 hempty] at hi
    cases hi
  · cases h
    exact ⟨hmarked.le, members_addAll_if hnext, fun _ => ext hnext, nofun⟩

/-- The start of a search that keeps every walk. -/
theorem members_startResult (hl : ∀ i, i ∈ l ↔ i ∈ starts.filterMap csc.ordinal) (minHops : UInt8) :
    members (if minHops = 0 then addAll ∅ l else ∅) = csc.walked starts minHops.toNat 0 := by
  split
  · next hzero =>
    rw [members_startOrdinals wf starts hl, hzero]
    exact (window_self (L := layer csc.OrdinalEdge _) (n := 0)).symm
  · next hzero =>
    rw [members_empty, walked, between_eq_empty]
    exact Nat.pos_of_ne_zero fun h => hzero (UInt8.toNat_inj.1 h)

/-- The result of the search that keeps every walk, by ordinal. -/
theorem rounds_expandRangeHop
    (hs : rounds (csc.expandRangeHop minHops.toNat) maxHops.toNat 0
      ⟨csc.startOrdinals starts, ∅,
        if minHops = 0 then addAll ∅ (csc.startOrdinals starts) else ∅, 0⟩ = .ok s) :
    members s.result = csc.walked starts minHops.toNat maxHops.toNat := by
  refine rounds_window (fun s => {i | i ∈ s.frontier}) (fun s => members s.result)
    (I := fun k (s : Search) => ∀ x m, s.nextSeen.get x = some m → m ≤ k)
    layer_eq_empty hs nofun
    (ext fun i => (mem_startOrdinals starts i).trans wf.mem_filterMap_ordinal)
    (members_startResult wf (mem_startOrdinals starts) minHops) ?_
  intro k s s' stop fresh hfrontier hbody
  rw [layer, ← hfrontier]
  exact expandRangeHop_ok wf fresh hbody

/-- The search that keeps every walk answers what the walks of a length in the range lead to. -/
theorem expandRange_present (h : csc.expandRange starts minHops maxHops = .ok r) :
    Lists r.vertices (between csc.Edge (csc.present starts) minHops.toNat maxHops.toNat) := by
  rcases searchUnless_ok wf (mem_startOrdinals starts) h toNat_lt_of_decide with h | ⟨hnil, hempty⟩
  · obtain ⟨s, hs, h⟩ := bind_ok h
    cases h
    have hresult := rounds_expandRangeHop wf hs
    obtain ⟨himage, hsub⟩ := wf.between_present starts minHops.toNat maxHops.toNat
    have hset : {i | i < csc.vertices.length ∧ s.result.contains i = true} =
        csc.walked starts minHops.toNat maxHops.toNat := by
      rw [← hresult]
      exact ext fun i => and_iff_right_of_imp fun hi => hsub (hresult ▸ hi)
    have hlists := lists_zipIdx wf fun i => s.result.contains i = true
    rwa [hset, ← himage] at hlists
  · rw [hnil]
    exact lists_nil hempty

end

/-! ## SuiteSparse -/

/-- What the GraphBLAS standard says of a product: its entries are the destinations of the vector's
entries, without those in the mask. -/
def Mxv.Standard (mxv : Mxv) : Prop :=
  ∀ csc mask input dst, csc.WellFormed →
    ((mxv csc mask input).contains dst = true ↔
      (∃ src, input.contains src = true ∧ dst ∈ csc.neighbors src) ∧
        ∀ m, mask = some m → ¬ m.contains dst = true)

/-- The vertices at a list of ordinals, in ascending order. -/
theorem lists_mapM_vertex (wf : csc.WellFormed) (nodup : l.Nodup) {vertices : List VertexId}
    (h : l.mapM csc.vertex = .ok vertices) :
    Lists vertices.mergeSort (csc.vertexAt '' {i | i ∈ l}) := by
  have hvertex : ∀ i v, csc.vertex i = .ok v → i < csc.vertices.length ∧ csc.vertexAt i = v := by
    intro i v hv
    rw [vertex] at hv
    split at hv
    · next w hw =>
      cases hv
      obtain ⟨hlt, hw⟩ := List.getElem?_eq_some_iff.1 hw
      exact ⟨hlt, by rw [vertexAt, getD_eq_getElem _ _ hlt, hw]⟩
    · cases hv
  have hall : ∀ {l : List Nat} {vertices : List VertexId},
      Forall₂ (fun i v => csc.vertex i = .ok v) l vertices →
      vertices = l.map csc.vertexAt ∧ ∀ i ∈ l, i < csc.vertices.length := by
    intro l vertices h
    induction h with
    | nil => exact ⟨rfl, nofun⟩
    | cons hv _ ih =>
      obtain ⟨hlt, rfl⟩ := hvertex _ _ hv
      exact ⟨congrArg _ ih.1, forall_mem_cons.2 ⟨hlt, ih.2⟩⟩
  obtain ⟨rfl, hlt⟩ := hall (mapM_ok h)
  have hnodup : (l.map csc.vertexAt).Nodup :=
    Nodup.map_on (fun i hi j hj => wf.vertexAt_inj (hlt i hi) (hlt j hj)) nodup
  have hperm := mergeSort_perm (l.map csc.vertexAt) (fun v w => decide (v ≤ w))
  constructor
  · refine ((pairwise_mergeSort' (· ≤ ·) (l.map csc.vertexAt)).and
      (hperm.nodup_iff.2 hnodup)).imp ?_
    exact fun h => lt_of_le_of_ne h.1 h.2
  · intro v
    rw [hperm.mem_iff, mem_map]
    rfl

variable {s s' : VectorSearch} {mxv : Mxv} (standard : mxv.Standard) (wf : csc.WellFormed)

include standard wf

/-- One product of `expand_with_compiled`. -/
theorem expandCompiledHop_ok (h : csc.expandCompiledHop mxv s = .ok (s', stop)) :
    Round (next csc.OrdinalEdge (members s.frontier) \ members s.result)
      (next csc.OrdinalEdge (members s.frontier) \ members s.result) (members s.result)
      (members s'.result) (members s'.frontier) stop := by
  have hnext : members (mxv csc (some s.result) s.frontier) =
      next csc.OrdinalEdge (members s.frontier) \ members s.result := by
    ext i
    refine (standard csc _ _ i wf).trans (and_congr_right fun _ => ?_)
    exact ⟨fun hi => hi _ rfl, fun hi m hm => Option.some.inj hm ▸ hi⟩
  rw [← hnext]
  unfold expandCompiledHop at h
  dsimp only at h
  split at h
  · next hempty =>
    cases h
    rw [members_of_isEmpty hempty]
    exact ⟨(union_empty _).symm, nofun, fun _ => rfl⟩
  · cases h
    refine ⟨members_addAll.trans (congrArg _ ?_), fun _ => rfl, nofun⟩
    exact ext fun i => mem_keys_iff_contains

/-- The result of the products, by ordinal. -/
theorem rounds_expandCompiledHop {hops : ℕ}
    (hs : rounds (fun _ => csc.expandCompiledHop mxv) hops 0
      ⟨addAll ∅ (starts.filterMap csc.ordinal),
        addAll ∅ (starts.filterMap csc.ordinal), 0⟩ = .ok s) :
    members s.result = csc.walked starts 0 hops :=
  have hstart := members_startOrdinals wf starts fun _ => Iff.rfl
  rounds_searched (fun s => members s.frontier) (fun s => members s.result)
    (I := fun _ _ => True) hs trivial hstart hstart
    fun _ _ _ _ _ hbody => ⟨trivial, expandCompiledHop_ok standard wf hbody⟩

omit standard in
theorem filter_result_expandCompiled {hops : ℕ}
    (hresult : members s.result = csc.walked starts 0 hops) :
    {i | i ∈ s.result.keys.filter (· ∉ starts.filterMap csc.ordinal)} =
      csc.walked starts 0 hops \ csc.startOrdinalSet starts := by
  rw [← hresult]
  ext i
  refine mem_filter.trans (and_congr mem_keys_iff_contains ?_)
  rw [decide_eq_true_eq]
  exact not_congr wf.mem_filterMap_ordinal

/-- The products answer what is within the hops, without the starts. -/
theorem expandCompiled_lists (h : csc.expandCompiled mxv starts hops = .ok r) :
    Lists r.vertices (between csc.Edge (startSet starts) 1 hops.toNat \ startSet starts) := by
  rcases searchUnless_ok wf (fun _ => Iff.rfl) h toNat_lt_one_of_beq with h | ⟨hnil, hempty⟩
  · obtain ⟨s, hs, h⟩ := bind_ok h
    obtain ⟨vertices, hvertices, h⟩ := bind_ok h
    cases h
    have hset := filter_result_expandCompiled wf (rounds_expandCompiledHop standard wf hs)
    have hlists := lists_mapM_vertex wf (nodup_keys.filter _) hvertices
    rwa [hset, image_between_diff wf] at hlists
  · rw [hnil, WellFormed.between_startSet (le_refl 1), hempty, empty_sdiff]
    exact lists_nil rfl

omit standard wf in
theorem searchUnless_isOk (h : ∃ r, search = .ok r) :
    ∃ r, csc.searchUnless noHops starts backend ordinals search = .ok r := by
  unfold searchUnless
  split
  · exact ⟨_, rfl⟩
  · split
    · exact ⟨_, rfl⟩
    · exact h

omit standard wf in
theorem expand_isOk (starts : List VertexId) (hops : UInt8) :
    ∃ r, csc.expand starts hops = .ok r := by
  refine searchUnless_isOk (bind_isOk (rounds_isOk (fun i s => ?_) _ _ _) fun s _ => ⟨_, rfl⟩)
  unfold expandHop
  dsimp only
  split <;> exact ⟨_, rfl⟩

/-- The ordinals that the products find are in the dictionary. -/
theorem expandCompiled_isOk : ∃ r, csc.expandCompiled mxv starts hops = .ok r := by
  refine searchUnless_isOk (bind_isOk (rounds_isOk (fun i s => ?_) _ _ _) fun s hs => ?_)
  · unfold expandCompiledHop
    dsimp only
    split <;> exact ⟨_, rfl⟩
  have hset := filter_result_expandCompiled wf (rounds_expandCompiledHop standard wf hs)
  refine bind_isOk ⟨_, mapM_eq_ok (g := csc.vertexAt) fun i hi => ?_⟩ fun _ _ => ⟨_, rfl⟩
  have hlt : i < csc.vertices.length :=
    (wf.between_present starts 0 hops.toNat).2 (hset.subset hi).1
  rw [vertex, getElem?_eq_getElem hlt, vertexAt, getD_eq_getElem _ _ hlt]

/-- One product of `range_result_vector`. -/
theorem expandRangeCompiledHop_ok
    (h : csc.expandRangeCompiledHop mxv minHops depth s = .ok (s', stop)) :
    Round (next csc.OrdinalEdge (members s.frontier))
      {i | minHops ≤ depth ∧ i ∈ next csc.OrdinalEdge (members s.frontier)}
      (members s.result) (members s'.result) (members s'.frontier) stop := by
  have hnext : members (mxv csc none s.frontier) = next csc.OrdinalEdge (members s.frontier) :=
    ext fun i => (standard csc _ _ i wf).trans (and_iff_left nofun)
  rw [← hnext]
  unfold expandRangeCompiledHop at h
  dsimp only at h
  split at h
  · next hempty =>
    cases h
    exact ⟨members_addAll_if fun _ => mem_keys_iff_contains, nofun,
      fun _ => members_of_isEmpty hempty⟩
  · cases h
    exact ⟨members_addAll_if fun _ => mem_keys_iff_contains, fun _ => rfl, nofun⟩

/-- The products that keep every walk answer what the walks of a length in the range lead to. -/
theorem expandRangeCompiled_present
    (h : csc.expandRangeCompiled mxv starts minHops maxHops = .ok r) :
    Lists r.vertices (between csc.Edge (csc.present starts) minHops.toNat maxHops.toNat) := by
  rcases searchUnless_ok wf (fun _ => Iff.rfl) h toNat_lt_of_decide with h | ⟨hnil, hempty⟩
  · obtain ⟨s, hs, h⟩ := bind_ok h
    obtain ⟨vertices, hvertices, h⟩ := bind_ok h
    cases h
    have hresult : members s.result = csc.walked starts minHops.toNat maxHops.toNat := by
      refine rounds_window (fun s => members s.frontier) (fun s => members s.result)
        (I := fun _ _ => True) layer_eq_empty hs trivial
        (members_startOrdinals wf starts fun _ => Iff.rfl)
        (members_startResult wf (fun _ => Iff.rfl) minHops) ?_
      intro k s s' stop _ hfrontier hbody
      rw [layer, ← hfrontier]
      exact ⟨trivial, expandRangeCompiledHop_ok standard wf hbody⟩
    have hset : {i | i ∈ s.result.keys} = csc.walked starts minHops.toNat maxHops.toNat := by
      rw [← hresult]
      exact ext fun i => mem_keys_iff_contains
    have hlists := lists_mapM_vertex wf nodup_keys hvertices
    rwa [hset, ← (wf.between_present starts minHops.toNat maxHops.toNat).1] at hlists
  · rw [hnil]
    exact lists_nil hempty

end

end GraphBlasCsc

end HydraDb
