import HydraDb.Query.Finish
import Mathlib.Algebra.Order.BigOperators.Group.List
import Mathlib.Data.Multiset.Bind

/-!
# Which rows are merged

`DISTINCT`, grouping and the coordinator's join keep their keys in ordered maps, so each of them
merges two rows exactly when the keys have the same representation. This module compares that with
what `=` says: rows are merged as `=` says exactly when no two of the rows at hand are equal under
`=` and written differently (`1` and `1.0`, a vertex id and an integer property, a count and an
integer). The join gives one multiset whichever side it hashes.
-/

namespace HydraDb

open OrdMap List QueryValue

variable {key : QueryRow → Except GraphError QueryValue} {projections : List RowProjection}
  {left right rows : List QueryRow} {groups : AggregateGroups} {bindings : List BindingRow}
  {binding : BindingRow}

/-! ## One row of each class -/

/-- `kept` is `rows` with one row, the first, kept of each class of `R`. -/
structure OnePerClass {α : Type*} (R : α → α → Prop) (rows kept : List α) : Prop where
  sublist : kept.Sublist rows
  apart : kept.Pairwise fun a b => ¬ R a b
  covers : ∀ a ∈ rows, ∃ b ∈ kept, R a b

/-- A list with one row of each class of `S` has one of each class of a coarser `R` exactly when
`R` does not identify more of the rows than `S` does. -/
theorem OnePerClass.coarser_iff {rows : List α}
    (hR : Equivalence R) (hS : Equivalence S) (hSR : ∀ a b, S a b → R a b)
    (h : OnePerClass S rows kept) :
    OnePerClass R rows kept ↔ ∀ a ∈ rows, ∀ b ∈ rows, R a b → S a b := by
  constructor
  · intro hkept a ha b hb hab
    obtain ⟨a', ha', haa'⟩ := h.covers a ha
    obtain ⟨b', hb', hbb'⟩ := h.covers b hb
    have hab' : R a' b' := hR.trans (hR.symm (hSR _ _ haa')) (hR.trans hab (hSR _ _ hbb'))
    obtain rfl : a' = b' := by
      by_contra hne
      have : Std.Symm fun x y => ¬ R x y := ⟨fun x y hn hyx => hn (hR.symm hyx)⟩
      exact hkept.apart.forall ha' hb' hne hab'
    exact hS.trans haa' (hS.symm hbb')
  · intro hone
    have hmem : ∀ a ∈ kept, a ∈ rows := fun a ha => h.sublist.subset ha
    refine ⟨h.sublist, ?_, fun a ha => ?_⟩
    · exact h.apart.imp_of_mem fun ha hb hn hab => hn (hone _ (hmem _ ha) _ (hmem _ hb) hab)
    · obtain ⟨b, hb, hab⟩ := h.covers a ha
      exact ⟨b, hb, hSR _ _ hab⟩

/-! ## DISTINCT -/

/-- What the `DISTINCT` loop has after the rows `done`. -/
structure DistinctState (done : List ProjectedQueryRow)
    (state : OrdMap QueryRow Unit × List ProjectedQueryRow) : Prop where
  seen : ∀ row, state.1.contains row = true ↔ ∃ p ∈ done, p.row = row
  kept : OnePerClass (fun a b => a.row = b.row) done state.2

theorem DistinctState.step (h : DistinctState done state) :
    DistinctState (done ++ [p]) (distinctStep state p) := by
  obtain ⟨hseen, hsublist, hapart, hcovers⟩ := h
  unfold distinctStep
  split
  · next hold =>
    obtain ⟨q, hq, hqp⟩ := (hseen p.row).1 hold
    refine ⟨fun row => ?_, hsublist.trans (sublist_append_left _ _), hapart, ?_⟩
    · rw [hseen row]
      constructor
      · rintro ⟨q', hq', rfl⟩
        exact ⟨q', mem_append_left _ hq', rfl⟩
      rintro ⟨q', hq', rfl⟩
      rcases mem_snoc.1 hq' with hq' | rfl
      · exact ⟨q', hq', rfl⟩
      · exact ⟨q, hq, hqp⟩
    · obtain ⟨b, hb, hqb⟩ := hcovers q hq
      exact forall_mem_snoc.2 ⟨hcovers, b, hb, hqp.symm.trans hqb⟩
  · next hnew =>
    refine ⟨fun row => ?_, hsublist.append (Sublist.refl _), ?_, ?_⟩
    · rw [contains_put, hseen row]
      rw [exists_mem_snoc]
      rw [or_comm, eq_comm]
    · refine pairwise_append.2 ⟨hapart, pairwise_singleton _ _, ?_⟩
      rintro a ha b hb hab
      obtain rfl := mem_singleton.1 hb
      exact hnew ((hseen _).2 ⟨a, hsublist.subset ha, hab⟩)
    · refine forall_mem_snoc.2 ⟨fun a ha => ?_, p, mem_append_right _ (mem_singleton_self p), rfl⟩
      obtain ⟨b, hb, hab⟩ := hcovers a ha
      exact ⟨b, mem_append_left _ hb, hab⟩

/-- `DISTINCT` keeps the first row of each representation. -/
theorem onePerClass_distinctRows :
    OnePerClass (fun a b => a.row = b.row) projected (distinctRows projected) := by
  have hinit : DistinctState [] (∅, []) :=
    ⟨fun row => by simp [OrdMap.contains, OrdMap.get, EmptyCollection.emptyCollection,
      OrdMap.empty, OrdMap.lookup], .slnil, .nil, by simp⟩
  exact (foldl_induction hinit fun done p rest state _ h => h.step).kept

/-! ## Grouping -/

/-- The binding's group key is related to `key`. -/
def inGroup (R : QueryRow → QueryRow → Bool) (projections : List RowProjection) (key : QueryRow)
    (binding : BindingRow) : Bool :=
  match groupKey projections binding with
  | .ok own => R own key
  | .error _ => false

/-- The groups are the classes of the bindings under `R`: one group of each class, every binding in
one, and its accumulators those of exactly the bindings of the class, in order. -/
structure GroupedBy (R : QueryRow → QueryRow → Bool) (projections : List RowProjection)
    (bindings : List BindingRow) (groups : List (QueryRow × List AggregateAccumulator)) : Prop where
  apart : groups.Pairwise fun a b => ¬ R a.1 b.1
  covers : ∀ b ∈ bindings, ∃ group ∈ groups, inGroup R projections group.1 b = true
  accumulated : ∀ group ∈ groups, ∃ initial, newAccumulators projections = .ok initial ∧
    (bindings.filter (inGroup R projections group.1)).foldlM (applyAggregates projections) initial =
      .ok group.2

/-- Two keys with one representation. -/
def sameKey (a b : QueryRow) : Bool := decide (a = b)

theorem inGroup_sameKey {key : QueryRow} :
    inGroup sameKey projections key binding = true ↔ groupKey projections binding = .ok key := by
  unfold inGroup sameKey
  cases groupKey projections binding <;> simp

/-- What the grouping loop has after the bindings `done`. -/
structure GroupState (projections : List RowProjection) (done : List BindingRow)
    (groups : AggregateGroups) : Prop where
  covers : ∀ b ∈ done, ∃ key, groupKey projections b = .ok key ∧ groups.contains key = true
  member : ∀ key states, groups.get key = some states →
    ∃ b ∈ done, groupKey projections b = .ok key
  accumulated : ∀ key states, groups.get key = some states →
    ∃ initial, newAccumulators projections = .ok initial ∧
      (done.filter (inGroup sameKey projections key)).foldlM (applyAggregates projections) initial =
        .ok states

theorem GroupState.step (h : GroupState projections done groups)
    (hstep : aggregateStep projections groups b = .ok groups') :
    GroupState projections (done ++ [b]) groups' := by
  obtain ⟨key, hkey, hstep⟩ := bind_ok hstep
  obtain ⟨states, hstates, hstep⟩ := bind_ok hstep
  obtain ⟨states', happly, hput⟩ := bind_ok hstep
  cases hput
  have hinitial : ∃ initial, newAccumulators projections = .ok initial ∧
      (done.filter (inGroup sameKey projections key)).foldlM (applyAggregates projections) initial =
        .ok states := by
    unfold groupStates at hstates
    cases hget : groups.get key with
    | some =>
      rw [hget] at hstates
      cases hstates
      exact h.accumulated key states hget
    | none =>
      rw [hget] at hstates
      refine ⟨states, hstates, ?_⟩
      have hnone : done.filter (inGroup sameKey projections key) = [] := by
        refine filter_eq_nil_iff.2 fun b' hb' hin => ?_
        obtain ⟨key', hkey', hcontains⟩ := h.covers b' hb'
        rw [inGroup_sameKey.1 hin] at hkey'
        cases hkey'
        simp [OrdMap.contains, hget] at hcontains
      rw [hnone]
      rfl
  refine ⟨forall_mem_snoc.2 ⟨fun b' hb' => ?_, key, hkey, contains_put.2 (.inl rfl)⟩,
    forall_get_put (fun key' states'' hget => ?_)
      ⟨b, mem_append_right _ (mem_singleton_self b), hkey⟩, fun key' states'' hget => ?_⟩
  · obtain ⟨key', hkey', hcontains⟩ := h.covers b' hb'
    exact ⟨key', hkey', contains_put.2 (.inr hcontains)⟩
  · obtain ⟨b', hb', hkey'⟩ := h.member key' states'' hget
    exact ⟨b', mem_append_left _ hb', hkey'⟩
  rw [get_put] at hget
  split at hget
  · next heq =>
    subst heq
    cases hget
    obtain ⟨initial, hnew, hfold⟩ := hinitial
    refine ⟨initial, hnew, ?_⟩
    rw [filter_append, filter_cons_of_pos (inGroup_sameKey.2 hkey), filter_nil,
      foldlM_append, hfold]
    change applyAggregates projections states b >>= Except.ok = .ok states'
    rw [happly]
    rfl
  · next hne =>
    have hout : ¬ inGroup sameKey projections key' b = true := by
      rw [inGroup_sameKey, hkey]
      exact fun heq => hne (Except.ok.inj heq).symm
    rw [filter_append, filter_cons_of_neg hout, filter_nil, append_nil]
    exact h.accumulated key' states'' hget

/-- The groups of `aggregate_projected_rows` are the classes of equal representations; apart from
the one group of an empty input, every group is that of a binding. -/
theorem groupedBy_aggregateGroups (h : aggregateGroups bindings projections = .ok groups) :
    GroupedBy sameKey projections bindings groups.entries ∧
      (bindings = [] ∧ groups.entries.length ≤ 1 ∨
        ∀ group ∈ groups.entries, ∃ b ∈ bindings, groupKey projections b = .ok group.1) := by
  obtain ⟨initial, hinitial, hfold⟩ := bind_ok h
  have hapart : groups.entries.Pairwise fun a b => ¬ sameKey a.1 b.1 := by
    refine groups.sorted.imp fun hlt => ?_
    simpa [sameKey] using ne_of_lt hlt
  unfold initialGroups at hinitial
  split at hinitial
  · next hempty =>
    obtain ⟨states, hstates, hput⟩ := bind_ok hinitial
    cases hput
    obtain rfl : bindings = [] := by simp_all
    cases hfold
    refine ⟨⟨hapart, by simp, ?_⟩, .inl ⟨rfl, le_of_eq rfl⟩⟩
    rintro group hgroup
    obtain rfl : group = ([], states) := mem_singleton.1 hgroup
    exact ⟨states, hstates, rfl⟩
  · cases hinitial
    have hinit : GroupState projections [] ∅ :=
      ⟨by simp, nofun, nofun⟩
    have hstate := foldlM_ok_induction hfold hinit fun done b rest c c' _ hP hstep => hP.step hstep
    refine ⟨⟨hapart, fun b hb => ?_, fun group hgroup => ?_⟩, .inr fun group hgroup => ?_⟩
    · obtain ⟨key, hkey, hcontains⟩ := hstate.covers b hb
      obtain ⟨states, hget⟩ := Option.isSome_iff_exists.1 hcontains
      exact ⟨(key, states), mem_entries.2 hget, inGroup_sameKey.2 hkey⟩
    · exact hstate.accumulated group.1 group.2 (mem_entries.1 hgroup)
    · exact hstate.member group.1 group.2 (mem_entries.1 hgroup)

/-- No two bindings have keys that are equal under `=` and written differently. -/
def KeysInOneForm (projections : List RowProjection) (bindings : List BindingRow) : Prop :=
  ∀ a ∈ bindings, ∀ b ∈ bindings, ∀ key key',
    groupKey projections a = .ok key → groupKey projections b = .ok key' →
      equalAll key key' = true → key = key'

theorem inGroup_equalAll {key : QueryRow} :
    inGroup equalAll projections key binding = true ↔
      ∃ own, groupKey projections binding = .ok own ∧ equalAll own key = true := by
  unfold inGroup
  cases groupKey projections binding <;> simp

/-- **Grouping and `=`.** The groups are the classes of the bindings under `=` exactly when no two
keys are equal and written differently. -/
theorem groupedBy_equalAll_iff (h : aggregateGroups bindings projections = .ok groups) :
    GroupedBy equalAll projections bindings groups.entries ↔
      KeysInOneForm projections bindings := by
  obtain ⟨hgrouped, hmember⟩ := groupedBy_aggregateGroups h
  have hequiv := equalAll_equivalence
  constructor
  · intro hclasses a ha b hb key key' hkey hkey' hequal
    obtain ⟨ga, hga, hina⟩ := hgrouped.covers a ha
    obtain ⟨gb, hgb, hinb⟩ := hgrouped.covers b hb
    obtain rfl : key = ga.1 := Except.ok.inj (hkey.symm.trans (inGroup_sameKey.1 hina))
    obtain rfl : key' = gb.1 := Except.ok.inj (hkey'.symm.trans (inGroup_sameKey.1 hinb))
    by_contra hne
    have : Std.Symm fun x y : QueryRow × List AggregateAccumulator =>
        ¬ equalAll x.1 y.1 = true := ⟨fun _ _ hn hyx => hn (hequiv.symm hyx)⟩
    exact hclasses.apart.forall hga hgb (fun heq => hne (congrArg Prod.fst heq)) hequal
  intro hone
  rcases hmember with ⟨rfl, hlength⟩ | hmember
  · refine ⟨?_, by simp, fun group hgroup => ?_⟩
    · match groups.entries, hlength with
      | [], _ => exact .nil
      | [_], _ => exact pairwise_singleton _ _
    · simpa using hgrouped.accumulated group hgroup
  have hsame : ∀ group ∈ groups.entries, ∀ b ∈ bindings,
      inGroup equalAll projections group.1 b = inGroup sameKey projections group.1 b := by
    intro group hgroup b hb
    obtain ⟨a, ha, hkey⟩ := hmember group hgroup
    refine Bool.eq_iff_iff.2 ?_
    rw [inGroup_equalAll, inGroup_sameKey]
    constructor
    · rintro ⟨own, hown, hequal⟩
      rw [hown, hone b hb a ha own group.1 hown hkey hequal]
    · intro hown
      exact ⟨_, hown, hequiv.refl _⟩
  refine ⟨hgrouped.apart.imp_of_mem fun {x y} hx hy hn hequal => ?_, fun b hb => ?_,
    fun group hgroup => ?_⟩
  · obtain ⟨a, ha, hkey⟩ := hmember x hx
    obtain ⟨b, hb, hkey'⟩ := hmember y hy
    exact hn (decide_eq_true (hone a ha b hb _ _ hkey hkey' hequal))
  · obtain ⟨group, hgroup, hin⟩ := hgrouped.covers b hb
    exact ⟨group, hgroup, (hsame group hgroup b hb).trans hin⟩
  · rw [filter_congr (hsame group hgroup)]
    exact hgrouped.accumulated group hgroup

/-! ## The join -/

variable {leftKey rightKey : QueryRow → Except GraphError QueryValue}

/-- Two rows whose keys are related; a null key matches nothing. -/
def keysMatch (R : QueryValue → QueryValue → Bool)
    (leftKey rightKey : QueryRow → Except GraphError QueryValue) (left right : QueryRow) : Bool :=
  match leftKey left, rightKey right with
  | .ok key, .ok key' => !key.isNull && !key'.isNull && R key key'
  | _, _ => false

/-- The inner join as a multiset: every pair of rows with matching keys, side by side. -/
def innerJoin (R : QueryValue → QueryValue → Bool)
    (leftKey rightKey : QueryRow → Except GraphError QueryValue) (left right : List QueryRow) :
    Multiset QueryRow :=
  (left : Multiset QueryRow).bind fun leftRow =>
    ((right : Multiset QueryRow).filter fun rightRow =>
      keysMatch R leftKey rightKey leftRow rightRow).map fun rightRow => leftRow ++ rightRow

/-- Two values with one representation. -/
def sameValue (a b : QueryValue) : Bool := decide (a = b)

/-- The table holds, under each key that is not null, the rows with that key in order. -/
theorem rowsByKey_spec (h : rowsByKey key rows = .ok table) :
    (∀ row ∈ rows, ∃ value, key row = .ok value) ∧
      ∀ value, value.isNull = false →
        (table.get value).getD [] = rows.filter fun row => decide (key row = .ok value) := by
  refine foldlM_ok_induction
    (P := fun done table => (∀ row ∈ done, ∃ value, key row = .ok value) ∧
      ∀ value, value.isNull = false →
        (table.get value).getD [] = done.filter fun row => decide (key row = .ok value))
    h ⟨by simp, fun _ _ => rfl⟩ ?_
  rintro done row rest table table' _ ⟨hkeys, htable⟩ hstep
  obtain ⟨own, hown, hput⟩ := bind_ok hstep
  cases hput
  refine ⟨forall_mem_snoc.2 ⟨hkeys, own, hown⟩, fun value hvalue => ?_⟩
  rw [filter_append, ← htable value hvalue]
  by_cases heq : own = value
  · subst heq
    simp [hvalue, hown]
  have hget : ((if own.isNull then table
      else table.put own ((table.get own).getD [] ++ [row])).get value) = table.get value := by
    split
    · rfl
    · exact get_put_of_ne (Ne.symm heq)
  simp [hget, hown, heq]

theorem eq_ok {x : Except GraphError QueryValue} (h : ∃ value, x = .ok value) :
    x = .ok (x.toOption.getD .null) := by
  obtain ⟨value, rfl⟩ := h
  rfl

/-- The table is built whenever every row has its key. -/
theorem rowsByKey_isOk (h : ∀ row ∈ rows, ∃ value, key row = .ok value) :
    ∃ table, rowsByKey key rows = .ok table := by
  exact ⟨_, foldlM_eq_ok (fun row hrow table => by rw [eq_ok (h row hrow)]; rfl) _⟩

/-- The probe succeeds whenever every row has its key. -/
theorem probeRows_isOk (h : ∀ row ∈ rows, ∃ value, key row = .ok value) :
    ∃ joined, probeRows key table join rows = .ok joined := by
  exact ⟨_, foldlM_eq_ok (fun row hrow joined => by rw [eq_ok (h row hrow)]; rfl) _⟩

theorem probeRows_keys (h : probeRows key table join rows = .ok joined) :
    ∀ row ∈ rows, ∃ value, key row = .ok value := by
  refine foldlM_ok_induction
    (P := fun done _ => ∀ row ∈ done, ∃ value, key row = .ok value) h (by simp) ?_
  intro done row rest joined joined' _ hkeys hstep
  obtain ⟨own, hown, _⟩ := bind_ok hstep
  exact forall_mem_snoc.2 ⟨hkeys, own, hown⟩

/-- The rows of the other side a row is joined with. -/
theorem filter_keysMatch (hkey : leftKey row = .ok value)
    (hright : ∀ r ∈ right, ∃ v, rightKey r = .ok v) :
    (right.filter fun r => keysMatch sameValue leftKey rightKey row r) =
      if value.isNull then [] else right.filter fun r => decide (rightKey r = .ok value) := by
  split
  · next hnull =>
    refine filter_eq_nil_iff.2 fun r hr => ?_
    obtain ⟨v, hv⟩ := hright r hr
    simp [keysMatch, hkey, hv, hnull]
  · next hnull =>
    refine filter_congr fun r hr => ?_
    obtain ⟨v, hv⟩ := hright r hr
    by_cases heq : value = v
    · subst heq
      simp [keysMatch, hkey, hv, sameValue, hnull]
    · simp [keysMatch, hkey, hv, sameValue, heq, Ne.symm heq]

/-- Probing the table joins each row with the rows of the other side that match it. -/
theorem probeRows_spec (htable : rowsByKey rightKey right = .ok table)
    (h : probeRows leftKey table join left = .ok joined) :
    joined = left.flatMap fun row =>
      (right.filter fun r => keysMatch sameValue leftKey rightKey row r).map (join row) := by
  obtain ⟨hkeys, hget⟩ := rowsByKey_spec htable
  refine foldlM_ok_induction
    (P := fun done joined => joined = done.flatMap fun row =>
      (right.filter fun r => keysMatch sameValue leftKey rightKey row r).map (join row))
    h rfl ?_
  rintro done row rest joined joined' _ rfl hstep
  obtain ⟨own, hown, hput⟩ := bind_ok hstep
  cases hput
  rw [flatMap_append, flatMap_singleton, filter_keysMatch hown hkeys]
  split
  · simp
  · next hnull => rw [hget own (by simpa using hnull)]

theorem coe_joinHashingRight (h : joinHashingRight leftKey rightKey left right = .ok rows) :
    rows = innerJoin sameValue leftKey rightKey left right := by
  obtain ⟨table, htable, hprobe⟩ := bind_ok h
  rw [probeRows_spec htable hprobe, innerJoin, ← Multiset.coe_bind]
  simp

theorem keysMatch_swap {left right : QueryRow} :
    keysMatch sameValue rightKey leftKey right left =
      keysMatch sameValue leftKey rightKey left right := by
  unfold keysMatch
  cases leftKey left <;> cases rightKey right <;> simp [sameValue, eq_comm, Bool.and_comm]

theorem map_filter_eq_bind (s : Multiset α) (p : α → Bool) (f : α → β) :
    (s.filter fun a => p a).map f = s.bind fun a => if p a then {f a} else 0 := by
  induction s using Multiset.induction_on with
  | empty => rfl
  | cons a s ih =>
    rw [Multiset.cons_bind, ← ih]
    cases hp : p a <;> simp [hp]

theorem coe_joinHashingLeft (h : joinHashingLeft leftKey rightKey left right = .ok rows) :
    rows = innerJoin sameValue leftKey rightKey left right := by
  obtain ⟨table, htable, hprobe⟩ := bind_ok h
  have hbind : rows = (right : Multiset QueryRow).bind fun r =>
      ((left : Multiset QueryRow).filter fun l => keysMatch sameValue leftKey rightKey l r).map
        fun l => l ++ r := by
    rw [probeRows_spec htable hprobe, ← Multiset.coe_bind]
    simp [keysMatch_swap]
  rw [hbind, innerJoin]
  simp only [map_filter_eq_bind]
  exact Multiset.bind_bind _ _

/-- If the join that hashes the right side succeeds, so does the other, with the same rows. -/
theorem joinHashingLeft_of_right (h : joinHashingRight leftKey rightKey left right = .ok rows) :
    ∃ rows', joinHashingLeft leftKey rightKey left right = .ok rows' ∧
      (rows' : Multiset QueryRow) = rows := by
  obtain ⟨table, htable, hprobe⟩ := bind_ok h
  obtain ⟨table', htable'⟩ := rowsByKey_isOk (probeRows_keys hprobe)
  obtain ⟨rows', hprobe'⟩ := probeRows_isOk (rowsByKey_spec htable).1
  have hleft : joinHashingLeft leftKey rightKey left right = .ok rows' :=
    Except.bind_eq_ok_iff.2 ⟨table', htable', hprobe'⟩
  exact ⟨rows', hleft, (coe_joinHashingLeft hleft).trans (coe_joinHashingRight h).symm⟩

/-- The coordinator's join is the join on equal representations, whichever side it hashes. -/
theorem coe_joinRows (h : joinRows leftKey rightKey left right = .ok rows) :
    rows = innerJoin sameValue leftKey rightKey left right := by
  unfold joinRows at h
  split at h
  · exact coe_joinHashingRight h
  · exact coe_joinHashingLeft h

/-- A join that matches more pairs, and one pair more, has more rows. -/
theorem card_innerJoin_lt
    (hSR : ∀ l r, keysMatch S leftKey rightKey l r = true → keysMatch R leftKey rightKey l r = true)
    (hl : l ∈ left) (hr : r ∈ right) (hR : keysMatch R leftKey rightKey l r = true)
    (hS : keysMatch S leftKey rightKey l r = false) :
    (innerJoin S leftKey rightKey left right).card <
      (innerJoin R leftKey rightKey left right).card := by
  have hle : ∀ l, (right.filter fun r => keysMatch S leftKey rightKey l r).Sublist
      (right.filter fun r => keysMatch R leftKey rightKey l r) :=
    fun l => monotone_filter_right _ fun r => hSR l r
  simp only [innerJoin, Multiset.card_bind, Function.comp_def, Multiset.filter_coe,
    Multiset.coe_card, Multiset.map_coe, Multiset.sum_coe, length_map, Bool.decide_eq_true]
  refine sum_lt_sum _ _ (fun l _ => (hle l).length_le) ⟨l, hl, ?_⟩
  refine lt_of_le_of_ne (hle l).length_le fun hlength => ?_
  have hmem : r ∈ right.filter fun r => keysMatch R leftKey rightKey l r :=
    mem_filter.2 ⟨hr, hR⟩
  rw [← (hle l).eq_of_length hlength] at hmem
  simp [hS] at hmem

/-- No two keys of the two sides are equal under `=` and written differently. -/
def JoinKeysInOneForm (leftKey rightKey : QueryRow → Except GraphError QueryValue)
    (left right : List QueryRow) : Prop :=
  ∀ l ∈ left, ∀ r ∈ right, keysMatch equal leftKey rightKey l r = true → leftKey l = rightKey r

theorem keysMatch_of_same (h : keysMatch sameValue leftKey rightKey l r = true) :
    keysMatch equal leftKey rightKey l r = true := by
  unfold keysMatch at h ⊢
  cases hl : leftKey l <;> cases hr : rightKey r <;> simp_all [sameValue, equal_iff]

theorem keysMatch_same_iff (h : keysMatch equal leftKey rightKey l r = true) :
    keysMatch sameValue leftKey rightKey l r = true ↔ leftKey l = rightKey r := by
  unfold keysMatch at h ⊢
  cases hl : leftKey l <;> cases hr : rightKey r <;> simp_all [sameValue]

/-- **The join and `=`.** The join matches the rows whose keys are equal under `=` exactly when no
two keys are equal and written differently. -/
theorem coe_joinRows_iff (h : joinRows leftKey rightKey left right = .ok rows) :
    rows = innerJoin equal leftKey rightKey left right ↔
      JoinKeysInOneForm leftKey rightKey left right := by
  rw [coe_joinRows h]
  constructor
  · intro heq l hl r hr hmatch
    by_contra hne
    have hsame : keysMatch sameValue leftKey rightKey l r = false :=
      Bool.eq_false_iff.2 fun hs => hne ((keysMatch_same_iff hmatch).1 hs)
    have hlt := card_innerJoin_lt (fun _ _ => keysMatch_of_same) hl hr hmatch hsame
    rw [heq] at hlt
    exact lt_irrefl _ hlt
  · intro hone
    have hfilter : ∀ l ∈ left, (right.filter fun r => keysMatch sameValue leftKey rightKey l r) =
        right.filter fun r => keysMatch equal leftKey rightKey l r := by
      intro l hl
      refine filter_congr fun r hr => Bool.eq_iff_iff.2 ⟨keysMatch_of_same, fun hmatch => ?_⟩
      exact (keysMatch_same_iff hmatch).2 (hone l hl r hr hmatch)
    refine Multiset.bind_congr fun l hl => ?_
    simp only [Multiset.filter_coe, Bool.decide_eq_true]
    rw [hfilter l (Multiset.mem_coe.1 hl)]

/-! ## The laws together -/

/-- No two rows are equal under `=` and written differently. -/
def RowsInOneForm (projected : List ProjectedQueryRow) : Prop :=
  ∀ a ∈ projected, ∀ b ∈ projected, equalAll a.row b.row = true → a.row = b.row

/-- `DISTINCT` and `=`. -/
theorem onePerClass_equalAll_iff :
    OnePerClass (fun a b => equalAll a.row b.row = true) projected
      (distinctRows projected) ↔ RowsInOneForm projected := by
  have hequiv := equalAll_equivalence
  refine onePerClass_distinctRows.coarser_iff ⟨fun a => hequiv.refl a.row,
    fun h => hequiv.symm h, fun h h' => hequiv.trans h h'⟩ ⟨fun _ => rfl, Eq.symm, Eq.trans⟩ ?_
  intro a b hab
  exact hab ▸ hequiv.refl a.row

/-- A successful join of two legs joins their rows by the values of the join columns. -/
theorem mergeDistributedInnerJoin_ok
    {left right : QueryResultSet}
    (hleft : legResults.get join.leftLeg = some left)
    (hright : legResults.get join.rightLeg = some right)
    (hi : columnIndex left join.leftColumn = .ok i)
    (hj : columnIndex right join.rightColumn = .ok j)
    (h : mergeDistributedInnerJoin legResults join = .ok result) :
    joinRows (joinKey join.leftLeg "left" i) (joinKey join.rightLeg "right" j) left.rows
      right.rows = .ok result.rows := by
  unfold mergeDistributedInnerJoin at h
  rw [hleft, hright] at h
  obtain ⟨left', hleft', h⟩ := bind_ok h
  obtain ⟨right', hright', h⟩ := bind_ok h
  cases hleft'
  cases hright'
  obtain ⟨i', hi', h⟩ := bind_ok h
  obtain ⟨j', hj', h⟩ := bind_ok h
  cases hi.symm.trans hi'
  cases hj.symm.trans hj'
  obtain ⟨rows, hrows, hresult⟩ := bind_ok h
  cases hresult
  exact hrows

/-- **Merging follows `=` exactly on rows in one form.** `DISTINCT`, grouping and the join of two
legs treat rows that are equal under `=` as one, and only those, exactly when no two of the rows
they are given are equal under `=` and written differently. Rows that differ are never merged, and
the join has the same rows whichever side it hashes. -/
theorem merging_iff_one_form (projected : List ProjectedQueryRow) (bindings : List BindingRow)
    (projections : List RowProjection) (legResults : OrdMap String QueryResultSet)
    (join : DistributedQueryJoin) :
    (OnePerClass (fun a b => equalAll a.row b.row = true) projected
      (distinctRows projected) ↔ RowsInOneForm projected) ∧
    (∀ groups, aggregateGroups bindings projections = .ok groups →
      (GroupedBy equalAll projections bindings groups.entries ↔
        KeysInOneForm projections bindings)) ∧
    (∀ left right result i j, legResults.get join.leftLeg = some left →
      legResults.get join.rightLeg = some right →
      columnIndex left join.leftColumn = .ok i → columnIndex right join.rightColumn = .ok j →
      mergeDistributedInnerJoin legResults join = .ok result →
      ((result.rows : Multiset QueryRow) = innerJoin equal
          (joinKey join.leftLeg "left" i) (joinKey join.rightLeg "right" j) left.rows right.rows ↔
        JoinKeysInOneForm (joinKey join.leftLeg "left" i) (joinKey join.rightLeg "right" j)
          left.rows right.rows)) ∧
    (∀ a ∈ projected, ∃ b ∈ distinctRows projected, a.row = b.row) ∧
    (∀ groups, aggregateGroups bindings projections = .ok groups →
      GroupedBy sameKey projections bindings groups.entries) ∧
    ∀ leftKey rightKey left right rows, joinHashingRight leftKey rightKey left right = .ok rows →
      ∃ rows', joinHashingLeft leftKey rightKey left right = .ok rows' ∧
        (rows' : Multiset QueryRow) = rows := by
  refine ⟨onePerClass_equalAll_iff, fun _ => groupedBy_equalAll_iff, ?_,
    onePerClass_distinctRows.covers,
    fun _ h => (groupedBy_aggregateGroups h).1, fun _ _ _ _ _ => joinHashingLeft_of_right⟩
  intro left right result i j hleft hright hi hj h
  exact coe_joinRows_iff (mergeDistributedInnerJoin_ok hleft hright hi hj h)

/-! ## Rows written differently -/

/-- One row with the integer `1`, one with the float `1.0`. -/
def oneTwice : List ProjectedQueryRow :=
  [⟨[.property (.integer 1)], []⟩, ⟨[.property (.float 4607182418800017408)], []⟩]

/-- A leg that returns vertex ids and one that returns references to them as properties. -/
def referenceLegs : OrdMap String QueryResultSet :=
  ((∅ : OrdMap String QueryResultSet).put "people" ⟨["id"], [[.vertexId 5]]⟩).put "orders"
    ⟨["owner"], [[.property (.integer 5)]]⟩

def referenceJoin : DistributedQueryJoin := ⟨"people", "orders", "id", "owner"⟩

/-- Two bindings of one vertex, and of another. -/
def threeBindings : List BindingRow :=
  [{ (∅ : BindingRow) with values := (∅ : OrdMap String VertexId).put "n" 1 },
    { (∅ : BindingRow) with values := (∅ : OrdMap String VertexId).put "n" 2 },
    { (∅ : BindingRow) with values := (∅ : OrdMap String VertexId).put "n" 1 }]

theorem merging_iff_one_form_applied :
    (∃ groups, aggregateGroups threeBindings [.nodeId "n", .countAll] = .ok groups ∧
      (GroupedBy equalAll [.nodeId "n", .countAll] threeBindings groups.entries ↔
        KeysInOneForm [.nodeId "n", .countAll] threeBindings)) ∧
    (∃ rows', joinHashingLeft (joinKey "people" "left" 0) (joinKey "orders" "right" 0)
      [[.vertexId 5]] [[.property (.integer 5)]] = .ok rows' ∧ (rows' : Multiset QueryRow) = 0) ∧
    ∃ result, mergeDistributedInnerJoin referenceLegs referenceJoin = .ok result ∧
      ((result.rows : Multiset QueryRow) = innerJoin equal
          (joinKey "people" "left" 0) (joinKey "orders" "right" 0)
          [[.vertexId 5]] [[.property (.integer 5)]] ↔
        JoinKeysInOneForm (joinKey "people" "left" 0) (joinKey "orders" "right" 0)
          [[.vertexId 5]] [[.property (.integer 5)]]) := by
  obtain ⟨-, hgroups, hjoin, -, -, hsides⟩ := merging_iff_one_form oneTwice threeBindings
    [.nodeId "n", .countAll] referenceLegs referenceJoin
  refine ⟨⟨_, rfl, hgroups _ rfl⟩, hsides _ _ _ _ [] ?_, _, rfl,
    hjoin ⟨["id"], [[.vertexId 5]]⟩ ⟨["owner"], [[.property (.integer 5)]]⟩ _ 0 0 rfl rfl rfl rfl
      rfl⟩
  rfl

/-- `DISTINCT` keeps the integer `1` and the float `1.0` as two rows, and a vertex id is not joined
with a property that holds the same number, though `=` holds between them. -/
theorem merging_misses_equal_values :
    ¬ OnePerClass (fun a b => equalAll a.row b.row = true) oneTwice (distinctRows oneTwice) ∧
    equal (.vertexId 5) (.property (.integer 5)) = true ∧
    mergeDistributedInnerJoin referenceLegs referenceJoin =
      .ok ⟨["people.id", "orders.owner"], []⟩ := by
  refine ⟨fun h => ?_, by decide +kernel, by rfl⟩
  have hkept : distinctRows oneTwice = oneTwice := by rfl
  rw [hkept] at h
  have hequal : equalAll [.property (.integer 1)]
      [.property (.float 4607182418800017408)] = true := by decide +kernel
  exact (pairwise_cons.1 h.apart).1 _ mem_cons_self hequal

end HydraDb
