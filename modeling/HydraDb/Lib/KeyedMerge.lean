import Mathlib.Data.Finset.Dedup
import HydraDb.Lib.OrdMap

/-!
# Merging entries into a map

Entries are taken into a map one after another; where a key is there already, the new value is
merged into the old one and the merge is counted (`absorb`). Without a repeated key nothing is
merged and the result is the map of the entries, in whatever order they come
(`absorbAll_of_nodup`, `ofEntries_perm`); the count is zero in no other case
(`snd_absorbAll_eq_zero_iff`). What a merge keeps of the old value is, at every key, that of the
first entry (`map_get_absorbAll`).
-/

namespace OrdMap

open List

variable {K V W : Type*} [LinearOrder K] {es : List (K × V)}

/-! ## The map of a list of entries -/

/-- The map that holds the given entries. -/
def ofEntries (es : List (K × V)) : OrdMap K V := putAll ∅ es

theorem ofEntries_concat (es : List (K × V)) (e : K × V) :
    ofEntries (es ++ [e]) = (ofEntries es).put e.1 e.2 := by
  simp [ofEntries, putAll]

/-- The map has nothing at a key of no entry. -/
theorem get_ofEntries_eq_none : (ofEntries es).get k = none ↔ k ∉ es.map Prod.fst := by
  induction es using reverseRecOn with
  | nil => simp [ofEntries, putAll]
  | append_singleton es e ih =>
    rw [ofEntries_concat, get_put, map_append, mem_append, not_or, ← ih]
    by_cases hk : k = e.1 <;> simp [hk]

/-- The map of entries with distinct keys holds exactly them. -/
theorem get_ofEntries (h : (es.map Prod.fst).Nodup) :
    (ofEntries es).get k = some v ↔ (k, v) ∈ es := by
  constructor
  · intro hget
    by_contra hmem
    by_cases hk : ∃ v', (k, v') ∈ es
    · obtain ⟨v', hv'⟩ := hk
      have hsame : ∀ e ∈ es, e.1 = k → e.2 = v' := fun e he hek =>
        congrArg Prod.snd (inj_on_of_nodup_map h he hv' hek)
      rw [ofEntries, get_putAll_of_mem hv' hsame] at hget
      cases hget
      exact hmem hv'
    · rw [ofEntries, get_putAll_of_notMem fun e he hek => hk ⟨e.2, hek ▸ he⟩] at hget
      cases hget
  · intro hmem
    exact get_putAll_of_mem hmem fun e he hek =>
      congrArg Prod.snd (inj_on_of_nodup_map h he hmem hek)

/-- Entries that are in order are the entries of their map. -/
theorem entries_ofEntries (h : es.Pairwise fun a b => a.1 < b.1) : (ofEntries es).entries = es := by
  have hnodup : (es.map Prod.fst).Nodup := pairwise_map.2 (h.imp ne_of_lt)
  have heq : ofEntries es = ⟨es, h⟩ := by
    refine ext_get fun k => Option.ext fun v => ?_
    rw [get_ofEntries hnodup, ← mem_entries]
  rw [heq]

/-- Entries with distinct keys may be written in any order. -/
theorem ofEntries_perm (h : es.Perm es')
    (nodup : (es.map Prod.fst).Nodup) : ofEntries es = ofEntries es' := by
  refine ext_get fun k => Option.ext fun v => ?_
  rw [get_ofEntries nodup, get_ofEntries ((h.map Prod.fst).nodup_iff.1 nodup), h.mem_iff]

/-- A map has the entries it was made of. -/
theorem entries_ofEntries_perm (h : (es.map Prod.fst).Nodup) : (ofEntries es).entries.Perm es := by
  refine (perm_ext_iff_of_nodup ?_ (Nodup.of_map _ h)).2 fun e => ?_
  · exact Nodup.of_map Prod.fst nodup_keys
  · rw [← get_ofEntries h, mem_entries]

/-- The values of a map, in key order. -/
def values (m : OrdMap K V) : List V := m.entries.map Prod.snd

theorem mem_values {m : OrdMap K V} : v ∈ m.values ↔ ∃ k, m.get k = some v := by
  simp [values, mem_entries]

theorem values_mapValues (f : V → W) (m : OrdMap K V) :
    (m.mapValues f).values = m.values.map f := by
  simp [values, mapValues]

/-- Changing the values of a map changes them in its entries. -/
theorem mapValues_ofEntries (h : (es.map Prod.fst).Nodup) :
    (ofEntries es).mapValues f = ofEntries (es.map (Prod.map id f)) := by
  have hkeys : ((es.map (Prod.map id f)).map Prod.fst).Nodup := by
    rw [map_map]
    exact h
  refine ext_get fun k => Option.ext fun w => ?_
  rw [get_ofEntries hkeys, get_mapValues, Option.map_eq_some_iff, mem_map]
  constructor
  · rintro ⟨v, hv, rfl⟩
    exact ⟨(k, v), (get_ofEntries h).1 hv, rfl⟩
  · rintro ⟨e, he, heq⟩
    cases heq
    exact ⟨e.2, (get_ofEntries h).2 he, rfl⟩

/-- Where a value tells its key, the values of a map are distinct by it. -/
theorem nodup_map_values {m : OrdMap K V} (h : ∀ k v, m.get k = some v → key v = k) :
    (m.values.map key).Nodup := by
  have hkeys : m.values.map key = m.keys := by
    rw [values, keys, map_map]
    exact map_congr_left fun e he => h e.1 e.2 (mem_entries.1 he)
  rw [hkeys]
  exact nodup_keys

/-- Two lists in strict order with the same elements are equal. -/
theorem eq_of_pairwise_lt {l' : List K} (hl : l.Pairwise (· < ·)) (hl' : l'.Pairwise (· < ·))
    (h : ∀ k, k ∈ l ↔ k ∈ l') : l = l' := by
  refine ((perm_ext_iff_of_nodup ?_ ?_).2 h).eq_of_pairwise
    (fun a b _ _ hab hba => absurd hab hba.not_gt) hl hl'
  · exact hl.imp ne_of_lt
  · exact hl'.imp ne_of_lt

/-- Sorting without repetitions depends on the elements only. -/
theorem sortDedup_congr {l' : List K} (h : ∀ k, k ∈ l ↔ k ∈ l') : sortDedup l = sortDedup l' :=
  eq_of_pairwise_lt pairwise_keys pairwise_keys fun k =>
    mem_sortDedup.trans ((h k).trans mem_sortDedup.symm)

@[simp] theorem sortDedup_sortDedup {l : List K} : sortDedup (sortDedup l) = sortDedup l :=
  sortDedup_congr fun _ => mem_sortDedup

/-! ## Taking entries in -/

variable (merge : V → V → V)

/-- Takes an entry into a map, and counts it if it was merged. -/
def absorb (state : OrdMap K V × Nat) (entry : K × V) : OrdMap K V × Nat :=
  match state.1.get entry.1 with
  | some existing => (state.1.put entry.1 (merge existing entry.2), state.2 + 1)
  | none => (state.1.put entry.1 entry.2, state.2)

/-- Takes entries into an empty map, one after another. -/
def absorbAll (es : List (K × V)) : OrdMap K V × Nat := es.foldl (absorb merge) (∅, 0)

variable {merge} {es : List (K × V)}

theorem absorbAll_concat : absorbAll merge (es ++ [e]) = absorb merge (absorbAll merge es) e := by
  rw [absorbAll, foldl_append]
  rfl

theorem absorbAll_append :
    absorbAll merge (es ++ es') = es'.foldl (absorb merge) (absorbAll merge es) := by
  rw [absorbAll, foldl_append]
  rfl

/-- The keys taken in are those of the entries. -/
theorem support_absorbAll : (absorbAll merge es).1.support = (es.map Prod.fst).toFinset := by
  induction es using reverseRecOn with
  | nil => rfl
  | append_singleton es e ih =>
    rw [absorbAll_concat, map_append, toFinset_append, ← ih, absorb]
    cases (absorbAll merge es).1.get e.1 <;>
      simp only [support_put, map_singleton] <;> ext k <;> simp

/-- Every entry has a key of its own or was merged. -/
theorem snd_absorbAll_add_card (merge : V → V → V) (es : List (K × V)) :
    (absorbAll merge es).2 + (absorbAll merge es).1.support.card = es.length := by
  induction es using reverseRecOn with
  | nil => rfl
  | append_singleton es e ih =>
    rw [absorbAll_concat, length_append, ← ih, absorb]
    cases hget : (absorbAll merge es).1.get e.1 with
    | some =>
      have hmem : e.1 ∈ (absorbAll merge es).1.support := by
        rw [mem_support]
        exact contains_of_get hget
      simp only [support_put, Finset.insert_eq_of_mem hmem, length_singleton]
      omega
    | none =>
      have hmem : e.1 ∉ (absorbAll merge es).1.support := by
        rw [mem_support, contains_iff, hget]
        simp
      simp only [support_put, Finset.card_insert_of_notMem hmem, length_singleton]
      omega

/-- Nothing is merged exactly when no key comes twice. -/
theorem snd_absorbAll_eq_zero_iff : (absorbAll merge es).2 = 0 ↔ (es.map Prod.fst).Nodup := by
  have hcount := snd_absorbAll_add_card merge es
  rw [support_absorbAll] at hcount
  rw [← Multiset.coe_nodup, ← Multiset.toFinset_card_eq_card_iff_nodup, Multiset.coe_card,
    length_map]
  rw [toFinset] at hcount
  omega

/-- Entries with distinct keys are taken in as they are. -/
theorem fst_absorbAll_of_nodup (h : (es.map Prod.fst).Nodup) :
    (absorbAll merge es).1 = ofEntries es := by
  induction es using reverseRecOn with
  | nil => rfl
  | append_singleton es e ih =>
    rw [map_append, nodup_append] at h
    obtain ⟨hes, -, hdisjoint⟩ := h
    have hget : (absorbAll merge es).1.get e.1 = none := by
      by_contra hsome
      have hmem : e.1 ∈ (absorbAll merge es).1.support := by
        rw [mem_support, contains_iff]
        exact Option.isSome_iff_ne_none.2 hsome
      rw [support_absorbAll, mem_toFinset] at hmem
      exact hdisjoint _ hmem e.1 (by simp) rfl
    rw [absorbAll_concat, absorb, hget]
    rw [ih hes, ofEntries_concat]

/-- What a merge keeps of the old value is that of the first entry with the key. -/
theorem map_get_absorbAll (es : List (K × V)) (hp : ∀ x y, p (merge x y) = p x) (k : K) :
    ((absorbAll merge es).1.get k).map p = (es.find? fun e => e.1 = k).map fun e => p e.2 := by
  induction es using reverseRecOn with
  | nil => rfl
  | append_singleton es e ih =>
    rw [absorbAll_concat, find?_append, absorb]
    by_cases hk : k = e.1
    · subst hk
      cases hget : (absorbAll merge es).1.get e.1 with
      | some =>
        rw [hget] at ih
        cases hfind : es.find? fun e' => e'.1 = e.1 with
        | none => rw [hfind] at ih; cases ih
        | some =>
          rw [hfind] at ih
          simpa [hp] using ih
      | none =>
        rw [hget] at ih
        cases hfind : es.find? fun e' => e'.1 = e.1 with
        | none => simp
        | some => rw [hfind] at ih; cases ih
    · have hlast : [e].find? (fun e' => e'.1 = k) = none := by simp [Ne.symm hk]
      rw [hlast, Option.or_none, ← ih]
      cases (absorbAll merge es).1.get e.1 <;> simp [get_put_of_ne hk]

end OrdMap
