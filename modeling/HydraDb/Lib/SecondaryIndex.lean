import HydraDb.Lib.OrdMap

/-!
# Secondary indexes

A table of records with a set of index keys beside it. Every record gives some keys, each key names
the record it was made for, and the index is exact when it holds the keys of the records and no
others. An update of one record replaces the keys of the old record by those of the new one, and
keeps an exact index exact when the keys it adds are those of the record that it stores.
-/

/-- What an index keeps of a record: the keys it gives and, from a key, the record it is of. -/
structure SecondaryIndex (K V I : Type*) where
  keys : K → V → List I
  owner : I → K
  owner_of_mem : ∀ {k v i}, i ∈ keys k v → owner i = k

namespace SecondaryIndex

variable {K V I : Type*} [LinearOrder K] [LinearOrder I] (ix : SecondaryIndex K V I)

/-- The index holds exactly the keys of the records. -/
def Exact (records : OrdMap K V) (index : OrdMap I Unit) : Prop :=
  ∀ i, index.contains i = true ↔ ∃ k v, records.get k = some v ∧ i ∈ ix.keys k v

variable {ix} {records : OrdMap K V} {index : OrdMap I Unit} {k : K} {v : V}

omit [LinearOrder K] in
theorem contains_delAll_of_owner_ne (hi : ix.owner i ≠ k) :
    (index.delAll (ix.keys k previous)).contains i = true ↔ index.contains i = true := by
  rw [OrdMap.contains_delAll]
  exact and_iff_right fun hmem => hi (ix.owner_of_mem hmem)

variable (h : ix.Exact records index)

include h

/-- A key of another record is in the index after an update of a record exactly when it was in it
before. -/
theorem Exact.of_keys (hrecords : ∀ k', k' ≠ k → records'.get k' = records.get k')
    (hother : ∀ i, ix.owner i ≠ k → (index'.contains i = true ↔ index.contains i = true))
    (hown : ∀ i, ix.owner i = k →
      (index'.contains i = true ↔ ∃ v, records'.get k = some v ∧ i ∈ ix.keys k v)) :
    ix.Exact records' index' := by
  intro i
  by_cases hi : ix.owner i = k
  · rw [hown i hi]
    constructor
    · rintro ⟨v, hv, hmem⟩
      exact ⟨k, v, hv, hmem⟩
    · rintro ⟨k', v, hv, hmem⟩
      cases (ix.owner_of_mem hmem).symm.trans hi
      exact ⟨v, hv, hmem⟩
  · have howner : ∀ k' v, i ∈ ix.keys k' v → k' ≠ k := fun k' v hmem hk =>
      hi ((ix.owner_of_mem hmem).trans hk)
    rw [hother i hi, h i]
    constructor
    · rintro ⟨k', v, hv, hmem⟩
      exact ⟨k', v, (hrecords k' (howner k' v hmem)).trans hv, hmem⟩
    · rintro ⟨k', v, hv, hmem⟩
      exact ⟨k', v, (hrecords k' (howner k' v hmem)).symm.trans hv, hmem⟩

/-- Adding a record that gives no keys. -/
theorem Exact.insert_bare (habsent : records.get k = none)
    (hbare : ix.keys k v = []) : ix.Exact (records.put k v) index := by
  refine h.of_keys (fun k' hk' => OrdMap.get_put_of_ne hk') (fun _ _ => Iff.rfl) fun i hi => ?_
  rw [h i, OrdMap.get_put, if_pos rfl]
  constructor
  · rintro ⟨k', v', hv', hmem⟩
    cases (ix.owner_of_mem hmem).symm.trans hi
    rw [habsent] at hv'
    cases hv'
  · rintro ⟨v', hv', hmem⟩
    cases hv'
    rw [hbare] at hmem
    cases hmem

variable {previous : V}
  (hprevious : ∀ v, records.get k = some v → ix.keys k previous = ix.keys k v)

include hprevious

/-- Deleting the keys of the record that is there leaves no key of it. -/
theorem Exact.notMem_of_delAll
    (hi : ix.owner i = k) : ¬ (index.delAll (ix.keys k previous)).contains i = true := by
  rw [OrdMap.contains_delAll, h i]
  rintro ⟨hnot, k', v, hv, hmem⟩
  cases (ix.owner_of_mem hmem).symm.trans hi
  exact hnot (hprevious v hv ▸ hmem)

/-- Replacing a record, and its keys by those of the new one. -/
theorem Exact.update (hadded : added = ix.keys k v) :
    ix.Exact (records.put k v) ((index.delAll (ix.keys k previous)).addAll added) := by
  subst hadded
  refine h.of_keys (fun k' hk' => OrdMap.get_put_of_ne hk') (fun i hi => ?_) fun i hi => ?_
  · rw [OrdMap.contains_addAll, contains_delAll_of_owner_ne hi]
    exact or_iff_right fun hmem => hi (ix.owner_of_mem hmem)
  · rw [OrdMap.contains_addAll, or_iff_left (h.notMem_of_delAll hprevious hi), OrdMap.get_put,
      if_pos rfl]
    simp

/-- Deleting a record and its keys. -/
theorem Exact.delete : ix.Exact (records.del k) (index.delAll (ix.keys k previous)) := by
  refine h.of_keys (fun k' hk' => OrdMap.get_del_of_ne hk')
    (fun i hi => contains_delAll_of_owner_ne hi) fun i hi => ?_
  rw [iff_false_left (h.notMem_of_delAll hprevious hi), OrdMap.get_del, if_pos rfl]
  simp

end SecondaryIndex
