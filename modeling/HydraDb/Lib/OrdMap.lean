import Mathlib.Data.Finset.Card
import Mathlib.Data.Prod.Lex
import Mathlib.Order.Basic

/-!
# Finite maps in key order

`OrdMap K V` is a finite map kept as the list of its entries in strictly ascending key order. It
stands for an ordered key-value table and for an ordered map or set of a program: `get` is a point
read, `put` and `del` are a write and a delete, and `scan` walks the entries whose key satisfies a
predicate, in key order. The order is a field of the structure, so an unordered table cannot be
built, and two maps with the same reads are equal (`OrdMap.ext_get`).
-/

/-- A finite map from `K` to `V`: its entries in strictly ascending key order. -/
structure OrdMap (K : Type*) (V : Type*) [LinearOrder K] where
  /-- The entries, in key order. -/
  entries : List (K × V)
  /-- Keys ascend strictly. -/
  sorted : entries.Pairwise fun a b => a.1 < b.1

namespace OrdMap

open List

variable {K V W : Type*} [LinearOrder K]

variable {es : List (K × V)} {p : K → Bool} {ks : List K}

instance [DecidableEq V] : DecidableEq (OrdMap K V) := fun a b =>
  decidable_of_iff (a.entries = b.entries) (by cases a; cases b; simp)

/-! ## Reads and writes on entry lists -/

/-- The value at `k`. -/
def lookup (k : K) : List (K × V) → Option V
  | [] => none
  | e :: es => if e.1 = k then some e.2 else lookup k es

/-- Insert `v` at `k`, replacing an entry at `k`. -/
def insertEntry (k : K) (v : V) : List (K × V) → List (K × V)
  | [] => [(k, v)]
  | e :: es =>
    if k < e.1 then (k, v) :: e :: es
    else if e.1 = k then (k, v) :: es
    else e :: insertEntry k v es

theorem mem_insertEntry (h : x ∈ insertEntry k v es) : x = (k, v) ∨ x ∈ es := by
  induction es with
  | nil => exact .inl (mem_singleton.1 h)
  | cons e es ih =>
    unfold insertEntry at h
    split at h
    · exact mem_cons.1 h
    split at h
    · exact (mem_cons.1 h).imp_right (mem_cons_of_mem _)
    · rcases mem_cons.1 h with rfl | h
      · exact .inr mem_cons_self
      · exact (ih h).imp_right (mem_cons_of_mem _)

theorem pairwise_insertEntry (h : es.Pairwise fun a b => a.1 < b.1) :
    (insertEntry k v es).Pairwise fun a b => a.1 < b.1 := by
  induction es with
  | nil => exact pairwise_singleton _ _
  | cons e es ih =>
    obtain ⟨he, hes⟩ := pairwise_cons.1 h
    unfold insertEntry
    split
    · next hlt =>
      refine pairwise_cons.2 ⟨fun x hx => ?_, h⟩
      rcases mem_cons.1 hx with rfl | hx
      · exact hlt
      · exact hlt.trans (he x hx)
    · next hge =>
      split
      · next heq => exact pairwise_cons.2 ⟨fun x hx => heq ▸ he x hx, hes⟩
      next hne =>
      refine pairwise_cons.2 ⟨fun x hx => ?_, ih hes⟩
      rcases mem_insertEntry hx with rfl | hx
      · exact lt_of_le_of_ne (not_lt.1 hge) hne
      · exact he x hx

theorem lookup_insertEntry :
    lookup k' (insertEntry k v es) = if k' = k then some v else lookup k' es := by
  induction es with
  | nil =>
    simp [insertEntry, lookup, eq_comm]
  | cons e es ih =>
    unfold insertEntry
    split
    · simp [lookup, eq_comm]
    split
    · next heq =>
      simp only [lookup, heq, eq_comm]
      split <;> rfl
    next hne =>
    simp only [lookup, ih]
    split
    · next h => rw [if_neg (h ▸ hne)]
    · rfl

theorem lookup_filter_key :
    lookup k (es.filter fun e => p e.1) = if p k then lookup k es else none := by
  induction es with
  | nil => simp [lookup]
  | cons e es ih =>
    simp only [filter_cons]
    by_cases hp : p e.1 = true
    · rw [if_pos hp]
      simp only [lookup, ih]
      by_cases hk : e.1 = k
      · simp [hk ▸ hp]
      · simp [hk]
    · rw [if_neg hp, ih]
      by_cases hk : e.1 = k
      · simp [← hk, hp]
      · simp [lookup, hk]

theorem lookup_eq_some_iff (h : es.Pairwise fun a b => a.1 < b.1) :
    lookup k es = some v ↔ (k, v) ∈ es := by
  induction es with
  | nil => simp [lookup]
  | cons e es ih =>
    obtain ⟨he, hes⟩ := pairwise_cons.1 h
    simp only [lookup, mem_cons]
    split
    · next heq =>
      subst heq
      constructor
      · intro hv
        exact .inl (Prod.ext rfl (Option.some.inj hv).symm)
      · rintro (hv | hv)
        · rw [← hv]
        · exact absurd (he _ hv) (lt_irrefl _)
    · next hne =>
      rw [ih hes]
      refine ⟨.inr, ?_⟩
      rintro (hv | hv)
      · exact absurd (congrArg Prod.fst hv).symm hne
      · exact hv

theorem eq_of_lookup_eq : ∀ {es es' : List (K × V)},
    es.Pairwise (fun a b => a.1 < b.1) → es'.Pairwise (fun a b => a.1 < b.1) →
    (∀ k, lookup k es = lookup k es') → es = es' := by
  intro es es' h h' heq
  have hanti : ∀ a b, a ∈ es → b ∈ es' → a.1 < b.1 → b.1 < a.1 → a = b :=
    fun a b _ _ hab hba => absurd (hab.trans hba) (lt_irrefl _)
  have hnd : ∀ {l : List (K × V)}, l.Pairwise (fun a b => a.1 < b.1) → l.Nodup := fun hl =>
    hl.imp fun {a b} hlt (he : a = b) => lt_irrefl a.1 (he ▸ hlt)
  refine Perm.eq_of_pairwise hanti h h' ?_
  refine (perm_ext_iff_of_nodup (hnd h) (hnd h')).2 fun ⟨k, v⟩ => ?_
  rw [← lookup_eq_some_iff h, ← lookup_eq_some_iff h', heq]

/-! ## The map -/

/-- The empty map. -/
def empty : OrdMap K V := ⟨[], Pairwise.nil⟩

instance : EmptyCollection (OrdMap K V) := ⟨empty⟩

instance : Inhabited (OrdMap K V) := ⟨empty⟩

/-- A point read. -/
def get (m : OrdMap K V) (k : K) : Option V := lookup k m.entries

/-- Whether the map has an entry at `k`. -/
def contains (m : OrdMap K V) (k : K) : Bool := (m.get k).isSome

/-- A write. -/
def put (m : OrdMap K V) (k : K) (v : V) : OrdMap K V :=
  ⟨insertEntry k v m.entries, pairwise_insertEntry m.sorted⟩

/-- Keep the entries whose key satisfies `p`. -/
def restrict (m : OrdMap K V) (p : K → Bool) : OrdMap K V :=
  ⟨m.entries.filter fun e => p e.1, m.sorted.filter _⟩

/-- A delete. -/
def del (m : OrdMap K V) (k : K) : OrdMap K V := m.restrict fun k' => k' ≠ k

/-- The entries whose key satisfies `p`, in key order. -/
def scan (m : OrdMap K V) (p : K → Bool) : List (K × V) := (m.restrict p).entries

/-- The keys, in order. -/
def keys (m : OrdMap K V) : List K := m.entries.map Prod.fst

/-- Write a list of entries, in order. -/
def putAll (m : OrdMap K V) (es : List (K × V)) : OrdMap K V :=
  es.foldl (fun m e => m.put e.1 e.2) m

/-- Add a list of keys to a set. -/
def addAll (s : OrdMap K Unit) (ks : List K) : OrdMap K Unit := ks.foldl (fun s k => s.put k ()) s

/-- Delete a list of keys. -/
def delAll (m : OrdMap K V) (ks : List K) : OrdMap K V := ks.foldl del m

/-- A list in ascending order without repetitions. -/
def sortDedup (ks : List K) : List K := (addAll ∅ ks).keys

/-- Apply `f` to every value. -/
def mapValues (f : V → W) (m : OrdMap K V) : OrdMap K W :=
  ⟨m.entries.map fun e => (e.1, f e.2), by
    rw [pairwise_map]; exact m.sorted⟩

/-- Apply `f` to every value and keep the entries it answers for. -/
def filterMapValues (f : V → Option W) (m : OrdMap K V) : OrdMap K W :=
  ⟨m.entries.filterMap fun e => (f e.2).map fun w => (e.1, w), by
    refine m.sorted.filterMap _ fun a a' hlt b hb b' hb' => ?_
    obtain ⟨_, -, rfl⟩ := Option.map_eq_some_iff.1 hb
    obtain ⟨_, -, rfl⟩ := Option.map_eq_some_iff.1 hb'
    exact hlt⟩

variable {m : OrdMap K V} {k k' : K} {v : V}

@[simp] theorem get_empty : (∅ : OrdMap K V).get k = none := rfl

theorem get_put : (m.put k v).get k' = if k' = k then some v else m.get k' :=
  lookup_insertEntry

@[simp] theorem get_put_self : (m.put k v).get k = some v := by rw [get_put, if_pos rfl]

theorem get_put_of_ne (h : k' ≠ k) : (m.put k v).get k' = m.get k' := by rw [get_put, if_neg h]

/-- What holds of every entry of a map and of a new one holds of every entry once it is put. -/
theorem forall_get_put {P : K → V → Prop} (h : ∀ k v, m.get k = some v → P k v) (hput : P k v) :
    ∀ k' v', (m.put k v).get k' = some v' → P k' v' := by
  intro k' v' hget
  rw [get_put] at hget
  split at hget
  · next heq =>
    cases hget
    exact heq ▸ hput
  · exact h k' v' hget

theorem get_restrict : (m.restrict p).get k = if p k then m.get k else none :=
  lookup_filter_key

theorem get_del : (m.del k).get k' = if k' = k then none else m.get k' := by
  rw [del, get_restrict]
  by_cases h : k' = k <;> simp

theorem get_del_of_ne (h : k' ≠ k) : (m.del k).get k' = m.get k' := by rw [get_del, if_neg h]

/-- Every entry of a map is one of another. -/
def Within (m m' : OrdMap K V) : Prop := ∀ k v, m.get k = some v → m'.get k = some v

theorem within_del : (m.del k).Within m := by
  intro k' v h
  rw [get_del] at h
  split at h
  · cases h
  · exact h

theorem mem_entries : (k, v) ∈ m.entries ↔ m.get k = some v :=
  (lookup_eq_some_iff m.sorted).symm

theorem mem_scan : (k, v) ∈ m.scan p ↔ m.get k = some v ∧ p k = true := by
  rw [scan, mem_entries, get_restrict]
  split <;> simp_all

theorem pairwise_scan : (m.scan p).Pairwise fun a b => a.1 < b.1 :=
  (m.restrict p).sorted

theorem mem_keys : k ∈ m.keys ↔ (m.get k).isSome = true := by
  simp [keys, mem_entries, Option.isSome_iff_exists]

theorem contains_iff : m.contains k = true ↔ (m.get k).isSome = true := Iff.rfl

theorem contains_of_get (h : m.get k = some v) : m.contains k = true := by
  rw [contains_iff, h]; rfl

theorem get_of_contains (h : m.contains k = true) : ∃ v, m.get k = some v :=
  Option.isSome_iff_exists.1 h

@[simp] theorem contains_empty : (∅ : OrdMap K V).contains k = false := rfl

theorem contains_put : (m.put k v).contains k' = true ↔ k' = k ∨ m.contains k' = true := by
  simp only [contains, get_put]
  split <;> simp_all

theorem contains_del : (m.del k).contains k' = true ↔ k' ≠ k ∧ m.contains k' = true := by
  simp only [contains, get_del]
  split <;> simp_all

theorem mem_keys_iff_contains : k ∈ m.keys ↔ m.contains k = true := mem_keys

theorem pairwise_keys : m.keys.Pairwise (· < ·) := pairwise_map.2 m.sorted

theorem nodup_keys : m.keys.Nodup := by
  rw [keys, Nodup, pairwise_map]
  exact m.sorted.imp fun h => ne_of_lt h

theorem contains_addAll {s : OrdMap K Unit} :
    (s.addAll ks).contains k = true ↔ k ∈ ks ∨ s.contains k = true := by
  induction ks generalizing s with
  | nil => simp [addAll]
  | cons a ks ih =>
    have hcons : s.addAll (a :: ks) = (s.put a ()).addAll ks := rfl
    rw [hcons, ih, contains_put, mem_cons]
    tauto

/-- Maps with the same reads are equal. -/
theorem ext_get (h : ∀ k, m.get k = m'.get k) : m = m' := by
  cases m; cases m'
  simp only [mk.injEq]
  exact eq_of_lookup_eq ‹_› ‹_› h

theorem put_put : (m.put k v).put k v' = m.put k v' := by
  refine ext_get fun k' => ?_
  rw [get_put, get_put, get_put]
  split <;> rfl

theorem mem_sortDedup : k ∈ sortDedup ks ↔ k ∈ ks := by
  rw [sortDedup, mem_keys_iff_contains, contains_addAll, contains_empty]
  simp

theorem nodup_sortDedup : (sortDedup ks).Nodup := nodup_keys

theorem get_delAll : (m.delAll ks).get k = if k ∈ ks then none else m.get k := by
  induction ks generalizing m with
  | nil => simp [delAll]
  | cons a ks ih =>
    have hcons : m.delAll (a :: ks) = (m.del a).delAll ks := rfl
    rw [hcons, ih, get_del]
    by_cases hm : k ∈ ks
    · simp [hm]
    · by_cases ha : k = a <;> simp [ha]

theorem contains_delAll : (m.delAll ks).contains k = true ↔ k ∉ ks ∧ m.contains k = true := by
  rw [contains_iff, get_delAll, contains_iff]
  split <;> simp_all

theorem get_putAll_of_notMem (h : ∀ e ∈ es, e.1 ≠ k) : (m.putAll es).get k = m.get k := by
  induction es generalizing m with
  | nil => rfl
  | cons e es ih =>
    have hcons : m.putAll (e :: es) = (m.put e.1 e.2).putAll es := rfl
    rw [hcons, ih fun x hx => h x (mem_cons_of_mem _ hx), get_put_of_ne (h e mem_cons_self).symm]

/-- A list of writes that agree at `k` leaves the value they agree on. -/
theorem get_putAll_of_mem (hmem : (k, v) ∈ es) (h : ∀ e ∈ es, e.1 = k → e.2 = v) :
    (m.putAll es).get k = some v := by
  induction es generalizing m with
  | nil => cases hmem
  | cons e es ih =>
    have hcons : m.putAll (e :: es) = (m.put e.1 e.2).putAll es := rfl
    have htail : ∀ x ∈ es, x.1 = k → x.2 = v := fun x hx => h x (mem_cons_of_mem _ hx)
    rw [hcons]
    by_cases hin : (k, v) ∈ es
    · exact ih hin htail
    obtain rfl : (k, v) = e := (mem_cons.1 hmem).resolve_right hin
    rw [get_putAll_of_notMem, get_put_self]
    intro x hx hxk
    exact hin (by rw [← hxk, ← htail x hx hxk]; exact hx)

theorem get_mapValues : (m.mapValues f).get k = (m.get k).map f := by
  obtain ⟨es, hs⟩ := m
  simp only [get, mapValues]
  clear hs
  induction es with
  | nil => rfl
  | cons e es ih =>
    simp only [map_cons, lookup, ih]
    split <;> rfl

theorem get_filterMapValues : (m.filterMapValues f).get k = (m.get k).bind f := by
  ext w
  rw [← mem_entries, filterMapValues, mem_filterMap, Option.bind_eq_some_iff]
  constructor
  · rintro ⟨⟨k', v⟩, hmem, hw⟩
    obtain ⟨w', hv, heq⟩ := Option.map_eq_some_iff.1 hw
    cases heq
    exact ⟨v, mem_entries.1 hmem, hv⟩
  · rintro ⟨v, hget, hv⟩
    exact ⟨(k, v), mem_entries.2 hget, by rw [hv]; rfl⟩

/-! ## Counting entries -/

/-- The set of keys. -/
def support (m : OrdMap K V) : Finset K := m.keys.toFinset

theorem mem_support : k ∈ m.support ↔ m.contains k = true := by
  rw [support, mem_toFinset, mem_keys_iff_contains]

theorem support_put : (m.put k v).support = insert k m.support := by
  ext k'
  rw [mem_support, contains_put, Finset.mem_insert, mem_support]

theorem support_del : (m.del k).support = m.support.erase k := by
  ext k'
  rw [mem_support, contains_del, Finset.mem_erase, mem_support]

/-- A scan finds as many entries as there are keys that satisfy its predicate. -/
theorem length_scan : (m.scan p).length = (m.support.filter fun k => p k = true).card := by
  have hkeys : (m.scan p).length = (m.restrict p).keys.toFinset.card := by
    rw [toFinset_card_of_nodup nodup_keys, keys, length_map, scan]
  rw [hkeys]
  congr 1
  ext k
  rw [mem_toFinset, mem_keys, get_restrict, Finset.mem_filter, mem_support, contains_iff]
  split <;> simp_all

theorem length_entries : m.entries.length = m.support.card := by
  rw [support, toFinset_card_of_nodup nodup_keys, keys, length_map]

theorem length_entries_put_new (h : m.get k = none) :
    (m.put k v).entries.length = m.entries.length + 1 := by
  have hk : k ∉ m.support := by rw [mem_support, contains_iff, h]; exact Bool.false_ne_true
  rw [length_entries, length_entries, support_put, Finset.card_insert_of_notMem hk]

/-- A write of a new key adds one entry. -/
theorem perm_entries_put (h : m.get k = none) : (m.put k v).entries.Perm ((k, v) :: m.entries) := by
  have hnodup (m : OrdMap K V) : m.entries.Nodup := Nodup.of_map _ (nodup_keys)
  have hnew : (k, v) ∉ m.entries := fun hmem => nomatch h.symm.trans (mem_entries.1 hmem)
  refine (perm_ext_iff_of_nodup (hnodup _) ((hnodup m).cons hnew)).2 fun ⟨k', v'⟩ => ?_
  rw [mem_entries, get_put, mem_cons, mem_entries, Prod.mk.injEq]
  split
  · next heq => simp [heq, h, eq_comm]
  · next hne => simp [hne]

/-- A delete takes one entry away. -/
theorem perm_entries_del (h : m.get k = some v) : m.entries.Perm ((k, v) :: (m.del k).entries) := by
  have hput : (m.del k).put k v = m := ext_get fun k' => by
    rw [get_put, get_del]
    split
    · next heq => rw [heq, h]
    · rfl
  have hperm := perm_entries_put (v := v) (m := m.del k) (by rw [get_del, if_pos rfl])
  rwa [hput] at hperm

theorem length_scan_put_new (h : m.get k = none) :
    ((m.put k v).scan p).length = (m.scan p).length + if p k then 1 else 0 := by
  have hk : k ∉ m.support := by rw [mem_support, contains_iff, h]; simp
  rw [length_scan, length_scan, support_put, Finset.filter_insert]
  split
  · rw [Finset.card_insert_of_notMem fun hm => hk (Finset.mem_filter.1 hm).1]
  · rfl

theorem length_scan_put_old (h : m.contains k = true) :
    ((m.put k v).scan p).length = (m.scan p).length := by
  rw [length_scan, length_scan, support_put, Finset.insert_eq_of_mem (mem_support.2 h)]

theorem length_scan_del (h : m.contains k = true) :
    ((m.del k).scan p).length + (if p k then 1 else 0) = (m.scan p).length := by
  have hk : k ∈ m.support := mem_support.2 h
  rw [length_scan, length_scan, support_del, Finset.filter_erase]
  split
  · next hp => rw [Finset.card_erase_add_one (Finset.mem_filter.2 ⟨hk, hp⟩)]
  next hp =>
  have hnot : k ∉ m.support.filter fun k => p k = true := fun hm =>
    hp (Finset.mem_filter.1 hm).2
  rw [Finset.erase_eq_of_notMem hnot, Nat.add_zero]

end OrdMap
