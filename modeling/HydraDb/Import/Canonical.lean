import HydraDb.Import.Resolve

/-!
# The ids relationships end up with

Among the relationships of one logical id the one with the least variant id takes the logical id,
and every other keeps its variant id (`canonicalId`). Giving out these ids succeeds when no two
relationships get the same one, and yields the relationships under them
(`canonicalizeRelationshipIds_eq_ok_iff`). The ids depend on the logical and variant ids alone, so
not on ids given out before, nor on the order of the relationships; and if they are distinct for
some relationships they are for any part of them (`IdsDistinct.mono`).
-/

namespace HydraDb.Import

open OrdMap List

variable {relationships : List ResolvedRelationship} {r : ResolvedRelationship}

/-- The relationships have distinct variant ids. -/
def VariantsDistinct (relationships : List ResolvedRelationship) : Prop :=
  (relationships.map (·.variantId)).Nodup

/-- The relationship has the least variant id among those of its logical id. -/
def IsFirstVariant (relationships : List ResolvedRelationship) (r : ResolvedRelationship) : Prop :=
  ∀ r' ∈ relationships, r'.logicalId = r.logicalId → r.variantId ≤ r'.variantId

instance : Decidable (IsFirstVariant relationships r) :=
  inferInstanceAs (Decidable (∀ r' ∈ relationships, r'.logicalId = r.logicalId →
    r.variantId ≤ r'.variantId))

/-- The id a relationship gets among the given ones. -/
def canonicalId (relationships : List ResolvedRelationship) (r : ResolvedRelationship) : Nat :=
  if IsFirstVariant relationships r then r.logicalId else r.variantId

/-- No two relationships get the same id. -/
def IdsDistinct (relationships : List ResolvedRelationship) : Prop :=
  (relationships.map (canonicalId relationships)).Nodup

/-- The relationships under their ids. -/
def canonicalEntries (relationships : List ResolvedRelationship) :
    List (Nat × ResolvedRelationship) :=
  relationships.map fun r =>
    (canonicalId relationships r, r.withId (canonicalId relationships r))

def canonicalMap (relationships : List ResolvedRelationship) : OrdMap Nat ResolvedRelationship :=
  ofEntries (canonicalEntries relationships)

theorem nodup_of_variantsDistinct (h : VariantsDistinct relationships) : relationships.Nodup :=
  Nodup.of_map _ h

@[simp] theorem withId_withId : (r.withId i).withId j = r.withId j := by
  simp [ResolvedRelationship.withId, put_put]

/-! ## What the ids depend on -/

section Ids

variable {f : ResolvedRelationship → ResolvedRelationship}
  (logical : ∀ r, (f r).logicalId = r.logicalId) (variant : ∀ r, (f r).variantId = r.variantId)

include logical variant

/-- Ids depend on the logical and the variant ids only. -/
theorem canonicalId_map :
    canonicalId (relationships.map f) (f r) = canonicalId relationships r := by
  have hfirst : IsFirstVariant (relationships.map f) (f r) ↔ IsFirstVariant relationships r := by
    simp [IsFirstVariant, logical, variant]
  simp [canonicalId, hfirst, logical, variant]

theorem idsDistinct_map : IdsDistinct (relationships.map f) ↔ IdsDistinct relationships := by
  unfold IdsDistinct
  rw [map_map]
  simp [Function.comp_def, canonicalId_map logical variant]

end Ids

/-- Ids do not depend on the order of the relationships. -/
theorem canonicalId_perm (h : relationships.Perm relationships') :
    canonicalId relationships = canonicalId relationships' := by
  funext r
  have hfirst : IsFirstVariant relationships r ↔ IsFirstVariant relationships' r := by
    simp [IsFirstVariant, h.mem_iff]
  simp [canonicalId, hfirst]

theorem idsDistinct_perm (h : relationships.Perm relationships') :
    IdsDistinct relationships ↔ IdsDistinct relationships' := by
  unfold IdsDistinct
  rw [canonicalId_perm h]
  exact (h.map _).nodup_iff

theorem fst_canonicalEntries :
    (canonicalEntries relationships).map Prod.fst =
      relationships.map (canonicalId relationships) := by
  simp [canonicalEntries]

theorem IdsDistinct.nodup_entries (h : IdsDistinct relationships) :
    ((canonicalEntries relationships).map Prod.fst).Nodup := by
  rw [fst_canonicalEntries]
  exact h

theorem canonicalMap_perm (h : relationships.Perm relationships')
    (distinct : IdsDistinct relationships) :
    canonicalMap relationships = canonicalMap relationships' := by
  refine ofEntries_perm ?_ distinct.nodup_entries
  unfold canonicalEntries
  rw [canonicalId_perm h]
  exact h.map _

/-- The relationship without the id it was given before. -/
def ResolvedRelationship.unnamed (r : ResolvedRelationship) : ResolvedRelationship := r.withId 0

/-- Ids given before do not matter for the result. -/
theorem canonicalMap_unnamed :
    canonicalMap (relationships.map (·.unnamed)) = canonicalMap relationships := by
  unfold canonicalMap canonicalEntries
  rw [map_map]
  simp only [Function.comp_def, canonicalId_map (f := (·.unnamed)) (fun _ => rfl) fun _ => rfl]
  simp [ResolvedRelationship.unnamed]

/-! ## Part of the relationships -/

/-- Some relationship takes the logical id. -/
theorem exists_isFirstVariant (hr : r ∈ relationships) :
    ∃ r' ∈ relationships, r'.logicalId = r.logicalId ∧ IsFirstVariant relationships r' := by
  -- by induction on the variant id: one that is not the first has a smaller one before it
  induction hn : r.variantId using Nat.strong_induction_on generalizing r with
  | _ n ih =>
    by_cases hfirst : IsFirstVariant relationships r
    · exact ⟨r, hr, rfl, hfirst⟩
    simp only [IsFirstVariant, not_forall, not_le] at hfirst
    obtain ⟨r₁, hr₁, hlogical, hlt⟩ := hfirst
    obtain ⟨r', hr', hlogical', hfirst'⟩ := ih r₁.variantId (hn ▸ hlt) hr₁ rfl
    exact ⟨r', hr', hlogical'.trans hlogical, hfirst'⟩

/-- Distinct ids, for relationships with distinct variant ids: no relationship that keeps its
variant id keeps one that is the logical id of another. -/
theorem idsDistinct_iff (h : VariantsDistinct relationships) :
    IdsDistinct relationships ↔
      ∀ r ∈ relationships, ¬ IsFirstVariant relationships r →
        ∀ r' ∈ relationships, r'.logicalId ≠ r.variantId := by
  have hvariant {r r' : ResolvedRelationship} hr hr'
      heq : r = r' := inj_on_of_nodup_map h hr hr' heq
  unfold IdsDistinct
  rw [nodup_map_iff_inj_on (nodup_of_variantsDistinct h)]
  constructor
  · intro hinj r hr hnot r' hr' heq
    obtain ⟨r₁, hr₁, hlogical, hfirst⟩ := exists_isFirstVariant hr'
    have hsame : canonicalId relationships r₁ = canonicalId relationships r := by
      rw [canonicalId, canonicalId, if_pos hfirst, if_neg hnot, hlogical, heq]
    exact hnot (hinj r₁ hr₁ r hr hsame ▸ hfirst)
  · intro hkeep r hr r' hr' heq
    unfold canonicalId at heq
    split at heq <;> split at heq
    · next hfirst hfirst' =>
      exact hvariant hr hr' (le_antisymm (hfirst r' hr' heq.symm) (hfirst' r hr heq))
    · next _ hnot' => exact absurd heq (hkeep r' hr' hnot' r hr)
    · next hnot _ => exact absurd heq.symm (hkeep r hr hnot r' hr')
    · exact hvariant hr hr' heq

/-- Distinct ids stay distinct for part of the relationships. -/
theorem IdsDistinct.mono (distinct : IdsDistinct relationships')
    (variants : VariantsDistinct relationships) (variants' : VariantsDistinct relationships')
    (h : ∀ r ∈ relationships, r ∈ relationships') : IdsDistinct relationships := by
  rw [idsDistinct_iff variants'] at distinct
  refine (idsDistinct_iff variants).2 fun r hr hnot r' hr' => ?_
  exact distinct r (h r hr) (fun hfirst => hnot fun r₁ hr₁ => hfirst r₁ (h r₁ hr₁)) r' (h r' hr')

/-! ## The loop that gives out the ids -/

/-- The groups hold the relationships of each logical id. -/
theorem get_byLogicalId :
    (byLogicalId relationships).get l =
      if relationships.filter (·.logicalId = l) = [] then none
      else some (relationships.filter (·.logicalId = l)) := by
  induction relationships using reverseRecOn with
  | nil => rfl
  | append_singleton rs r ih =>
    have hstep : byLogicalId (rs ++ [r]) = (byLogicalId rs).put r.logicalId
        (((byLogicalId rs).get r.logicalId).getD [] ++ [r]) := by
      simp [byLogicalId]
    rw [hstep, get_put, filter_append]
    by_cases hl : l = r.logicalId
    · subst hl
      rw [if_pos rfl, ih]
      by_cases hnil : rs.filter (·.logicalId = r.logicalId) = [] <;> simp [hnil]
    · simp [hl, Ne.symm hl, ih]

theorem mem_entries_byLogicalId :
    (l, variants) ∈ (byLogicalId relationships).entries ↔
      variants = relationships.filter (·.logicalId = l) ∧ variants ≠ [] := by
  rw [mem_entries, get_byLogicalId]
  split
  · next h => simp [h]
  next h =>
  rw [Option.some.injEq]
  constructor
  · rintro rfl
    exact ⟨rfl, h⟩
  · rintro ⟨rfl, -⟩
    rfl

/-- The variants of one logical id get their ids in the order of their variant ids. -/
theorem assignIds_eq
    (distinct : VariantsDistinct variants) (logical : ∀ r ∈ variants, r.logicalId = l) :
    assignIds l variants =
      (variants.sortBy (·.variantId)).map fun r => r.withId (canonicalId variants r) := by
  have hperm := sortBy_perm (·.variantId) variants
  rw [← canonicalId_perm hperm]
  have hlogical : ∀ r ∈ variants.sortBy (·.variantId), r.logicalId = l := fun r hr =>
    logical r (hperm.mem_iff.1 hr)
  have hsorted : (variants.sortBy (·.variantId)).Pairwise fun a b => a.variantId < b.variantId := by
    have hne : (variants.sortBy (·.variantId)).Pairwise fun a b => a.variantId ≠ b.variantId :=
      pairwise_map.1 ((hperm.map _).nodup_iff.2 distinct)
    exact (pairwise_sortBy _ variants).imp₂ (fun _ _ => lt_of_le_of_ne) hne
  unfold assignIds
  generalize variants.sortBy (·.variantId) = sorted at hlogical hsorted
  cases sorted with
  | nil => rfl
  | cons a rest =>
    have hfirst : IsFirstVariant (a :: rest) a := fun r hr _ => by
      rcases mem_cons.1 hr with rfl | hr
      · exact le_rfl
      · exact (rel_of_pairwise_cons hsorted hr).le
    have hrest : ∀ r ∈ rest, canonicalId (a :: rest) r = r.variantId := fun r hr =>
      if_neg fun hmin => (rel_of_pairwise_cons hsorted hr).not_ge
        (hmin a mem_cons_self (by
          rw [hlogical a mem_cons_self, hlogical r (mem_cons_of_mem _ hr)]))
    rw [zipIdx_cons, map_cons, map_cons]
    refine congrArg₂ cons ?_ ?_
    · rw [canonicalId, if_pos hfirst, hlogical a mem_cons_self]
      rfl
    have hpositions : (rest.zipIdx (0 + 1)).map (fun entry =>
        entry.1.withId (if entry.2 = 0 then l else entry.1.variantId)) =
        (rest.zipIdx (0 + 1)).map fun entry => entry.1.withId entry.1.variantId := by
      refine map_congr_left fun entry hentry => ?_
      rw [if_neg (by have := le_snd_of_mem_zipIdx hentry; omega)]
    rw [hpositions, ← Function.comp_def (fun r : ResolvedRelationship => r.withId r.variantId)
      Prod.fst, ← map_map, zipIdx_map_fst]
    exact map_congr_left fun r hr => by rw [hrest r hr]

/-- The relationships with their ids, in the order in which the loop visits them. -/
def assigned (relationships : List ResolvedRelationship) : List ResolvedRelationship :=
  (byLogicalId relationships).entries.flatMap fun group => assignIds group.1 group.2

/-- Within the group of its logical id a relationship gets the id it gets among all. -/
theorem canonicalId_filter (hr : r.logicalId = l) :
    canonicalId (relationships.filter (·.logicalId = l)) r = canonicalId relationships r := by
  subst hr
  have hfirst : IsFirstVariant (relationships.filter (·.logicalId = r.logicalId)) r ↔
      IsFirstVariant relationships r := by
    simp only [IsFirstVariant, mem_filter, decide_eq_true_eq]
    exact ⟨fun h r' hr' hl => h r' ⟨hr', hl⟩ hl, fun h r' hr' => h r' hr'.1⟩
  simp [canonicalId, hfirst]

/-- Every relationship is visited once, under its id. -/
theorem assigned_perm (distinct : VariantsDistinct relationships) :
    (assigned relationships).Perm
      (relationships.map fun r => r.withId (canonicalId relationships r)) := by
  have hgroup {group} (hg : group ∈ (byLogicalId relationships).entries) :
      assignIds group.1 group.2 = (group.2.sortBy (·.variantId)).map
        fun r => r.withId (canonicalId relationships r) := by
    obtain ⟨hvariants, -⟩ := mem_entries_byLogicalId.1 hg
    have hlogical : ∀ r ∈ group.2, r.logicalId = group.1 := fun r hr => by
      rw [hvariants, mem_filter] at hr
      simpa using hr.2
    have hdistinct : VariantsDistinct group.2 := by
      rw [hvariants]
      exact distinct.sublist (filter_sublist.map _)
    rw [assignIds_eq hdistinct hlogical]
    refine map_congr_left fun r hr => ?_
    have hr : r.logicalId = group.1 := hlogical r ((sortBy_perm _ _).mem_iff.1 hr)
    rw [hvariants, canonicalId_filter hr]
  have hsorted : assigned relationships = ((byLogicalId relationships).entries.flatMap
      fun group => group.2.sortBy (·.variantId)).map
        fun r => r.withId (canonicalId relationships r) := by
    rw [map_flatMap]
    exact flatMap_congr fun group hg => hgroup hg
  rw [hsorted]
  refine Perm.map _ ((perm_ext_iff_of_nodup ?_ (nodup_of_variantsDistinct distinct)).2 ?_)
  · refine nodup_flatMap.2 ⟨fun group hg => ?_, ?_⟩
    · rw [(sortBy_perm _ _).nodup_iff, (mem_entries_byLogicalId.1 hg).1]
      exact (nodup_of_variantsDistinct distinct).filter _
    -- two groups are of different logical ids
    refine (byLogicalId relationships).sorted.imp_of_mem fun {g g'} hg hg' hlt r hr hr' => ?_
    rw [(sortBy_perm _ _).mem_iff, (mem_entries_byLogicalId.1 hg).1, mem_filter,
      decide_eq_true_eq] at hr
    rw [(sortBy_perm _ _).mem_iff, (mem_entries_byLogicalId.1 hg').1, mem_filter,
      decide_eq_true_eq] at hr'
    exact hlt.ne (hr.2.symm.trans hr'.2)
  · intro r
    rw [mem_flatMap]
    constructor
    · rintro ⟨group, hg, hr⟩
      rw [(sortBy_perm _ _).mem_iff, (mem_entries_byLogicalId.1 hg).1] at hr
      exact (mem_filter.1 hr).1
    intro hr
    have hmem : r ∈ relationships.filter (·.logicalId = r.logicalId) := by simp [hr]
    exact ⟨(r.logicalId, relationships.filter (·.logicalId = r.logicalId)),
      mem_entries_byLogicalId.2 ⟨rfl, ne_nil_of_mem hmem⟩,
      (sortBy_perm _ _).mem_iff.2 hmem⟩

/-- Entering relationships succeeds when their ids are distinct. -/
theorem foldlM_insertCanonical_eq_ok_iff :
    relationships.foldlM (insertCanonical scope) ∅ = .ok m ↔
      (relationships.map (·.id)).Nodup ∧ m = ofEntries (relationships.map fun r => (r.id, r)) := by
  refine foldlM_eq_ok_iff (P := fun done => (done.map ResolvedRelationship.id).Nodup)
    (g := fun done => ofEntries (done.map fun r => (r.id, r))) nodup_nil
    (fun done r hdone m => ?_) fun done r h => (map_append ▸ h).of_append_left
  have hentries : ofEntries ((done ++ [r]).map fun r => (r.id, r)) =
      (ofEntries (done.map fun r => (r.id, r))).put r.id r := by
    rw [map_append]
    exact ofEntries_concat _ (r.id, r)
  have hfree : (ofEntries (done.map fun r => (r.id, r))).get r.id = none ↔
      ((done ++ [r]).map (·.id)).Nodup := by
    rw [get_ofEntries_eq_none, map_append, map_singleton, ← concat_eq_append, nodup_concat,
      and_iff_left hdone, map_map]
    rfl
  rw [hentries, ← hfree, insertCanonical]
  cases (ofEntries (done.map fun r => (r.id, r))).get r.id with
  | some => exact iff_of_false nofun fun h => nomatch h.1
  | none => exact Except.ok_eq_ok.trans (and_iff_right rfl).symm

/-- Giving out the ids succeeds when they are distinct, and leaves the relationships under them. -/
theorem canonicalizeRelationshipIds_eq_ok_iff
    (distinct : VariantsDistinct scope.relationshipValues) :
    canonicalizeRelationshipIds scope = .ok out ↔
      IdsDistinct scope.relationshipValues ∧
        out = { scope with relationships := canonicalMap scope.relationshipValues } := by
  have hperm := assigned_perm distinct
  have hids : ((assigned scope.relationshipValues).map (·.id)).Nodup ↔
      IdsDistinct scope.relationshipValues := by
    rw [(hperm.map _).nodup_iff, map_map]
    rfl
  have hmap (h : IdsDistinct scope.relationshipValues) :
      ofEntries ((assigned scope.relationshipValues).map fun r => (r.id, r)) =
        canonicalMap scope.relationshipValues := by
    rw [ofEntries_perm (hperm.map _) (by simpa [Function.comp_def] using hids.2 h)]
    rw [map_map]
    rfl
  have hdef : canonicalizeRelationshipIds scope =
      (assigned scope.relationshipValues).foldlM (insertCanonical scope.scope) ∅ >>=
        fun relationships => .ok { scope with relationships := relationships } := rfl
  rw [hdef, Except.bind_eq_ok_iff_of fun _ => foldlM_insertCanonical_eq_ok_iff, hids]
  refine and_congr_right fun h => ?_
  rw [hmap h]
  exact Except.ok_eq_ok

end HydraDb.Import
