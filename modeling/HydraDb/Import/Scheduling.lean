import Mathlib.Algebra.BigOperators.Group.List.Basic
import HydraDb.Import.Join

/-!
# Whether a merge depends on how it was scheduled

Fragments arrive in the order in which the workers finish, and may be merged in several steps. The
result does not depend on either when the fragments of a scope do not contest anything
(`Uncontested`): no vertex id and no relationship variant id comes twice, and the reports that sort
to one place may be swapped. In every other case a merge that succeeds in some order does depend on
its schedule (`scheduling_independent_iff`): a repeated id is merged into the record that came
first, which wins where neither is more recent, and a merge counts only what it merged itself.
-/

namespace HydraDb.Import

open OrdMap List

variable {scope : Scope} {fragments : List ResolvedScope}

/-- Nothing in the fragments of one scope depends on which of them comes first. -/
structure Uncontested (fragments : List ResolvedScope) : Prop where
  /-- No vertex id comes twice. -/
  vertices : ((vertexEntries fragments).map Prod.fst).Nodup
  /-- No relationship variant id comes twice. -/
  relationships : VariantsDistinct (relationshipsOf fragments)
  /-- The orphan edges of two fragments sort to the same list in either order. -/
  orphanEdges : fragments.Pairwise fun f g =>
    sortOrphanEdges (f.orphanEdges ++ g.orphanEdges) =
      sortOrphanEdges (g.orphanEdges ++ f.orphanEdges)
  /-- The anomalies of two fragments sort to the same list in either order. -/
  relationshipAnomalies : fragments.Pairwise fun f g =>
    sortRelationshipAnomalies (f.relationshipAnomalies ++ g.relationshipAnomalies) =
      sortRelationshipAnomalies (g.relationshipAnomalies ++ f.relationshipAnomalies)

/-! ## What uncontested fragments come to -/

/-- The vertices are those of the fragments. -/
theorem settled_vertices (h : ((vertexEntries fragments).map Prod.fst).Nodup) :
    (settled scope fragments).vertices =
      .ofEntries ((vertexEntries fragments).map (Prod.map id (·.tidySources))) := by
  have hjoined : (joined scope fragments).vertices = .ofEntries (vertexEntries fragments) :=
    fst_absorbAll_of_nodup h
  rw [← mapValues_ofEntries h, ← hjoined]
  rfl

/-- The relationships are those of the fragments. -/
theorem members_perm (h : VariantsDistinct (relationshipsOf fragments)) :
    (members fragments).Perm ((relationshipsOf fragments).map (·.tidySources)) := by
  have hkeys : ((byVariant (relationshipsOf fragments)).map Prod.fst).Nodup := by
    rw [fst_byVariant]
    exact h
  have hvalues : (byVariant (relationshipsOf fragments)).map Prod.snd =
      relationshipsOf fragments := by
    rw [byVariant, map_map]
    exact map_id _
  rw [members, values_mapValues, fst_absorbAll_of_nodup hkeys]
  exact (hvalues ▸ (entries_ofEntries_perm hkeys).map Prod.snd).map _

theorem settled_mergedVertices :
    (settled scope fragments).diagnostics.mergedVertices = 0 ↔
      ((vertexEntries fragments).map Prod.fst).Nodup :=
  snd_absorbAll_eq_zero_iff

theorem settled_mergedRelationships :
    (settled scope fragments).diagnostics.mergedRelationships = 0 ↔
      VariantsDistinct (relationshipsOf fragments) := by
  rw [VariantsDistinct, ← fst_byVariant]
  exact snd_absorbAll_eq_zero_iff

/-- The counts of a merge that merged nothing itself. -/
def reportedCounts (fragments : List ResolvedScope) : ResolutionDiagnostics where
  inheritedScopes := (fragments.map (·.diagnostics.inheritedScopes)).sum
  graphKeyScopes := (fragments.map (·.diagnostics.graphKeyScopes)).sum
  reusedEdgeIdRelationships := (fragments.map (·.diagnostics.reusedEdgeIdRelationships)).sum
  relationshipAnomalies := (fragments.map (·.diagnostics.relationshipAnomalies)).sum

theorem settled_diagnostics (hv : ((vertexEntries fragments).map Prod.fst).Nodup)
    (hr : VariantsDistinct (relationshipsOf fragments)) :
    (settled scope fragments).diagnostics = reportedCounts fragments := by
  have hvertices : (settled scope fragments).diagnostics.mergedVertices = 0 :=
    settled_mergedVertices.2 hv
  have hrelationships : (settled scope fragments).diagnostics.mergedRelationships = 0 :=
    settled_mergedRelationships.2 hr
  have hcounts : (settled scope fragments).diagnostics = { reportedCounts fragments with
      mergedVertices := (settled scope fragments).diagnostics.mergedVertices
      mergedRelationships := (settled scope fragments).diagnostics.mergedRelationships } := rfl
  rw [hcounts, hvertices, hrelationships]
  rfl

/-! ## The order in which fragments arrive -/

theorem Uncontested.perm (h : Uncontested fragments) (hperm : fragments.Perm fragments') :
    Uncontested fragments' where
  vertices := ((hperm.flatMap_right _).map _).nodup_iff.1 h.vertices
  relationships := ((hperm.flatMap_right _).map _).nodup_iff.1 h.relationships
  orphanEdges := h.orphanEdges.perm hperm fun h => h.symm
  relationshipAnomalies := h.relationshipAnomalies.perm hperm fun h => h.symm

theorem EndsAgree.of_variantsDistinct
    (h : VariantsDistinct relationships) : EndsAgree relationships := fun _ hr _ hr' heq =>
  congrArg _ (inj_on_of_nodup_map h hr hr' heq)

/-- Uncontested fragments are mergeable when their relationships get distinct ids. -/
theorem Uncontested.mergeable_iff (h : Uncontested fragments) :
    Mergeable fragments ↔ IdsDistinct (relationshipsOf fragments) := by
  rw [← leaders_eq_self h.relationships]
  exact ⟨fun hm => leaders_eq_self h.relationships ▸ hm.ids,
    fun hids => ⟨.of_variantsDistinct h.relationships, hids⟩⟩

/-- The order of uncontested fragments does not matter for whether they can be merged. -/
theorem Uncontested.mergeable_perm (h : Uncontested fragments)
    (hperm : fragments.Perm fragments') : Mergeable fragments ↔ Mergeable fragments' := by
  rw [h.mergeable_iff, (h.perm hperm).mergeable_iff]
  exact idsDistinct_perm (hperm.flatMap_right _)

/-- The order of uncontested fragments does not matter for what they come to. -/
theorem Uncontested.settled_perm (h : Uncontested fragments) (hm : Mergeable fragments)
    (hperm : fragments.Perm fragments') : settled scope fragments = settled scope fragments' := by
  have h' := h.perm hperm
  have hmembers : (members fragments).Perm (members fragments') :=
    (members_perm h.relationships).trans
      (((hperm.flatMap_right _).map _).trans (members_perm h'.relationships).symm)
  have hsum (d : ResolvedScope → Nat) : (fragments.map d).sum = (fragments'.map d).sum :=
    (hperm.map d).sum_eq
  ext1
  · rfl
  · rw [settled_vertices h.vertices, settled_vertices h'.vertices]
    refine ofEntries_perm ((hperm.flatMap_right _).map _) ?_
    rw [map_map]
    exact h.vertices
  · exact canonicalMap_perm hmembers (idsDistinct_members.2 hm.ids)
  · exact sortBy_flatMap_perm hperm h.orphanEdges
  · exact sortBy_flatMap_perm hperm h.relationshipAnomalies
  · rw [settled_diagnostics h.vertices h.relationships,
      settled_diagnostics h'.vertices h'.relationships]
    simp [reportedCounts, hsum]

/-! ## Merging in two steps -/

section Steps

variable {parts : List (List ResolvedScope)}

theorem flatMap_flatten (f : ResolvedScope → List α) :
    parts.flatten.flatMap f = parts.flatMap (·.flatMap f) := by
  rw [flatten_eq_flatMap, flatMap_assoc]
  rfl

theorem relationshipsOf_flatten : relationshipsOf parts.flatten = parts.flatMap relationshipsOf :=
  flatMap_flatten _

theorem vertexEntries_flatten : vertexEntries parts.flatten = parts.flatMap vertexEntries :=
  flatMap_flatten _

/-- The relationships of what was merged, in the order of their ids. -/
theorem relationshipValues_settled (scope : Scope) (h : IdsDistinct (members fragments)) :
    (settled scope fragments).relationshipValues.Perm
      ((members fragments).map fun r => r.withId (canonicalId (members fragments) r)) := by
  have hentries := entries_ofEntries_perm h.nodup_entries
  have hvalues := hentries.map Prod.snd
  rw [canonicalEntries, map_map] at hvalues
  exact hvalues

theorem variantsDistinct_settled (h : IdsDistinct (members fragments)) :
    VariantsDistinct (settled scope fragments).relationshipValues := by
  unfold VariantsDistinct
  rw [((relationshipValues_settled scope h).map _).nodup_iff, map_map]
  exact variantsDistinct_members

/-- What was merged has the first relationship of every variant. -/
theorem firstOf_settled (h : IdsDistinct (members fragments)) (v : Nat) :
    firstOf (settled scope fragments).relationshipValues v =
      firstOf (relationshipsOf fragments) v := by
  have hperm := relationshipValues_settled scope h
  rw [← firstOf_members]
  ext x
  rw [firstOf_eq_some, firstOf_eq_some, leaders_eq_self (variantsDistinct_settled h),
    leaders_eq_self variantsDistinct_members]
  simp only [hperm.mem_iff, mem_map, exists_exists_and_eq_and]
  rfl

/-- What merged in two steps can be merged in one. -/
theorem Mergeable.flatten (hparts : ∀ part ∈ parts, Mergeable part)
    (h : Mergeable (parts.map (settled scope))) : Mergeable parts.flatten := by
  have hids (part) hpart : IdsDistinct (members part) :=
    idsDistinct_members.2 (hparts part hpart).ids
  -- every relationship of a part is represented in what the part was merged to
  have hrepresented r (hr : r ∈ relationshipsOf parts.flatten) :
      ∃ x ∈ relationshipsOf (parts.map (settled scope)),
        x.variantId = r.variantId ∧ x.ends = r.ends := by
    rw [relationshipsOf_flatten, mem_flatMap] at hr
    obtain ⟨part, hpart, hr⟩ := hr
    cases hfirst : firstOf (relationshipsOf part) r.variantId with
    | none =>
      rw [firstOf, Option.map_eq_none_iff, find?_eq_none] at hfirst
      exact absurd (decide_eq_true rfl) (hfirst r hr)
    | some x =>
      obtain ⟨r₁, hr₁, hvariant₁, rfl⟩ := firstOf_eq_some.1 hfirst
      rw [← firstOf_settled (hids part hpart), firstOf_eq_some] at hfirst
      obtain ⟨x, hx, hvariant, hbare⟩ := hfirst
      have hr₁ : r₁ ∈ relationshipsOf part := mem_of_find?_eq_some (mem_leaders.1 hr₁)
      have hends : x.ends = r₁.ends := congrArg (·.ends) hbare
      refine ⟨x, ?_, hvariant, hends.trans ((hparts part hpart).ends r₁ hr₁ r hr hvariant₁)⟩
      rw [relationshipsOf, flatMap_map, mem_flatMap]
      exact ⟨part, hpart, mem_of_find?_eq_some (mem_leaders.1 hx)⟩
  refine ⟨fun r hr r' hr' heq => ?_, ?_⟩
  · obtain ⟨x, hx, hvariant, hends⟩ := hrepresented r hr
    obtain ⟨x', hx', hvariant', hends'⟩ := hrepresented r' hr'
    rw [← hends, ← hends']
    exact h.ends x hx x' hx' (hvariant.trans (heq.trans hvariant'.symm))
  have hfirst v : firstOf (relationshipsOf (parts.map (settled scope))) v =
      firstOf (relationshipsOf parts.flatten) v := by
    rw [relationshipsOf_flatten, relationshipsOf, flatMap_map]
    clear hrepresented h hparts
    induction parts with
    | nil => rfl
    | cons part parts ih =>
      rw [flatMap_cons, flatMap_cons, firstOf_append, firstOf_append,
        firstOf_settled (hids part mem_cons_self),
        ih fun part hpart => hids part (mem_cons_of_mem _ hpart)]
  exact (idsDistinct_leaders_congr hfirst).1 h.ids

theorem flatMap_sublist (h : part ∈ parts) :
    (part.flatMap f).Sublist (parts.flatten.flatMap f) := by
  rw [flatMap_flatten, flatMap_def]
  exact sublist_flatten_of_mem (mem_map.2 ⟨part, h, rfl⟩)

/-- The vertices of the parts after merging are those before it, up to the order of their
sources. -/
theorem vertexEntries_settled_perm (scope : Scope)
    (nodup : ((vertexEntries parts.flatten).map Prod.fst).Nodup) :
    (vertexEntries (parts.map (settled scope))).Perm
      ((vertexEntries parts.flatten).map (Prod.map id (·.tidySources))) := by
  rw [vertexEntries_flatten, vertexEntries, flatMap_map, map_flatMap]
  refine Perm.flatMap_left _ fun part hpart => ?_
  have hpart := nodup.sublist ((flatMap_sublist hpart).map _)
  rw [settled_vertices hpart]
  refine entries_ofEntries_perm ?_
  rw [map_map]
  exact hpart

/-- Uncontested fragments may be merged in parts first if they can be merged at all. -/
theorem Uncontested.mergeable_part (h : Uncontested parts.flatten) (hm : Mergeable parts.flatten)
    (hpart : part ∈ parts) : Mergeable part := by
  have hsublist : (relationshipsOf part).Sublist (relationshipsOf parts.flatten) :=
    flatMap_sublist hpart
  have hdistinct : VariantsDistinct (relationshipsOf part) :=
    h.relationships.sublist (hsublist.map _)
  refine ⟨.of_variantsDistinct hdistinct, ?_⟩
  rw [leaders_eq_self hdistinct]
  exact (h.mergeable_iff.1 hm).mono hdistinct h.relationships fun r hr => hsublist.subset hr

section Merged

variable (scope) (h : Uncontested parts.flatten) (hm : Mergeable parts.flatten)

include h hm

/-- The relationships of the parts after merging are those before it, up to their ids and the order
of their sources. -/
theorem Uncontested.relationshipsOf_perm (hp : ∀ r i, p (r.tidySources.withId i) = p r) :
    ((relationshipsOf (parts.map (settled scope))).map p).Perm
      ((relationshipsOf parts.flatten).map p) := by
  rw [relationshipsOf_flatten, relationshipsOf, flatMap_map, map_flatMap, map_flatMap]
  refine Perm.flatMap_left _ fun part hpart => ?_
  have hmembers := members_perm (h.relationships.sublist ((flatMap_sublist hpart).map _))
  have hids := idsDistinct_members.2 (h.mergeable_part hm hpart).ids
  refine ((relationshipValues_settled scope hids).map p).trans ?_
  refine ((hmembers.map _).map p).trans (Perm.of_eq ?_)
  rw [map_map, map_map]
  exact map_congr_left fun r _ => hp r _

theorem Uncontested.variantsDistinct_settled :
    VariantsDistinct (relationshipsOf (parts.map (settled scope))) :=
  (h.relationshipsOf_perm scope hm fun _ _ => rfl).nodup_iff.2 h.relationships

/-- The relationships after the second step are those after a single one, up to the ids they got
in the first. -/
theorem Uncontested.members_settled_perm :
    ((members (parts.map (settled scope))).map (·.unnamed)).Perm
      ((members parts.flatten).map (·.unnamed)) := by
  have hp (r : ResolvedRelationship) i :
      (r.tidySources.withId i).tidySources.unnamed = r.tidySources.unnamed := by
    simp [ResolvedRelationship.unnamed, ResolvedRelationship.tidySources,
      ResolvedRelationship.withId, put_put]
  have houter := (members_perm (h.variantsDistinct_settled scope hm)).map (·.unnamed)
  have hflat := (members_perm h.relationships).map (·.unnamed)
  rw [map_map] at houter hflat
  exact houter.trans ((h.relationshipsOf_perm scope hm hp).trans hflat.symm)

theorem Uncontested.idsDistinct_settled : IdsDistinct (members (parts.map (settled scope))) := by
  rw [← idsDistinct_map (f := (·.unnamed)) (fun _ => rfl) (fun _ => rfl),
    idsDistinct_perm (h.members_settled_perm scope hm),
    idsDistinct_map (f := (·.unnamed)) (fun _ => rfl) fun _ => rfl]
  exact idsDistinct_members.2 hm.ids

theorem Uncontested.mergeable_settled : Mergeable (parts.map (settled scope)) :=
  ⟨.of_variantsDistinct (h.variantsDistinct_settled scope hm),
    idsDistinct_members.1 (h.idsDistinct_settled scope hm)⟩

/-- Merging uncontested fragments in two steps gives what merging them in one does. -/
theorem Uncontested.settled_settled :
    settled scope (parts.map (settled scope)) = settled scope parts.flatten := by
  have hentries := vertexEntries_settled_perm scope h.vertices
  have hvertices : ((vertexEntries (parts.map (settled scope))).map Prod.fst).Nodup := by
    rw [(hentries.map _).nodup_iff, map_map]
    exact h.vertices
  have hrelationships := h.variantsDistinct_settled scope hm
  have hsum (d : ResolvedScope → Nat) :
      (parts.map fun part => (part.map d).sum).sum = (parts.flatten.map d).sum := by
    rw [map_flatten, sum_flatten, map_map]
    rfl
  ext1
  · rfl
  · rw [settled_vertices hvertices, settled_vertices h.vertices, ofEntries_perm (hentries.map _)]
    · rw [map_map]
      refine congrArg ofEntries (map_congr_left fun ⟨id, vertex⟩ _ => ?_)
      simp [ResolvedVertex.tidySources]
    · rw [map_map]
      exact hvertices
  · have hcanonical := canonicalMap_perm (h.members_settled_perm scope hm)
      ((idsDistinct_map (f := (·.unnamed)) (fun _ => rfl) fun _ => rfl).2
        (h.idsDistinct_settled scope hm))
    rwa [canonicalMap_unnamed, canonicalMap_unnamed] at hcanonical
  · have horphans : sortOrphanEdges ((parts.map (settled scope)).flatMap (·.orphanEdges)) =
        sortOrphanEdges (parts.flatten.flatMap (·.orphanEdges)) := by
      rw [flatMap_map, flatMap_flatten]
      exact sortBy_flatMap_sortBy (·.source) parts fun part => part.flatMap (·.orphanEdges)
    exact horphans
  · have hanomalies :
        sortRelationshipAnomalies ((parts.map (settled scope)).flatMap (·.relationshipAnomalies)) =
          sortRelationshipAnomalies (parts.flatten.flatMap (·.relationshipAnomalies)) := by
      rw [flatMap_map, flatMap_flatten]
      exact sortBy_flatMap_sortBy (·.key) parts fun part => part.flatMap (·.relationshipAnomalies)
    exact hanomalies
  · rw [settled_diagnostics hvertices hrelationships,
      settled_diagnostics h.vertices h.relationships]
    simp only [reportedCounts, map_map, ← hsum]
    rfl

end Merged

end Steps

/-! ## Merges of several scopes -/

/-- Merges groups of fragments on their own first, and then what the groups were merged to. -/
def mergeInSteps (groups : List (List ResolvedScope)) :
    Except ResolveError (List ResolvedScope) := do
  let merged ← groups.mapM mergeScopes
  mergeScopes merged.flatten

section Groups

variable {groups : List (List ResolvedScope)}

/-- The fragments of one scope in each group that has some. -/
def partsOf (scope : Scope) (groups : List (List ResolvedScope)) : List (List ResolvedScope) :=
  (groups.map (fragmentsOf scope)).filter (!·.isEmpty)

theorem flatten_partsOf : (partsOf scope groups).flatten = fragmentsOf scope groups.flatten := by
  induction groups with
  | nil => rfl
  | cons group groups ih =>
    rw [flatten_cons, fragmentsOf, filter_append, ← fragmentsOf, ← fragmentsOf, ← ih]
    cases h : fragmentsOf scope group <;> simp [partsOf, h]

/-- What the fragments of each scope come to. -/
def settledScopes (fragments : List ResolvedScope) : List ResolvedScope :=
  (scopesOf fragments).map fun scope => settled scope (fragmentsOf scope fragments)

/-- What the groups were merged to has, of each scope, what each group has of it. -/
theorem fragmentsOf_merged : fragmentsOf scope (groups.map settledScopes).flatten =
    (partsOf scope groups).map (settled scope) := by
  induction groups with
  | nil => rfl
  | cons group groups ih =>
    have hgroup : fragmentsOf scope (settledScopes group) =
        if fragmentsOf scope group = [] then []
        else [settled scope (fragmentsOf scope group)] := by
      have hfilter : (scopesOf group).filter (fun s => decide (s = scope)) =
          if fragmentsOf scope group = [] then [] else [scope] := by
        have hnodup : (scopesOf group).Nodup := nodup_sortDedup
        have hmem : scope ∈ scopesOf group ↔ fragmentsOf scope group ≠ [] := mem_scopesOf
        rw [filter_eq, hnodup.count]
        by_cases h : fragmentsOf scope group = [] <;> simp [hmem, h]
      rw [settledScopes, fragmentsOf, filter_map]
      have hscope : ((fun fragment => decide (fragment.scope = scope)) ∘
          fun scope => settled scope (fragmentsOf scope group)) =
            fun s => decide (s = scope) := rfl
      rw [hscope, hfilter]
      split <;> rfl
    rw [map_cons, flatten_cons, fragmentsOf, filter_append, ← fragmentsOf,
      ← fragmentsOf, ih, hgroup]
    cases h : fragmentsOf scope group <;> simp [partsOf, h]

theorem scopesOf_merged :
    scopesOf (groups.map settledScopes).flatten = scopesOf groups.flatten := by
  refine eq_of_pairwise_lt pairwise_keys pairwise_keys fun scope => ?_
  rw [mem_scopesOf, mem_scopesOf, fragmentsOf_merged, ← flatten_partsOf]
  simp [partsOf]

/-- Merging in two steps succeeds when both steps do. -/
theorem mergeInSteps_eq_ok_iff :
    mergeInSteps groups = .ok out ↔
      (∀ scope, (∀ part ∈ partsOf scope groups, Mergeable part) ∧
        Mergeable ((partsOf scope groups).map (settled scope))) ∧
      out = (scopesOf groups.flatten).map fun scope =>
        settled scope ((partsOf scope groups).map (settled scope)) := by
  have hfirst {merged : List (List ResolvedScope)} : groups.mapM mergeScopes = .ok merged ↔
      (∀ group ∈ groups, ∀ scope, Mergeable (fragmentsOf scope group)) ∧
        merged = groups.map settledScopes :=
    mapM_eq_ok_iff fun group _ out => mergeScopes_eq_ok_iff
  have hparts scope : (∀ part ∈ partsOf scope groups, Mergeable part) ↔
      ∀ group ∈ groups, Mergeable (fragmentsOf scope group) := by
    simp only [partsOf, mem_filter, mem_map, and_imp, forall_exists_index, forall_apply_eq_imp_iff₂]
    refine forall₂_congr fun group _ => ⟨fun h => ?_, fun h _ => h⟩
    cases hnil : fragmentsOf scope group with
    | nil => exact .nil
    | cons => rw [hnil] at h; exact h rfl
  rw [mergeInSteps, Except.bind_eq_ok_iff_of fun _ => hfirst, mergeScopes_eq_ok_iff]
  simp only [fragmentsOf_merged, scopesOf_merged, hparts, forall_and]
  rw [← and_assoc]
  exact and_congr_left' (and_congr_left' ⟨fun h scope group hgroup => h group hgroup scope,
    fun h group hgroup scope => h scope group hgroup⟩)

end Groups

/-! ## Independence of the schedule -/

/-- The fragments give the same scopes, or are refused, whatever order they arrive in. -/
def OrderIndependent (fragments : List ResolvedScope) : Prop :=
  ∀ arrived, arrived.Perm fragments →
    (mergeScopes arrived).toOption = (mergeScopes fragments).toOption

/-- The fragments give the same scopes, or are refused, whatever groups of them are merged
first. -/
def StepIndependent (fragments : List ResolvedScope) : Prop :=
  ∀ groups, groups.flatten = fragments →
    (mergeInSteps groups).toOption = (mergeScopes fragments).toOption

/-- Two computations give the same when they succeed with the same. -/
theorem toOption_eq_iff {x : Except ε α} {y : Except ε' α} :
    x.toOption = y.toOption ↔ ∀ a, x = .ok a ↔ y = .ok a := by
  cases x <;> cases y <;> simp [Except.toOption]

theorem fragmentsOf_perm (h : fragments.Perm fragments') :
    (fragmentsOf scope fragments).Perm (fragmentsOf scope fragments') :=
  h.filter _

theorem scopesOf_perm (h : fragments.Perm fragments') : scopesOf fragments = scopesOf fragments' :=
  sortDedup_congr fun _ => (h.map _).mem_iff

/-- Uncontested fragments give the same in every order. -/
theorem orderIndependent (h : ∀ scope, Uncontested (fragmentsOf scope fragments)) :
    OrderIndependent fragments := by
  intro arrived hperm
  have hm scope := (h scope).mergeable_perm (fragmentsOf_perm hperm.symm)
  rw [toOption_eq_iff]
  intro out
  rw [mergeScopes_eq_ok_iff, mergeScopes_eq_ok_iff, scopesOf_perm hperm]
  simp only [← hm]
  refine and_congr_right fun hmergeable => ?_
  simp [(h _).settled_perm (hmergeable _) (fragmentsOf_perm hperm.symm)]

/-- Uncontested fragments give the same in two steps. -/
theorem stepIndependent (h : ∀ scope, Uncontested (fragmentsOf scope fragments)) :
    StepIndependent fragments := by
  rintro groups rfl
  simp only [← flatten_partsOf] at h
  rw [toOption_eq_iff]
  intro out
  rw [mergeInSteps_eq_ok_iff, mergeScopes_eq_ok_iff]
  simp only [← flatten_partsOf]
  constructor
  · rintro ⟨hm, rfl⟩
    have hflat scope := Mergeable.flatten (hm scope).1 (hm scope).2
    exact ⟨hflat, by simp [(h _).settled_settled _ (hflat _)]⟩
  rintro ⟨hm, rfl⟩
  exact ⟨fun scope => ⟨fun part hpart => (h scope).mergeable_part (hm scope) hpart,
    (h scope).mergeable_settled scope (hm scope)⟩,
    by simp [(h _).settled_settled _ (hm _)]⟩

/-- A refused merge is refused in two steps too. -/
theorem stepIndependent_of_refused (h : ¬ Mergeable (fragmentsOf scope fragments)) :
    StepIndependent fragments := by
  rintro groups rfl
  rw [← flatten_partsOf] at h
  rw [toOption_eq_iff]
  intro out
  rw [mergeInSteps_eq_ok_iff, mergeScopes_eq_ok_iff]
  refine iff_of_false (fun hout => ?_) fun hout => ?_
  · exact h (.flatten (hout.1 scope).1 (hout.1 scope).2)
  · exact h (flatten_partsOf ▸ hout.1 scope)

section

variable (hm : ∀ scope, Mergeable (fragmentsOf scope fragments))

include hm

/-- A merge that succeeds and gives the same in two steps merged nothing. -/
theorem nothing_merged (h : StepIndependent fragments) :
    ((vertexEntries (fragmentsOf scope fragments)).map Prod.fst).Nodup ∧
      VariantsDistinct (relationshipsOf (fragmentsOf scope fragments)) := by
  by_cases hnil : fragmentsOf scope fragments = []
  · rw [hnil]
    exact ⟨nodup_nil, nodup_nil⟩
  -- all fragments form a single group, and what it is merged to is merged again
  have hsteps := (toOption_eq_iff.1 (h [fragments] (by simp)) _).2
    (mergeScopes_eq_ok_iff.2 ⟨hm, rfl⟩)
  obtain ⟨-, hout⟩ := mergeInSteps_eq_ok_iff.1 hsteps
  have hparts : partsOf scope [fragments] = [fragmentsOf scope fragments] := by
    simp [partsOf, hnil]
  rw [flatten_singleton] at hout
  have hsame := map_inj_left.1 hout scope (mem_scopesOf.2 hnil)
  rw [hparts, map_singleton] at hsame
  constructor
  · rw [← settled_mergedVertices, hsame, settled_mergedVertices, vertexEntries, flatMap_singleton]
    exact nodup_keys
  · rw [← settled_mergedRelationships, hsame, settled_mergedRelationships, relationshipsOf,
      flatMap_singleton]
    exact variantsDistinct_settled (idsDistinct_members.2 (hm scope).ids)

/-- In a merge that succeeds and gives the same in every order, the fragments of a scope may be
swapped. -/
theorem settled_swap (h : OrderIndependent fragments)
    (hfg : [f, g].Sublist (fragmentsOf scope fragments)) :
    ∃ rest, settled scope (f :: g :: rest) = settled scope (g :: f :: rest) := by
  have hscopes : f.scope = scope ∧ g.scope = scope := by
    have hmem {x} (hx : x ∈ [f, g]) : x.scope = scope := by
      simpa using (mem_filter.1 (hfg.subset hx)).2
    exact ⟨hmem (by simp), hmem (by simp)⟩
  obtain ⟨rest, hrest⟩ := (hfg.trans filter_sublist).exists_perm_append
  have hout {arrived} hperm :=
    (mergeScopes_eq_ok_iff.1 ((toOption_eq_iff.1 (h arrived hperm) _).2
      (mergeScopes_eq_ok_iff.2 ⟨hm, rfl⟩))).2
  have hfirst := hout hrest.symm
  have hsecond := hout ((Perm.swap f g rest).trans hrest.symm)
  rw [hfirst, scopesOf_perm (hrest.symm.trans (hrest.trans (Perm.swap g f rest)))] at hsecond
  have hsame := map_inj_left.1 hsecond scope (mem_scopesOf.2 (by simp [fragmentsOf, hscopes]))
  refine ⟨fragmentsOf scope rest, ?_⟩
  simpa [fragmentsOf, hscopes] using hsame

/-- Fragments that merge, and give the same in every order and in two steps, contest nothing. -/
theorem uncontested (horder : OrderIndependent fragments) (hsteps : StepIndependent fragments)
    (scope : Scope) : Uncontested (fragmentsOf scope fragments) where
  vertices := (nothing_merged hm hsteps).1
  relationships := (nothing_merged hm hsteps).2
  orphanEdges := pairwise_iff_forall_sublist.2 fun {f g} hfg => by
    obtain ⟨rest, hswap⟩ := settled_swap hm horder hfg
    have horphans := congrArg (·.orphanEdges) hswap
    exact sortBy_append_comm_iff.1 horphans
  relationshipAnomalies := pairwise_iff_forall_sublist.2 fun {f g} hfg => by
    obtain ⟨rest, hswap⟩ := settled_swap hm horder hfg
    have hanomalies := congrArg (·.relationshipAnomalies) hswap
    exact sortBy_append_comm_iff.1 hanomalies

end

/-! ## Plans and spills -/

section Spill

variable (sha256Hex : Scope → String)

omit sha256Hex in
/-- Fragments of one scope are merged to that scope. -/
theorem mergeScopes_fragmentsOf_eq_ok_iff (hscope : scope ∈ scopesOf fragments) :
    mergeScopes (fragmentsOf scope fragments) = .ok merged ↔
      Mergeable (fragmentsOf scope fragments) ∧
        merged = [settled scope (fragmentsOf scope fragments)] := by
  have hself : fragmentsOf scope (fragmentsOf scope fragments) = fragmentsOf scope fragments := by
    simp [fragmentsOf]
  have hother {s : Scope} (hs : s ≠ scope) : fragmentsOf s (fragmentsOf scope fragments) = [] := by
    refine filter_eq_nil_iff.2 fun f hf => ?_
    have hf : f.scope = scope := by simpa using (mem_filter.1 hf).2
    simp [hf, Ne.symm hs]
  have hscopes : scopesOf (fragmentsOf scope fragments) = [scope] := by
    refine eq_of_pairwise_lt pairwise_keys (pairwise_singleton _ _) fun s => ?_
    rw [mem_scopesOf, mem_singleton]
    by_cases hs : s = scope
    · rw [hs, hself]
      exact iff_of_true (mem_scopesOf.1 hscope) rfl
    · simp [hs, hother hs]
  rw [mergeScopes_eq_ok_iff, hscopes, map_singleton, hself]
  refine and_congr_left fun _ => ⟨fun h => hself ▸ h scope, fun h s => ?_⟩
  by_cases hs : s = scope
  · rw [hs, hself]
    exact h
  · rw [hother hs]
    exact .nil

/-- A spilled scope is what its fragments come to. -/
theorem loadSpilledScope_eq_ok_iff (hscope : scope ∈ scopesOf fragments) :
    loadSpilledScope sha256Hex scope (fragmentsOf scope fragments) = .ok out ↔
      Mergeable (fragmentsOf scope fragments) ∧
        out = settled scope (fragmentsOf scope fragments) := by
  have hmerge merged :
      mergeScopes (fragmentsOf scope fragments) = .ok merged ↔ _ :=
    mergeScopes_fragmentsOf_eq_ok_iff hscope
  unfold loadSpilledScope
  cases h : mergeScopes (fragmentsOf scope fragments) with
  | error =>
    refine iff_of_false (fun hout => ?_) fun hout => ?_
    · cases hout
    · rw [(hmerge _).2 ⟨hout.1, rfl⟩] at h
      cases h
  | ok merged =>
    obtain ⟨hm, rfl⟩ := (hmerge merged).1 h
    have hsettled : (settled scope (fragmentsOf scope fragments)).scope = scope := rfl
    simp only [Except.mapError, Except.ok_bind, hsettled, if_true, Except.ok.injEq, hm, true_and]
    exact eq_comm

/-- The scopes loaded from a spill are those merged from its fragments. -/
theorem loadSpilledScopes_toOption :
    (loadSpilledScopes sha256Hex objects).toOption = (mergeScopes objects.flatten).toOption := by
  rw [toOption_eq_iff]
  intro out
  rw [loadSpilledScopes, mergeScopes_eq_ok_iff, ← scopesOf,
    mapM_eq_ok_iff fun scope hscope out => loadSpilledScope_eq_ok_iff sha256Hex hscope]
  exact and_congr_left' forall_mergeable_iff

end Spill

/-- What is merged of the fragments does not depend on how the work was scheduled: not on the order
in which they arrive, so that workers that finish in any order build the plan that is loaded from
the spilled fragments in file order, and not on whether they are merged in two steps. -/
structure SchedulingIndependent (sha256Hex : Scope → String) (fragments : List ResolvedScope) :
    Prop where
  order : OrderIndependent fragments
  plan : ∀ objects finished, objects.flatten = fragments → finished.Perm objects →
    (buildSnapshotPlan finished).toOption = (loadSpilledScopes sha256Hex objects).toOption
  steps : StepIndependent fragments

/-- The result depends on the schedule exactly when some fragments contest something and can be
merged in some order. -/
theorem scheduling_independent_iff (sha256Hex : Scope → String) (fragments : List ResolvedScope) :
    SchedulingIndependent sha256Hex fragments ↔
      (∀ scope, Uncontested (fragmentsOf scope fragments)) ∨
        ∀ arrived, arrived.Perm fragments →
          ∃ scope, ¬ Mergeable (fragmentsOf scope arrived) := by
  constructor
  · intro h
    by_cases hrefused : ∀ arrived, arrived.Perm fragments →
        ∃ scope, ¬ Mergeable (fragmentsOf scope arrived)
    · exact .inr hrefused
    simp only [not_forall, not_exists, not_not] at hrefused
    obtain ⟨arrived, hperm, hm⟩ := hrefused
    have hok := (toOption_eq_iff.1 (h.order arrived hperm) _).1 (mergeScopes_eq_ok_iff.2 ⟨hm, rfl⟩)
    exact .inl (uncontested (mergeScopes_eq_ok_iff.1 hok).1 h.order h.steps)
  intro h
  have horder : OrderIndependent fragments := by
    rcases h with h | h
    · exact orderIndependent h
    intro arrived hperm
    obtain ⟨scope, hscope⟩ := h arrived hperm
    obtain ⟨scope', hscope'⟩ := h fragments (.refl _)
    rw [toOption_eq_iff]
    intro out
    rw [mergeScopes_eq_ok_iff, mergeScopes_eq_ok_iff]
    exact iff_of_false (fun h => hscope (h.1 scope)) fun h => hscope' (h.1 scope')
  refine ⟨horder, ?_, ?_⟩
  · rintro objects finished rfl hperm
    rw [loadSpilledScopes_toOption, ← horder finished.flatten hperm.flatten, buildSnapshotPlan]
    cases mergeScopes finished.flatten <;> rfl
  rcases h with h | h
  · exact stepIndependent h
  · obtain ⟨scope, hscope⟩ := h fragments (.refl _)
    exact stepIndependent_of_refused hscope

/-- A fragment of one scope with a single vertex, which has a name and no time stamps. -/
def namedVertex (graph name : String) : ResolvedScope :=
  { ResolvedScope.empty ⟨"tenant", ""⟩ with
    vertices := put ∅ 1
      { id := 1
        labels := put ∅ "Entity" ()
        properties := put ∅ "name" (.string name)
        sources := [⟨graph, 0⟩] } }

/-- The name of vertex 1 in each scope of a plan. -/
def names (scopes : List ResolvedScope) : List (Option String) :=
  scopes.map fun scope => do
    let vertex ← scope.vertices.get 1
    match ← vertex.properties.get "name" with
    | .string name => some name
    | _ => none

/-- Two dumps that name one vertex differently and say nothing of when: the plan has the name of
the dump that was decoded first. -/
theorem not_independent_twoNames :
    (mergeScopes [namedVertex "a" "Ada", namedVertex "b" "Grace"]).toOption.map names =
        some [some "Ada"] ∧
      (mergeScopes [namedVertex "b" "Grace", namedVertex "a" "Ada"]).toOption.map names =
        some [some "Grace"] ∧
      ¬ SchedulingIndependent (fun _ => "") [namedVertex "a" "Ada", namedVertex "b" "Grace"] := by
  have hfirst : (mergeScopes [namedVertex "a" "Ada", namedVertex "b" "Grace"]).toOption.map names =
      some [some "Ada"] := by decide +kernel
  have hsecond : (mergeScopes [namedVertex "b" "Grace", namedVertex "a" "Ada"]).toOption.map names =
      some [some "Grace"] := by decide +kernel
  refine ⟨hfirst, hsecond, fun h => ?_⟩
  have hsame := h.order _ (Perm.swap (namedVertex "a" "Ada") (namedVertex "b" "Grace") [])
  rw [hsame, hfirst] at hsecond
  exact absurd hsecond (by decide)

end HydraDb.Import
