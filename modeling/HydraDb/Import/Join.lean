import HydraDb.Import.Canonical

/-!
# What the fragments of one scope come to

The loop that merges the fragments of a scope one by one is described here by what it leaves as a
whole. It fails when two relationships of one variant id have different ends or when two
relationships end up with one id (`Mergeable`), and otherwise leaves `settled`: the entries of all
fragments taken into one map, the reports sorted, and the counters added up
(`mergeScope_eq_ok_iff`).
-/

namespace HydraDb.Import

open OrdMap List

variable {scope : Scope} {fragments : List ResolvedScope}

variable {done relationships : List ResolvedRelationship} {c r : ResolvedRelationship}

/-! ## The entries of fragments -/

/-- The vertices of the fragments, under their ids. -/
def vertexEntries (fragments : List ResolvedScope) : List (Nat × ResolvedVertex) :=
  fragments.flatMap (·.vertices.entries)

/-- The relationships of the fragments. -/
def relationshipsOf (fragments : List ResolvedScope) : List ResolvedRelationship :=
  fragments.flatMap (·.relationshipValues)

/-- Relationships under their variant ids. -/
def byVariant (relationships : List ResolvedRelationship) : List (Nat × ResolvedRelationship) :=
  relationships.map fun r => (r.variantId, r)

theorem fst_byVariant :
    (byVariant relationships).map Prod.fst = relationships.map (·.variantId) := by
  simp [byVariant]

/-- The type and the end points of a relationship. -/
def ResolvedRelationship.ends (r : ResolvedRelationship) : String × Nat × Nat :=
  (r.edgeType, r.src, r.dst)

/-- Relationships of one variant id have one type and one pair of end points. -/
def EndsAgree (relationships : List ResolvedRelationship) : Prop :=
  ∀ r ∈ relationships, ∀ r' ∈ relationships, r.variantId = r'.variantId → r.ends = r'.ends

theorem endsAgree_concat :
    EndsAgree (done ++ [c]) ↔
      EndsAgree done ∧ ∀ r ∈ done, r.variantId = c.variantId → r.ends = c.ends := by
  simp only [EndsAgree, forall_mem_append, forall_mem_singleton]
  constructor
  · rintro ⟨h, -⟩
    exact ⟨fun r hr => (h r hr).1, fun r hr => (h r hr).2⟩
  · rintro ⟨h, hc⟩
    exact ⟨fun r hr => ⟨h r hr, hc r hr⟩, fun r hr heq => (hc r hr heq.symm).symm, fun _ => trivial⟩

/-- The ends of the earlier ones agree among themselves. -/
theorem EndsAgree.of_append (h : EndsAgree (done ++ done')) : EndsAgree done := fun r hr r' hr' =>
  h r (mem_append_left _ hr) r' (mem_append_left _ hr')

theorem relationshipsOf_append (fragments' : List ResolvedScope) :
    relationshipsOf (fragments ++ fragments') =
      relationshipsOf fragments ++ relationshipsOf fragments' :=
  flatMap_append

/-! ## The loops over one fragment -/

/-- The scope with other vertices, and with the count of those merged. -/
def ResolvedScope.withVertices (output : ResolvedScope)
    (state : OrdMap Nat ResolvedVertex × Nat) : ResolvedScope :=
  { output with
    vertices := state.1
    diagnostics := { output.diagnostics with mergedVertices := state.2 } }

/-- The scope with other relationships, and with the count of those merged. -/
def ResolvedScope.withRelationships (output : ResolvedScope)
    (state : OrdMap Nat ResolvedRelationship × Nat) : ResolvedScope :=
  { output with
    relationships := state.1
    diagnostics := { output.diagnostics with mergedRelationships := state.2 } }

theorem addVertex_eq (output : ResolvedScope) (entry : Nat × ResolvedVertex) :
    addVertex output entry = output.withVertices
      (absorb mergeVertex (output.vertices, output.diagnostics.mergedVertices) entry) := by
  unfold addVertex absorb
  cases output.vertices.get entry.1 <;> rfl

/-- The loop over the vertices of a fragment takes them into those of the scope. -/
theorem foldl_addVertex (output : ResolvedScope) (entries : List (Nat × ResolvedVertex)) :
    entries.foldl addVertex output = output.withVertices
      (entries.foldl (absorb mergeVertex)
        (output.vertices, output.diagnostics.mergedVertices)) := by
  induction entries generalizing output with
  | nil => rfl
  | cons entry entries ih =>
    rw [foldl_cons, foldl_cons, ih, addVertex_eq]
    rfl

theorem addRelationship_eq_ok_iff :
    addRelationship output c = .ok out ↔
      (∀ existing, output.relationships.get c.variantId = some existing → existing.ends = c.ends) ∧
      out = output.withRelationships (absorb mergeRelationship
        (output.relationships, output.diagnostics.mergedRelationships) (c.variantId, c)) := by
  unfold addRelationship absorb
  dsimp only
  cases output.relationships.get c.variantId with
  | none => exact Except.ok_eq_ok.trans (and_iff_right nofun).symm
  | some existing =>
    have hends : existing.ends = c.ends ↔ existing.edgeType = c.edgeType ∧
        existing.src = c.src ∧ existing.dst = c.dst := by
      simp [ResolvedRelationship.ends]
    simp only [Option.some.injEq, forall_eq', hends]
    split
    · next h => exact Except.ok_eq_ok.trans (and_iff_right h).symm
    · next h => exact iff_of_false nofun fun hout => h hout.1

/-- The relationship a variant id stands for has the ends of every relationship that went into
it. -/
theorem forall_ends_absorbAll (hdone : EndsAgree done) :
    (∀ existing, (absorbAll mergeRelationship (byVariant done)).1.get c.variantId =
        some existing → existing.ends = c.ends) ↔
      ∀ r ∈ done, r.variantId = c.variantId → r.ends = c.ends := by
  have hkept := map_get_absorbAll (byVariant done)
    (fun x y => (rfl : (mergeRelationship x y).ends = x.ends)) c.variantId
  constructor
  · intro h r hr hvariant
    cases hfind : (byVariant done).find? fun e => e.1 = c.variantId with
    | none =>
      have := find?_eq_none.1 hfind (r.variantId, r) (mem_map.2 ⟨r, hr, rfl⟩)
      exact absurd (decide_eq_true hvariant) this
    | some =>
      rw [hfind] at hkept
      obtain ⟨existing, hget, hends⟩ := Option.map_eq_some_iff.1 hkept
      obtain ⟨r₁, hr₁, rfl⟩ := mem_map.1 (mem_of_find?_eq_some hfind)
      have hfirst : r₁.variantId = c.variantId := by simpa using find?_some hfind
      rw [← h existing hget, hends]
      exact hdone r hr r₁ hr₁ (hvariant.trans hfirst.symm)
  · intro h existing hget
    rw [hget] at hkept
    obtain ⟨first, hfind, hends⟩ := Option.map_eq_some_iff.1 hkept.symm
    obtain ⟨r₁, hr₁, rfl⟩ := mem_map.1 (mem_of_find?_eq_some hfind)
    have hfirst : r₁.variantId = c.variantId := by simpa using find?_some hfind
    exact hends.symm.trans (h r₁ hr₁ hfirst)

/-- The loop over the relationships of a fragment succeeds when their ends agree with each other
and with those taken in before. -/
theorem foldlM_addRelationship_eq_ok_iff
    (hstate : (output.relationships, output.diagnostics.mergedRelationships) =
      absorbAll mergeRelationship (byVariant before)) (hbefore : EndsAgree before) :
    relationships.foldlM addRelationship output = .ok out ↔
      EndsAgree (before ++ relationships) ∧ out = output.withRelationships
        (absorbAll mergeRelationship (byVariant (before ++ relationships))) := by
  have hinit : output = output.withRelationships
      (absorbAll mergeRelationship (byVariant (before ++ []))) := by
    rw [append_nil, ← hstate]
    rfl
  conv_lhs => rw [hinit]
  refine foldlM_eq_ok_iff (P := fun done => EndsAgree (before ++ done))
    (g := fun done => output.withRelationships (absorbAll mergeRelationship
      (byVariant (before ++ done)))) (by rwa [append_nil]) (fun done c hdone out => ?_)
    fun done c h => (append_assoc before done [c] ▸ h).of_append
  have habsorb : absorb mergeRelationship
      (absorbAll mergeRelationship (byVariant (before ++ done))) (c.variantId, c) =
        absorbAll mergeRelationship (byVariant (before ++ (done ++ [c]))) := by
    rw [← absorbAll_concat, ← append_assoc, byVariant, byVariant, @map_append _ _ _ _ [c]]
    rfl
  rw [addRelationship_eq_ok_iff, ← append_assoc, endsAgree_concat, append_assoc, ← habsorb]
  exact and_congr_left' ((forall_ends_absorbAll hdone).trans (and_iff_right hdone).symm)

/-! ## All fragments of a scope -/

/-- The loop over the fragments of one scope. -/
def mergeFragments (scope : Scope) (fragments : List ResolvedScope) :
    Except ResolveError ResolvedScope :=
  fragments.foldlM mergeFragment (.empty scope)

/-- All fragments taken together, before the scope is finished. -/
def joined (scope : Scope) (fragments : List ResolvedScope) : ResolvedScope :=
  let vertices := absorbAll mergeVertex (vertexEntries fragments)
  let relationships :=
    absorbAll mergeRelationship (byVariant (relationshipsOf fragments))
  { scope := scope
    vertices := vertices.1
    relationships := relationships.1
    orphanEdges := fragments.flatMap (·.orphanEdges)
    relationshipAnomalies := fragments.flatMap (·.relationshipAnomalies)
    diagnostics :=
      { mergedVertices := vertices.2
        mergedRelationships := relationships.2
        inheritedScopes := (fragments.map (·.diagnostics.inheritedScopes)).sum
        graphKeyScopes := (fragments.map (·.diagnostics.graphKeyScopes)).sum
        reusedEdgeIdRelationships :=
          (fragments.map (·.diagnostics.reusedEdgeIdRelationships)).sum
        relationshipAnomalies := (fragments.map (·.diagnostics.relationshipAnomalies)).sum } }

/-- One more fragment is merged into what the ones before it come to. -/
theorem mergeFragment_joined (hdone : EndsAgree (relationshipsOf fragments)) :
    mergeFragment (joined scope fragments) input = .ok out ↔
      EndsAgree (relationshipsOf (fragments ++ [input])) ∧
        out = joined scope (fragments ++ [input]) := by
  have hvertices : absorbAll mergeVertex (vertexEntries (fragments ++ [input])) =
      input.vertices.entries.foldl (absorb mergeVertex)
        (absorbAll mergeVertex (vertexEntries fragments)) := by
    rw [← absorbAll_append, vertexEntries, flatMap_append, flatMap_singleton]
    rfl
  have hrelationships : relationshipsOf (fragments ++ [input]) =
      relationshipsOf fragments ++ input.relationshipValues := by
    rw [relationshipsOf, flatMap_append, flatMap_singleton]
    rfl
  have hdef : mergeFragment (joined scope fragments) input =
      input.relationshipValues.foldlM addRelationship
        (input.vertices.entries.foldl addVertex (joined scope fragments)) >>=
          fun output => .ok (addReports output input) := rfl
  have hjoined : joined scope (fragments ++ [input]) = addReports
      (((joined scope fragments).withVertices (absorbAll mergeVertex
        (vertexEntries (fragments ++ [input])))).withRelationships
          (absorbAll mergeRelationship
            (byVariant (relationshipsOf (fragments ++ [input]))))) input := by
    simp [joined, addReports, ResolvedScope.withVertices, ResolvedScope.withRelationships]
  rw [hdef, foldl_addVertex, hjoined, hvertices, hrelationships]
  rw [Except.bind_eq_ok_iff_of fun mid => foldlM_addRelationship_eq_ok_iff rfl hdone]
  exact and_congr_right' Except.ok_eq_ok

/-- The loop over the fragments succeeds when the ends of their relationships agree. -/
theorem mergeFragments_eq_ok_iff :
    mergeFragments scope fragments = .ok out ↔
      EndsAgree (relationshipsOf fragments) ∧ out = joined scope fragments := by
  refine foldlM_eq_ok_iff (P := fun done => EndsAgree (relationshipsOf done))
    nofun (fun done input hdone out => mergeFragment_joined hdone) fun done input h => ?_
  exact (relationshipsOf_append [input] ▸ h).of_append

/-! ## Finishing the scope -/

/-- The first relationship of each variant id. -/
def leaders : List ResolvedRelationship → List ResolvedRelationship
  | [] => []
  | r :: relationships => r :: (leaders relationships).filter (·.variantId ≠ r.variantId)

theorem mem_leaders :
    r ∈ leaders relationships ↔ relationships.find? (·.variantId = r.variantId) = some r := by
  induction relationships with
  | nil => simp [leaders]
  | cons first relationships ih =>
    rw [leaders, mem_cons, mem_filter, ih, find?_cons]
    by_cases h : first.variantId = r.variantId
    · simp [h, eq_comm]
    · have hne : r ≠ first := fun heq => h (heq ▸ rfl)
      simp [h, hne, Ne.symm h]

theorem variantsDistinct_leaders : VariantsDistinct (leaders relationships) := by
  induction relationships with
  | nil => exact nodup_nil
  | cons first relationships ih =>
    refine nodup_cons.2 ⟨fun hmem => ?_, ih.sublist (filter_sublist.map _)⟩
    obtain ⟨r, hr, heq⟩ := mem_map.1 hmem
    simpa [heq] using (mem_filter.1 hr).2

/-- Without repeated variant ids every relationship leads. -/
theorem leaders_eq_self (h : VariantsDistinct relationships) :
    leaders relationships = relationships := by
  induction relationships with
  | nil => rfl
  | cons first relationships ih =>
    obtain ⟨hfirst, hrest⟩ := nodup_cons.1 h
    rw [leaders, ih hrest, filter_eq_self.2 fun r hr => ?_]
    have hne : r.variantId ≠ first.variantId := fun heq => hfirst (mem_map.2 ⟨r, hr, heq⟩)
    simpa using hne

/-- The relationship apart from what a merge may change. -/
def ResolvedRelationship.bare (r : ResolvedRelationship) : ResolvedRelationship :=
  { r with id := 0, properties := ∅, sources := [] }

/-- The identity of the first relationship of a variant id. -/
def firstOf (relationships : List ResolvedRelationship) (v : Nat) : Option ResolvedRelationship :=
  (relationships.find? (·.variantId = v)).map (·.bare)

theorem firstOf_append :
    firstOf (relationships ++ relationships') v =
      (firstOf relationships v).or (firstOf relationships' v) := by
  unfold firstOf
  rw [find?_append]
  cases relationships.find? (·.variantId = v) <;> rfl

theorem firstOf_eq_some :
    firstOf relationships v = some x ↔
      ∃ r ∈ leaders relationships, r.variantId = v ∧ r.bare = x := by
  unfold firstOf
  rw [Option.map_eq_some_iff]
  constructor
  · rintro ⟨r, hfind, hx⟩
    have hv : r.variantId = v := by simpa using find?_some hfind
    exact ⟨r, mem_leaders.2 (hv ▸ hfind), hv, hx⟩
  · rintro ⟨r, hr, rfl, hx⟩
    exact ⟨r, mem_leaders.1 hr, hx⟩

/-- Relationships whose first ones have the same identities get the same ids. -/
theorem idsDistinct_leaders_congr (h : ∀ v, firstOf relationships v = firstOf relationships' v) :
    IdsDistinct (leaders relationships) ↔ IdsDistinct (leaders relationships') := by
  have hnodup rs : ((leaders rs).map (·.bare)).Nodup :=
    Nodup.of_map (·.variantId) (by rw [map_map]; exact variantsDistinct_leaders)
  have hmem rs x :
      x ∈ (leaders rs).map (·.bare) ↔ ∃ v, firstOf rs v = some x := by
    simp only [mem_map, firstOf_eq_some]
    exact ⟨fun ⟨r, hr, hx⟩ => ⟨_, r, hr, rfl, hx⟩, fun ⟨_, r, hr, _, hx⟩ => ⟨r, hr, hx⟩⟩
  have hperm : ((leaders relationships).map (·.bare)).Perm
      ((leaders relationships').map (·.bare)) :=
    (perm_ext_iff_of_nodup (hnodup _) (hnodup _)).2 fun x => by simp [hmem, h]
  rw [← idsDistinct_map (f := (·.bare)) (fun _ => rfl) (fun _ => rfl), idsDistinct_perm hperm,
    idsDistinct_map (f := (·.bare)) (fun _ => rfl) fun _ => rfl]

/-- The relationships of the fragments after merging, before they get their ids. -/
def members (fragments : List ResolvedScope) : List ResolvedRelationship :=
  ((absorbAll mergeRelationship (byVariant (relationshipsOf fragments))).1.mapValues
    (·.tidySources)).values

/-- What stands at a variant id has the identity of the first relationship that came with it. -/
theorem bare_absorbAll (relationships : List ResolvedRelationship) (v : Nat) :
    ((absorbAll mergeRelationship (byVariant relationships)).1.get v).map (·.bare) =
      firstOf relationships v := by
  rw [map_get_absorbAll _ (fun x y => (rfl : (mergeRelationship x y).bare = x.bare)),
    byVariant, find?_map, Option.map_map]
  rfl

theorem mem_members :
    r ∈ members fragments ↔ ∃ v r',
      (absorbAll mergeRelationship (byVariant (relationshipsOf fragments))).1.get v =
        some r' ∧ r'.tidySources = r := by
  simp [members, mem_values, get_mapValues]

theorem variantId_of_get_absorbAll
    (h : (absorbAll mergeRelationship (byVariant relationships)).1.get v = some r) :
    r.variantId = v := by
  have hbare := bare_absorbAll relationships v
  rw [h] at hbare
  obtain ⟨first, -, hfirst, heq⟩ := firstOf_eq_some.1 hbare.symm
  exact (congrArg (·.variantId) heq).symm.trans hfirst

theorem variantsDistinct_members : VariantsDistinct (members fragments) := by
  refine nodup_map_values fun v r hr => ?_
  rw [get_mapValues] at hr
  obtain ⟨r', hget, rfl⟩ := Option.map_eq_some_iff.1 hr
  have hvariant : r'.variantId = v := variantId_of_get_absorbAll hget
  exact hvariant

/-- The merged relationships have the identities of the first ones. -/
theorem firstOf_members (v : Nat) :
    firstOf (members fragments) v = firstOf (relationshipsOf fragments) v := by
  ext x
  rw [firstOf_eq_some, leaders_eq_self variantsDistinct_members, ← bare_absorbAll,
    Option.map_eq_some_iff]
  constructor
  · rintro ⟨r, hr, rfl, rfl⟩
    obtain ⟨v, r', hget, rfl⟩ := mem_members.1 hr
    obtain rfl := variantId_of_get_absorbAll hget
    exact ⟨r', hget, rfl⟩
  · rintro ⟨r', hget, rfl⟩
    have hvariant : r'.variantId = v := variantId_of_get_absorbAll hget
    exact ⟨r'.tidySources, mem_members.2 ⟨v, r', hget, rfl⟩, hvariant, rfl⟩

theorem idsDistinct_members :
    IdsDistinct (members fragments) ↔ IdsDistinct (leaders (relationshipsOf fragments)) := by
  rw [← idsDistinct_leaders_congr firstOf_members, leaders_eq_self variantsDistinct_members]

/-- Fragments that can be merged: relationships of one variant have the same ends, and the ids of
the relationships are distinct. -/
structure Mergeable (fragments : List ResolvedScope) : Prop where
  ends : EndsAgree (relationshipsOf fragments)
  ids : IdsDistinct (leaders (relationshipsOf fragments))

/-- What the fragments of a scope come to. -/
def settled (scope : Scope) (fragments : List ResolvedScope) : ResolvedScope :=
  { (joined scope fragments).tidy with relationships := canonicalMap (members fragments) }

/-- Merging the fragments of a scope and finishing it succeeds when they are mergeable. -/
theorem mergeScope_eq_ok_iff :
    mergeFragments scope fragments >>= finishScope = .ok out ↔
      Mergeable fragments ∧ out = settled scope fragments := by
  have hfinish : finishScope (joined scope fragments) = .ok out ↔
      IdsDistinct (members fragments) ∧ out = settled scope fragments :=
    canonicalizeRelationshipIds_eq_ok_iff variantsDistinct_members
  rw [Except.bind_eq_ok_iff_of fun _ => mergeFragments_eq_ok_iff, hfinish, idsDistinct_members]
  rw [← and_assoc]
  exact and_congr_left' ⟨fun h => ⟨h.1, h.2⟩, fun h => ⟨h.ends, h.ids⟩⟩

/-! ## Fragments of several scopes -/

/-- The scopes fragments belong to, in order. -/
def scopesOf (fragments : List ResolvedScope) : List Scope :=
  sortDedup (fragments.map (·.scope))

theorem mem_scopesOf : scope ∈ scopesOf fragments ↔ fragmentsOf scope fragments ≠ [] := by
  rw [scopesOf, mem_sortDedup, mem_map, Ne, fragmentsOf, filter_eq_nil_iff]
  simp

theorem fragmentsOf_concat :
    fragmentsOf scope (fragments ++ [input]) =
      if scope = input.scope then fragmentsOf scope fragments ++ [input]
      else fragmentsOf scope fragments := by
  by_cases h : scope = input.scope <;> simp [fragmentsOf, h, Ne.symm]

/-- The fragments of each scope taken together. -/
def collected (fragments : List ResolvedScope) : OrdMap Scope ResolvedScope :=
  .ofEntries ((scopesOf fragments).map fun scope =>
    (scope, joined scope (fragmentsOf scope fragments)))

theorem get_collected :
    (collected fragments).get scope =
      if fragmentsOf scope fragments = [] then none
      else some (joined scope (fragmentsOf scope fragments)) := by
  have hkeys : ((scopesOf fragments).map fun scope =>
      (scope, joined scope (fragmentsOf scope fragments))).map Prod.fst = scopesOf fragments := by
    rw [map_map]
    exact map_id _
  have hnodup := congrArg Nodup hkeys ▸ nodup_sortDedup
  split
  · next h =>
    rw [collected, get_ofEntries_eq_none, hkeys, mem_scopesOf]
    exact not_not.2 h
  · next h =>
    rw [collected, get_ofEntries hnodup]
    exact mem_map.2 ⟨scope, mem_scopesOf.2 h, rfl⟩

theorem collected_concat :
    collected (fragments ++ [input]) = (collected fragments).put input.scope
      (joined input.scope (fragmentsOf input.scope fragments ++ [input])) := by
  refine ext_get fun scope => ?_
  rw [get_collected, fragmentsOf_concat, get_put, get_collected]
  by_cases h : scope = input.scope <;> simp [h]

/-- One more fragment is merged into its scope. -/
theorem collectFragment_collected
    (hends : EndsAgree (relationshipsOf (fragmentsOf input.scope fragments))) :
    collectFragment (collected fragments) input = .ok outputs ↔
      EndsAgree (relationshipsOf (fragmentsOf input.scope fragments ++ [input])) ∧
        outputs = collected (fragments ++ [input]) := by
  have hbefore : ((collected fragments).get input.scope).getD (.empty input.scope) =
      joined input.scope (fragmentsOf input.scope fragments) := by
    rw [get_collected]
    split
    · next h => rw [h]; rfl
    · rfl
  have hdef : collectFragment (collected fragments) input =
      mergeFragment (joined input.scope (fragmentsOf input.scope fragments)) input >>=
        fun output => .ok ((collected fragments).put input.scope output) := by
    rw [← hbefore]
    rfl
  rw [hdef, Except.bind_eq_ok_iff_of fun _ => mergeFragment_joined hends, collected_concat]
  exact and_congr_right' Except.ok_eq_ok

/-- The loop over fragments merges those of each scope. -/
theorem foldlM_collectFragment_eq_ok_iff :
    fragments.foldlM collectFragment ∅ = .ok outputs ↔
      (∀ scope, EndsAgree (relationshipsOf (fragmentsOf scope fragments))) ∧
        outputs = collected fragments := by
  have hends done input :
      (∀ scope, EndsAgree (relationshipsOf (fragmentsOf scope (done ++ [input])))) ↔
      (∀ scope, EndsAgree (relationshipsOf (fragmentsOf scope done))) ∧
        EndsAgree (relationshipsOf (fragmentsOf input.scope done ++ [input])) := by
    simp only [fragmentsOf_concat]
    constructor
    · intro h
      refine ⟨fun scope => ?_, by simpa using h input.scope⟩
      have hscope := h scope
      split at hscope
      · rw [relationshipsOf_append] at hscope
        exact hscope.of_append
      · exact hscope
    · rintro ⟨hbefore, hinput⟩ scope
      split
      · next h => rw [h]; exact hinput
      · exact hbefore scope
  refine foldlM_eq_ok_iff
    (g := collected) nofun (fun done input hdone outputs => ?_) fun done input h =>
      ((hends done input).1 h).1
  rw [hends, and_iff_right hdone]
  exact collectFragment_collected (hdone input.scope)

theorem Mergeable.nil : Mergeable [] := ⟨nofun, nodup_nil⟩

theorem forall_mergeable_iff :
    (∀ scope ∈ scopesOf fragments, Mergeable (fragmentsOf scope fragments)) ↔
      ∀ scope, Mergeable (fragmentsOf scope fragments) := by
  refine ⟨fun h scope => ?_, fun h scope _ => h scope⟩
  by_cases hnil : fragmentsOf scope fragments = []
  · rw [hnil]
    exact .nil
  · exact h scope (mem_scopesOf.2 hnil)

/-- Merging succeeds when the fragments of each scope are mergeable, and gives what they come
to. -/
theorem mergeScopes_eq_ok_iff {out : List ResolvedScope} :
    mergeScopes fragments = .ok out ↔
      (∀ scope, Mergeable (fragmentsOf scope fragments)) ∧
        out = (scopesOf fragments).map fun scope =>
          settled scope (fragmentsOf scope fragments) := by
  have hentries : (collected fragments).entries = (scopesOf fragments).map fun scope =>
      (scope, joined scope (fragmentsOf scope fragments)) :=
    entries_ofEntries (pairwise_map.2 pairwise_keys)
  have hfinish : (∀ scope, EndsAgree (relationshipsOf (fragmentsOf scope fragments))) →
      ((collected fragments).entries.mapM (fun entry => finishScope entry.2) = .ok out ↔
        (∀ scope ∈ scopesOf fragments, Mergeable (fragmentsOf scope fragments)) ∧
          out = (scopesOf fragments).map fun scope =>
            settled scope (fragmentsOf scope fragments)) := by
    intro hends
    rw [hentries, mapM_map]
    refine mapM_eq_ok_iff fun scope _ out => ?_
    rw [← mergeScope_eq_ok_iff, mergeFragments_eq_ok_iff.2 ⟨hends scope, rfl⟩, Except.ok_bind]
    rfl
  rw [mergeScopes, Except.bind_eq_ok_iff_of fun _ => foldlM_collectFragment_eq_ok_iff]
  rw [forall_mergeable_iff] at hfinish
  exact ⟨fun h => (hfinish h.1).1 h.2, fun h =>
    have hends := fun scope => (h.1 scope).ends
    ⟨hends, (hfinish hends).2 h⟩⟩

end HydraDb.Import
