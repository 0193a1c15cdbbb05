import HydraDb.Commit.Edge
import HydraDb.Commit.ImportRows
import HydraDb.Invariant.VertexIndex
import HydraDb.Write.Metadata

/-!
# Metadata updates as steps

The operations of `Write/Metadata.lean`, read as sequences of steps that end with nothing owed.
None of them changes an edge.

The property values of vertices that are stored come from the records, which are in canonical form,
and from the caller: when the caller's are in canonical form, all of them are
(`VertexMetadata.Form`).
-/

namespace HydraDb

open OrdMap List

variable {F : VertexMetadata → Prop} {n : StorageSequence} {c c' : Cell}
  {canonical : Bool} {updates : List (VertexId × VertexMetadata)}
  {cellId : CellId} {r : Nat} {s : VertexStore} {grouped : List (VertexId × List VertexMetadata)}

/-! ## The form of what is stored -/

/-- Metadata whose values are in canonical form, if that is asked for. -/
def VertexMetadata.Form (canonical : Bool) (metadata : VertexMetadata) : Prop :=
  canonical = true → metadata.properties.Canonical

namespace VertexMetadata.Form

theorem default : (default : VertexMetadata).Form canonical :=
  nofun

theorem merge (h : m.Form canonical) (h' : m'.Form canonical) :
    (mergeVertexMetadata m m').Form canonical :=
  fun hc => (h hc).extend (h' hc)

theorem foldRow (h : m.Form canonical) (h' : m'.Form canonical) :
    (foldVertexMetadataRow mergePolicy m m').Form canonical :=
  fun hc => (h hc).putAll fun e he => h' hc e (mem_filter.1 he).1

/-- The stored record of a vertex, or the empty one. -/
theorem stored (h : canonical = true → s.RecordsCanonical) :
    ((s.records.get v).getD Inhabited.default).Form canonical := by
  cases hget : s.records.get v with
  | none => exact .default
  | some metadata => exact fun hc => h hc v metadata hget

end VertexMetadata.Form

theorem form_changedMetadata (hs : canonical = true → s.RecordsCanonical)
    (hu : ∀ u ∈ updates, u.2.Form canonical) :
    ∀ u ∈ changedMetadata s updates, u.2.2.Form canonical := by
  rw [changedMetadata, filterMap_ite]
  intro u hmem
  obtain ⟨x, hx, rfl⟩ := mem_map.1 hmem
  exact (VertexMetadata.Form.stored hs).merge (hu x (mem_filter.1 hx).1)

/-- Loops that put values into a map: what holds of a value when it holds of the one that it
replaces holds of every value. -/
theorem forall_entries_of_foldlM_put {α K V : Type} [LinearOrder K] {P : V → Prop}
    {f : OrdMap K V → α → Except GraphError (OrdMap K V)} {items : List α} {m : OrdMap K V}
    (h : items.foldlM f ∅ = .ok m)
    (step : ∀ a ∈ items, ∀ m m', f m a = .ok m' →
      ∃ k v, m' = m.put k v ∧ ((∀ v, m.get k = some v → P v) → P v)) :
    ∀ e ∈ m.entries, P e.2 := by
  refine fun e he => foldlM_ok_invariant (P := fun m =>
    ∀ k v, m.get k = some v → P v) h nofun ?_ e.1 e.2 (mem_entries.1 he)
  intro a ha m m' hm hstep
  obtain ⟨k, v, rfl, hv⟩ := step a ha m m' hstep
  exact forall_get_put hm (hv (hm k))

theorem form_coalesceVertexMetadataUpdates (hu : ∀ u ∈ updates, u.2.Form canonical)
    (h : coalesceVertexMetadataUpdates updates = .ok updates') :
    ∀ u ∈ updates', u.2.Form canonical := by
  obtain ⟨byVertex, hloop, h⟩ := bind_ok h
  cases h
  refine forall_entries_of_foldlM_put hloop fun u hmem byVertex byVertex' hstep => ?_
  replace hstep := seq_ok hstep
  obtain ⟨properties, hproperties, hstep⟩ := bind_ok hstep
  cases hstep
  refine ⟨_, _, rfl, fun hold hc => ?_⟩
  refine foldlM_ok_invariant hproperties ?_ ?_
  · cases hget : byVertex.get u.1 with
    | none => exact VertexMetadata.Form.default hc
    | some => exact hold _ hget hc
  intro e he properties properties' hp hput
  unfold coalesceProperty at hput
  split at hput
  · replace hput := rest_of_ne hput nofun
    cases hput
    exact hp.put (hu u hmem hc e he)
  · cases hput
    exact hp.put (hu u hmem hc e he)

theorem form_addMergeRow (hpatches : ∀ p ∈ patches, p.Form canonical) (hrow : row.Form canonical) :
    ∀ p ∈ addMergeRow mergePolicy patches row, p.Form canonical := by
  intro p hp
  unfold addMergeRow at hp
  split at hp
  · next folded hlast =>
    have hfolded : folded.Form canonical := hpatches folded (mem_of_getLast? hlast)
    split at hp <;> rcases mem_append.1 hp with hp | hp
    · exact hpatches p (dropLast_subset _ hp)
    · cases mem_singleton.1 hp
      exact hfolded.foldRow hrow
    · exact hpatches p hp
    · cases mem_singleton.1 hp
      exact hrow
  · cases mem_singleton.1 hp
    exact hrow

theorem form_groupVertexMetadataMerges (hu : ∀ u ∈ updates, u.2.Form canonical)
    (h : groupVertexMetadataMerges updates mergePolicy = .ok grouped) :
    ∀ u ∈ grouped, ∀ p ∈ u.2, p.Form canonical := by
  obtain ⟨byVertex, hloop, h⟩ := bind_ok h
  cases h
  refine forall_entries_of_foldlM_put (P := fun patches => ∀ p ∈ patches, p.Form canonical) hloop
    fun u hmem byVertex byVertex' hstep => ?_
  replace hstep := seq_ok hstep
  cases hstep
  refine ⟨_, _, rfl, fun hold => form_addMergeRow ?_ (hu u hmem)⟩
  cases hget : byVertex.get u.1 with
  | none => exact nofun
  | some => exact hold _ hget

/-- What the merge loop of a vertex holds is in canonical form. -/
def VertexMergeState.Form (canonical : Bool) (st : VertexMergeState) : Prop :=
  st.merged.Form canonical ∧ ∀ row, st.waiting = some row → row.Form canonical

theorem VertexMergeState.Form.row {st : VertexMergeState}
    (hst : st.Form canonical) (hpatch : patch.Form canonical) (policy : QueryBatchMergePolicy) :
    (match st.waiting with
      | some folded => foldVertexMetadataRow (some policy) folded patch
      | none => patch).Form canonical := by
  cases hwaiting : st.waiting with
  | none => exact hpatch
  | some folded => exact (hst.2 folded hwaiting).foldRow hpatch

theorem VertexMergeState.Form.step
    {st : VertexMergeState} (hst : st.Form canonical) (hpatch : patch.Form canonical)
    (h : st.step policy key patch = .ok st') : st'.Form canonical := by
  unfold VertexMergeState.step at h
  split at h
  · cases h
    unfold VertexMergeState.ride
    split
    · exact ⟨hst.1.foldRow hpatch, hst.2⟩
    · exact ⟨hst.1, fun row hrow => Option.some.inj hrow ▸ hst.row hpatch policy⟩
  dsimp only at h
  have hrow := hst.row hpatch policy
  split at h
  · obtain ⟨result, hresult, h⟩ := bind_ok h
    split at h
    · cases h; exact hst
    · cases h
      refine ⟨hst.1.merge fun hc => ?_, nofun⟩
      exact guardedMetadataPatch_canonical (hrow hc) hresult
  · cases h
    exact ⟨hst.1.merge hrow, nofun⟩

theorem form_applyVertexMetadataMerges (hprevious : previous.Form canonical)
    (hpatches : ∀ p ∈ patches, p.Form canonical)
    (h : applyVertexMetadataMerges previous existed patches mergePolicy key = .ok merged) :
    merged.Form canonical := by
  cases mergePolicy with
  | none =>
    cases h
    exact foldl_invariant hprevious fun p hp _ hm => hm.merge (hpatches p hp)
  | some =>
    obtain ⟨st, hloop, h⟩ := bind_ok h
    have hst : st.Form canonical := foldlM_ok_invariant hloop
      ⟨hprevious, nofun⟩ fun p hp _ _ hm => hm.step (hpatches p hp)
    unfold VertexMergeState.finish at h
    split at h
    · cases h; exact hst.1
    next row hrow =>
    split at h
    · cases h; exact hst.1.merge (hst.2 row hrow)
    split at h
    · replace h := seq_ok h
      cases h; exact hst.1
    · cases h; exact hst.1

/-! ## Vertex metadata -/

theorem Cell.commitChangedMetadata_committed (distinct : (changed.map Prod.fst).Nodup)
    (previous : ∀ u ∈ changed, u.2.1 = (c.vertices.records.get u.1).getD default)
    (form : ∀ u ∈ changed, F u.2.2)
    (h : c.commitChangedMetadata cellId changed n = .ok (.commit c' r)) :
    Committed F g (n + 1) c c' := by
  replace h := rest_of_ne h nofun
  replace h := seq_ok h
  obtain ⟨c₁, hc₁, h⟩ := bind_ok h
  cases commitTxn_ok h
  exact Steps.applyChangedMetadata distinct previous hc₁ form

theorem setVertexMetadata_committed {r : Unit}
    (form : F metadata) (h : setVertexMetadata cellId vertex metadata n c = .ok (.commit c' r)) :
    Committed F g (n + 1) c c' := by
  replace h := seq_ok₃ h
  replace h := rest_of_ne h nofun
  replace h := seq_ok h
  obtain ⟨vertices, hwritten, h⟩ := bind_ok h
  cases commitTxn_ok h
  exact .single (.putVertex vertex metadata vertices form hwritten)

theorem setVertexMetadataBatch_committed (hu : ∀ u ∈ updates, u.2.Form canonical)
    (h : setVertexMetadataBatch env cellId updates n c = .ok (.commit c' r)) :
    Committed (VertexMetadata.Form canonical) g (n + 1) c c' := by
  replace h := seq_ok h
  obtain ⟨coalesced, hcoalesced, h⟩ := bind_ok h
  replace h := rest_of_ne h nofun
  replace h := seq_ok₂ h
  rw [replacedMetadata, filterMap_ite] at h
  refine Cell.commitChangedMetadata_committed ?_ (fun u hmem => ?_) (fun u hmem => ?_) h
  · rw [map_map]
    exact (nodup_coalesceVertexMetadataUpdates hcoalesced).sublist (filter_sublist.map _)
  all_goals obtain ⟨x, hx, rfl⟩ := mem_map.1 hmem
  · rfl
  · exact form_coalesceVertexMetadataUpdates hu hcoalesced x (mem_filter.1 hx).1

/-- A loop that collects updates, at most one for each element and each over the value read at
its key. -/
theorem collectChanges_ok {α K V : Type} {P : V → Prop} (key : α → K) (read : K → V)
    {f : List (K × V × V) → α → Except GraphError (List (K × V × V))}
    {items : List α} {changed : List (K × V × V)}
    (hf : ∀ acc, ∀ a ∈ items, ∀ acc', f acc a = .ok acc' → acc' = acc ∨
      ∃ next, P next ∧ acc' = acc ++ [(key a, read (key a), next)])
    (h : items.foldlM f [] = .ok changed) :
    (changed.map Prod.fst).Sublist (items.map key) ∧ (∀ u ∈ changed, u.2.1 = read u.1) ∧
      ∀ u ∈ changed, P u.2.2 := by
  refine foldlM_ok_induction (P := fun done changed =>
    (changed.map Prod.fst).Sublist (done.map key) ∧ (∀ u ∈ changed, u.2.1 = read u.1) ∧
      ∀ u ∈ changed, P u.2.2) h
    ⟨.slnil, nofun, nofun⟩ ?_
  rintro done a rest acc acc' hitems ⟨hsub, hprevious, hform⟩ hstep
  rw [map_append]
  rcases hf acc a (mem_of_next hitems) acc' hstep with rfl | ⟨next, hnext, rfl⟩
  · exact ⟨hsub.trans (sublist_append_left _ _), hprevious, hform⟩
  · rw [map_append]
    exact ⟨hsub.append (.refl _), forall_mem_snoc.2 ⟨hprevious, rfl⟩,
      forall_mem_snoc.2 ⟨hform, hnext⟩⟩

theorem importedMetadata_ok (form : F u.2)
    (h : importedMetadata cellId s acc u = .ok acc') : acc' = acc ∨
      ∃ next, F next ∧ acc' = acc ++ [(u.1, (s.records.get u.1).getD default, next)] := by
  unfold importedMetadata at h
  dsimp only at h
  split at h
  · cases h; exact .inl rfl
  · split at h
    · cases h
    · cases h; exact .inr ⟨_, form, rfl⟩

theorem mergedMetadata_ok (hs : canonical = true → s.RecordsCanonical)
    (hu : ∀ p ∈ u.2, p.Form canonical)
    (h : mergedMetadata cellId s mergePolicy acc u = .ok acc') : acc' = acc ∨
      ∃ next, next.Form canonical ∧
        acc' = acc ++ [(u.1, (s.records.get u.1).getD default, next)] := by
  obtain ⟨merged, hmerged, h⟩ := bind_ok h
  cases h
  split
  · exact .inr ⟨merged, form_applyVertexMetadataMerges (.stored hs) hu hmerged, rfl⟩
  · exact .inl rfl

theorem importVertexMetadataBatch_committed (hu : ∀ u ∈ updates, u.2.Form canonical)
    (h : importVertexMetadataBatch env cellId updates n c = .ok (.commit c' r)) :
    Committed (VertexMetadata.Form canonical) g (n + 1) c c' := by
  replace h := seq_ok h
  obtain ⟨coalesced, hcoalesced, h⟩ := bind_ok h
  replace h := rest_of_ne h nofun
  replace h := seq_ok₂ h
  obtain ⟨changed, hchanged, h⟩ := bind_ok h
  have hform := form_coalesceVertexMetadataUpdates hu hcoalesced
  obtain ⟨hsub, hprevious, hchanged⟩ := collectChanges_ok Prod.fst
    (fun v => (c.vertices.records.get v).getD default)
    (fun _ u hmem _ => importedMetadata_ok (hform u hmem)) hchanged
  exact Cell.commitChangedMetadata_committed
    ((nodup_coalesceVertexMetadataUpdates hcoalesced).sublist hsub) hprevious hchanged h

/-- The patches of a merge are grouped by vertex. -/
theorem nodup_groupVertexMetadataMerges
    (h : groupVertexMetadataMerges updates mergePolicy = .ok grouped) :
    (grouped.map Prod.fst).Nodup := by
  obtain ⟨byVertex, -, h⟩ := bind_ok h
  cases h
  exact nodup_keys

theorem mergeVertexMetadataBatch_committed (hs : canonical = true → c.vertices.RecordsCanonical)
    (hu : ∀ u ∈ updates, u.2.Form canonical)
    (h : mergeVertexMetadataBatch env cellId updates mergePolicy n c = .ok (.commit c' r)) :
    Committed (VertexMetadata.Form canonical) g (n + 1) c c' := by
  replace h := seq_ok₂ h
  obtain ⟨grouped, hgrouped, h⟩ := bind_ok h
  replace h := rest_of_ne h nofun
  replace h := seq_ok₂ h
  obtain ⟨changed, hchanged, h⟩ := bind_ok h
  have hform := form_groupVertexMetadataMerges hu hgrouped
  obtain ⟨hsub, hprevious, hchanged⟩ := collectChanges_ok Prod.fst
    (fun v => (c.vertices.records.get v).getD default)
    (fun _ u hmem _ => mergedMetadata_ok hs (hform u hmem)) hchanged
  exact Cell.commitChangedMetadata_committed
    ((nodup_groupVertexMetadataMerges hgrouped).sublist hsub) hprevious hchanged h

/-! ## The preflight of a merge -/

theorem putAll_entries_eq_self [LinearOrder K] {m m' : OrdMap K V} :
    m.putAll m'.entries = m ↔ ∀ e ∈ m'.entries, m.get e.1 = some e.2 := by
  have hvalue : ∀ e ∈ m'.entries, (m.putAll m'.entries).get e.1 = some e.2 := by
    intro e he
    refine get_putAll_of_mem he fun x hx heq => ?_
    exact Option.some.inj ((mem_entries.1 (heq ▸ hx)).symm.trans (mem_entries.1 he))
  constructor
  · intro h e he
    rw [← hvalue e he, h]
  intro h
  refine ext_get fun k => ?_
  cases hk : m'.get k with
  | some v =>
    have hmem := mem_entries.2 hk
    exact (hvalue (k, v) hmem).trans (h (k, v) hmem).symm
  | none =>
    refine get_putAll_of_notMem fun e he heq => ?_
    rw [← heq, mem_entries.1 he] at hk
    cases hk

/-- The check of the preflight: a patch changes nothing. -/
theorem mergeVertexMetadata_eq_self :
    (patch.labels.keys.all previous.labels.contains &&
      patch.properties.entries.all fun e => decide (previous.properties.get e.1 = some e.2)) =
        true ↔ mergeVertexMetadata previous patch = previous := by
  have hlabels : patch.labels.keys.all previous.labels.contains = true ↔
      previous.labels.putAll patch.labels.entries = previous.labels := by
    rw [putAll_entries_eq_self, OrdMap.keys, all_map, all_eq_true]
    refine forall₂_congr fun e _ => contains_iff.trans ?_
    cases previous.labels.get e.1 <;> simp
  rw [Bool.and_eq_true, hlabels, all_eq_true]
  simp only [decide_eq_true_eq]
  rw [← putAll_entries_eq_self]
  constructor
  · rintro ⟨hlabels, hproperties⟩
    exact congrArg₂ VertexMetadata.mk hlabels hproperties
  · intro h
    exact ⟨congrArg VertexMetadata.labels h, congrArg VertexMetadata.properties h⟩

/-- Without a policy the rows of a vertex fold into one patch. -/
theorem length_groupVertexMetadataMerges (h : groupVertexMetadataMerges updates none = .ok grouped)
    : ∀ u ∈ grouped, ∃ patch, u.2 = [patch] := by
  obtain ⟨byVertex, hloop, h⟩ := bind_ok h
  cases h
  refine forall_entries_of_foldlM_put (P := fun patches => ∃ patch, patches = [patch]) hloop
    fun u _ byVertex byVertex' hstep => ?_
  replace hstep := seq_ok hstep
  cases hstep
  refine ⟨_, _, rfl, fun hold => ?_⟩
  cases hget : byVertex.get u.1 with
  | none => exact ⟨_, rfl⟩
  | some =>
    obtain ⟨patch, rfl⟩ := hold _ hget
    exact ⟨_, rfl⟩

/-- The updates that a merge without a policy makes. -/
def changedByMerge (s : VertexStore) (u : VertexId × List VertexMetadata) :
    Option (VertexId × VertexMetadata × VertexMetadata) :=
  let previous := (s.records.get u.1).getD default
  let merged := u.2.foldl mergeVertexMetadata previous
  if previous ≠ merged ∨ (s.records.get u.1).isNone then some (u.1, previous, merged) else none

theorem foldlM_mergedMetadata (cellId : CellId) (grouped : List (VertexId × List VertexMetadata)) :
    grouped.foldlM (mergedMetadata cellId s none) [] =
      .ok (grouped.filterMap (changedByMerge s)) := by
  have hloop : ∀ changed, grouped.foldlM (mergedMetadata cellId s none) changed =
      .ok (changed ++ grouped.filterMap (changedByMerge s)) := by
    induction grouped with
    | nil => exact fun changed => congrArg Except.ok (append_nil changed).symm
    | cons u grouped ih =>
      intro changed
      have hstep : mergedMetadata cellId s none changed u =
          .ok (changed ++ (changedByMerge s u).toList) := by
        change Except.ok (if _ then _ else _) = _
        unfold changedByMerge
        dsimp only
        split
        · rfl
        · exact congrArg Except.ok (append_nil changed).symm
      rw [foldlM_cons, hstep]
      refine (ih _).trans (congrArg Except.ok ?_)
      cases hu : changedByMerge s u <;> simp [hu]
  exact hloop []

/-- The preflight finds what the transaction finds. -/
theorem vertexMetadataMergesAreNoops_eq_true (single : ∀ u ∈ grouped, ∃ patch, u.2 = [patch]) :
    vertexMetadataMergesAreNoops true cellId grouped c = .ok true ↔
      ∃ r, mergeVertexMetadataBatchTxn cellId grouped none n c = .ok (.unchanged r) := by
  unfold vertexMetadataMergesAreNoops mergeVertexMetadataBatchTxn
  rw [if_neg (by decide)]
  cases c.validateWriteFence cellId "merge_vertex_metadata_batch" with
  | error =>
    constructor
    · rintro ⟨⟩
    · rintro ⟨_, ⟨⟩⟩
  | ok _ =>
    simp only [Except.ok_bind, foldlM_mergedMetadata]
    unfold Cell.commitChangedMetadata
    refine Iff.trans (b := grouped.filterMap (changedByMerge c.vertices) = []) ?_ ?_
    · rw [filterMap_eq_nil_iff]
      refine (Iff.of_eq (Except.ok.injEq _ _)).trans (all_eq_true.trans ?_)
      refine forall₂_congr fun u hu => ?_
      obtain ⟨patch, hpatch⟩ := single u hu
      cases hget : c.vertices.records.get u.1 with
      | none => simp [changedByMerge, hget]
      | some =>
        dsimp only
        rw [hpatch, all_cons, all_nil, Bool.and_true, mergeVertexMetadata_eq_self]
        simp [changedByMerge, hget, hpatch, eq_comm]
    constructor
    · intro h
      rw [h]
      exact ⟨0, rfl⟩
    rintro ⟨r, h⟩
    split at h
    · next hempty => exact isEmpty_iff.1 hempty
    replace h := seq_ok h
    obtain ⟨_, -, h⟩ := bind_ok h
    replace h := seq_ok h
    cases h

/-- The records that an update writes are read back. -/
theorem Cell.get_applyChangedMetadata
    (distinct : (changed.map Prod.fst).Nodup) (h : c.applyChangedMetadata changed = .ok c') :
    ∀ u ∈ changed, c'.vertices.records.get u.1 = some u.2.2.readBack := by
  obtain ⟨vertices, hloop, h⟩ := bind_ok h
  cases h
  refine foldlM_ok_induction (P := fun done s =>
    ∀ u ∈ done, s.records.get u.1 = some u.2.2.readBack) hloop
    nofun ?_
  intro done x rest s s' hl hdone hs' u hu
  rw [VertexStore.records_applyMetadataUpdate hs']
  rcases mem_snoc.1 hu with hu | rfl
  · have hne : u.1 ≠ x.1 := fun heq =>
      key_not_mem_done distinct hl (heq ▸ mem_map_of_mem hu)
    rw [get_put_of_ne hne, hdone u hu]
  · rw [get_put_self]

/-- A merge of values in canonical form that commits changes a record. -/
theorem vertices_ne_of_mergeVertexMetadataBatchTxn (distinct : (grouped.map Prod.fst).Nodup)
    (hu : ∀ u ∈ grouped, ∀ p ∈ u.2, p.properties.Canonical)
    (h : mergeVertexMetadataBatchTxn cellId grouped none n c = .ok (.commit c' r)) :
    c'.vertices ≠ c.vertices := by
  intro hsame
  replace h := seq_ok h
  rw [foldlM_mergedMetadata, Except.ok_bind] at h
  obtain ⟨hchanged, h⟩ := else_of_ne h nofun
  replace h := seq_ok h
  obtain ⟨c₁, hc₁, h⟩ := bind_ok h
  cases commitTxn_ok h
  obtain ⟨x, hx⟩ := exists_mem_of_ne_nil _ (mt isEmpty_iff.2 hchanged)
  obtain ⟨u, hmem, hux⟩ := mem_filterMap.1 hx
  have hkeys : ((grouped.filterMap (changedByMerge c.vertices)).map Prod.fst).Nodup := by
    unfold changedByMerge
    rw [filterMap_ite, map_map]
    exact distinct.sublist (filter_sublist.map _)
  have hread := Cell.get_applyChangedMetadata hkeys hc₁ x hx
  rw [hsame] at hread
  obtain ⟨hcond, hux⟩ := then_of_ne hux nofun
  cases hux
  generalize hprevious : (c.vertices.records.get u.1).getD default = previous at hread hcond
  -- the record that was there is the merged one as it is read back, so both are canonical
  have heq : previous = (u.2.foldl mergeVertexMetadata previous).readBack :=
    hprevious.symm.trans (by rw [hread, Option.getD_some])
  have hform : (u.2.foldl mergeVertexMetadata previous).Form true := by
    refine foldl_invariant (fun _ => ?_) fun p hp _ hm => hm.merge fun _ => hu u hmem p hp
    rw [heq]
    exact Properties.canonical_readBack _
  have hsame : (u.2.foldl mergeVertexMetadata previous).readBack =
      u.2.foldl mergeVertexMetadata previous := by
    rw [VertexMetadata.readBack, Properties.readBack_of_canonical (hform rfl)]
  rcases hcond with hne | hnone
  · exact hne (heq.trans hsame)
  · rw [hread] at hnone
    cases hnone

/-- The preflight of a merge without a policy, when it gets its permit: it answers that there is
nothing to change exactly when the transaction on the same state succeeds and commits no write, and
when the values of the batch are in the form in which they are read back, exactly when the
transaction succeeds and leaves the vertex tables as they are. -/
theorem vertexMetadataMergesAreNoops_exact {grouped : List (VertexId × List VertexMetadata)}
    (h : groupVertexMetadataMerges updates none = .ok grouped) (cellId : CellId)
    (n : StorageSequence) (c : Cell) :
    (vertexMetadataMergesAreNoops true cellId grouped c = .ok true ↔
      ∃ r, mergeVertexMetadataBatchTxn cellId grouped none n c = .ok (.unchanged r)) ∧
    ((∀ u ∈ updates, u.2.properties.Canonical) →
      (vertexMetadataMergesAreNoops true cellId grouped c = .ok true ↔
        ∃ outcome, mergeVertexMetadataBatchTxn cellId grouped none n c = .ok outcome ∧
          (outcome.committed.getD c).vertices = c.vertices)) := by
  have hiff : vertexMetadataMergesAreNoops true cellId grouped c = .ok true ↔
      ∃ r, mergeVertexMetadataBatchTxn cellId grouped none n c = .ok (.unchanged r) :=
    vertexMetadataMergesAreNoops_eq_true (length_groupVertexMetadataMerges h)
  refine ⟨hiff, fun hcanonical => ⟨fun htrue => ?_, ?_⟩⟩
  · obtain ⟨r, htxn⟩ := hiff.1 htrue
    exact ⟨_, htxn, rfl⟩
  rintro ⟨outcome, htxn, hsame⟩
  cases outcome with
  | unchanged result => exact hiff.2 ⟨result, htxn⟩
  | commit =>
    have hform : ∀ u ∈ grouped, ∀ p ∈ u.2, p.Form true :=
      form_groupVertexMetadataMerges (fun u hu _ => hcanonical u hu) h
    exact absurd hsame (vertices_ne_of_mergeVertexMetadataBatchTxn
      (nodup_groupVertexMetadataMerges h) (fun u hu p hp => hform u hu p hp rfl) htxn)

/-- The cell after one caller sets a property of a vertex to a signed integer. -/
def signedAgeCell (age : Int64) : Cell :=
  match setVertexMetadata "c" 1 ⟨∅, put ∅ "age" (.signedInteger age)⟩ 0 .empty with
  | .ok outcome => outcome.committed.getD .empty
  | .error _ => .empty

theorem vertexMetadataMergesAreNoops_exact_signedAge :
    vertexMetadataMergesAreNoops true "c"
        [(1, [⟨∅, put ∅ "age" (.signedInteger (-5))⟩])] (signedAgeCell (-5)) = .ok true ∧
      ∃ outcome, mergeVertexMetadataBatchTxn "c"
          [(1, [⟨∅, put ∅ "age" (.signedInteger (-5))⟩])] none 1 (signedAgeCell (-5)) =
            .ok outcome ∧
        (outcome.committed.getD (signedAgeCell (-5))).vertices = (signedAgeCell (-5)).vertices := by
  have hnoop : vertexMetadataMergesAreNoops true "c"
      [(1, [⟨∅, put ∅ "age" (.signedInteger (-5))⟩])] (signedAgeCell (-5)) = .ok true := by
    decide +kernel
  have hgroup : groupVertexMetadataMerges [(1, ⟨∅, put ∅ "age" (.signedInteger (-5))⟩)]
      none = .ok [(1, [⟨∅, put ∅ "age" (.signedInteger (-5))⟩])] := rfl
  refine ⟨hnoop, ((vertexMetadataMergesAreNoops_exact hgroup "c" 1 (signedAgeCell (-5))).2 ?_).1
    hnoop⟩
  decide +kernel

/-- Without a permit the preflight sees a change in a batch that changes nothing. And a signed
integer that is not negative is stored as an unsigned one: setting it again is a change to the
preflight, although the transaction writes the record and the index keys that are there. -/
theorem vertexMetadataMergesAreNoops_not_exact :
    (vertexMetadataMergesAreNoops false "c"
        [(1, [⟨∅, put ∅ "age" (.signedInteger (-5))⟩])] (signedAgeCell (-5)) = .ok false ∧
      ∃ r, mergeVertexMetadataBatchTxn "c"
        [(1, [⟨∅, put ∅ "age" (.signedInteger (-5))⟩])] none 1 (signedAgeCell (-5)) =
          .ok (.unchanged r)) ∧
    vertexMetadataMergesAreNoops true "c"
        [(1, [⟨∅, put ∅ "age" (.signedInteger 5)⟩])] (signedAgeCell 5) = .ok false ∧
      ∃ outcome, mergeVertexMetadataBatchTxn "c"
          [(1, [⟨∅, put ∅ "age" (.signedInteger 5)⟩])] none 1 (signedAgeCell 5) = .ok outcome ∧
        (outcome.committed.getD (signedAgeCell 5)).vertices = (signedAgeCell 5).vertices := by
  exact ⟨⟨rfl, 0, rfl⟩, by decide +kernel, _, rfl, rfl⟩

/-! ## Edge metadata -/

theorem setEdgeMetadata_committed {r : Bool}
    (h : setEdgeMetadata cellId k metadata n c = .ok (.commit c' r)) :
    Committed F g (n + 1) c c' := by
  replace h := seq_ok₂ h
  replace h := seq_ok₂ h
  replace h := rest_of_ne h nofun
  replace h := rest_of_ne h nofun
  replace h := seq_ok h
  obtain ⟨edgeMetadata, hwritten, h⟩ := bind_ok h
  cases commitTxn_ok h
  exact .single (.putEdgeMetadata k metadata edgeMetadata hwritten)

/-- Updates of distinct edges, each over the metadata the cell has. -/
theorem Steps.applyEdgeMetadataUpdates {changed : List (EdgeKey × EdgeMetadata × EdgeMetadata)}
    (distinct : (changed.map Prod.fst).Nodup)
    (previous : ∀ u ∈ changed, u.2.1 = c.edgeMetadata.read u.1)
    (h : changed.foldlM (fun (s : EdgeMetadataStore) u => s.applyUpdate u.1 u.2.1 u.2.2)
      c.edgeMetadata = .ok edgeMetadata) :
    Steps F g e ⟨c, l⟩ ⟨c.setEdgeMetadata edgeMetadata, l⟩ := by
  have key := foldlM_ok_induction
    (P := fun done s => Steps F g e ⟨c, l⟩ ⟨c.setEdgeMetadata s, l⟩ ∧
      ∀ k, k ∉ done.map Prod.fst → s.read k = c.edgeMetadata.read k)
    h ⟨.refl, fun _ _ => rfl⟩ ?_
  · exact key.1
  rintro done u rest s s' hl ⟨hsteps, hsame⟩ hs'
  have hu : u.1 ∉ done.map Prod.fst := key_not_mem_done distinct hl
  rw [previous u (mem_of_next hl), ← hsame u.1 hu] at hs'
  refine ⟨hsteps.tail (.putEdgeMetadata u.1 u.2.2 s' hs'), fun k hk => ?_⟩
  rw [not_mem_map_snoc] at hk
  rw [← hsame k hk.1]
  exact EdgeMetadataStore.read_applyUpdate_of_ne hs' hk.2

theorem changedEdgeMetadata_ok
    (h : changedEdgeMetadata c edgeType n acc u = .ok acc') : acc' = acc ∨
      ∃ next, True ∧ acc' =
        acc ++ [(⟨edgeType, u.1, u.2.1⟩, c.edgeMetadata.read ⟨edgeType, u.1, u.2.1⟩, next)] := by
  replace h := rest_of_ne h nofun
  cases h
  split
  · exact .inr ⟨_, trivial, rfl⟩
  · exact .inl rfl

theorem nodup_coalesceEdgeMetadataUpdates
    {updates : List (VertexId × VertexId × EdgeMetadata)}
    (h : coalesceEdgeMetadataUpdates updates = .ok coalesced) :
    (coalesced.map fun u => (⟨edgeType, u.1, u.2.1⟩ : EdgeKey)).Nodup := by
  obtain ⟨byEdge, -, h⟩ := bind_ok h
  cases h
  have hkeys : (byEdge.entries.map Prod.fst).Nodup := nodup_keys
  rw [map_map]
  change (byEdge.entries.map ((fun p =>
    (⟨edgeType, (ofLex p).1, (ofLex p).2⟩ : EdgeKey)) ∘ Prod.fst)).Nodup
  rw [← map_map]
  refine Nodup.map (fun p q hpq => ?_) hkeys
  injection hpq with _ hsrc hdst
  exact ofLex.injective (Prod.ext hsrc hdst)

theorem setEdgeMetadataBatch_committed {updates : List (VertexId × VertexId × EdgeMetadata)}
    (h : setEdgeMetadataBatch env cellId edgeType updates n c = .ok (.commit c' r)) :
    Committed F g (n + 1) c c' := by
  replace h := seq_ok₂ h
  obtain ⟨coalesced, hcoalesced, h⟩ := bind_ok h
  replace h := rest_of_ne h nofun
  replace h := seq_ok₂ h
  obtain ⟨changed, hchanged, h⟩ := bind_ok h
  replace h := rest_of_ne h nofun
  replace h := seq_ok h
  obtain ⟨edgeMetadata, hwritten, h⟩ := bind_ok h
  cases commitTxn_ok h
  obtain ⟨hsub, hprevious, -⟩ := collectChanges_ok
    (fun u => ⟨edgeType, u.1, u.2.1⟩)
    c.edgeMetadata.read (fun _ _ _ _ => changedEdgeMetadata_ok) hchanged
  exact Steps.applyEdgeMetadataUpdates
    ((nodup_coalesceEdgeMetadataUpdates hcoalesced).sublist hsub) hprevious hwritten

/-! ## Unique-identity pointers -/

theorem installPointer_ok {s : RelationshipStore}
    (h : installPointer cellId s p = .ok s') : ∃ merges, s' = { s with merges := merges } := by
  unfold installPointer at h
  split at h
  · split at h
    · cases h
    · cases h; exact ⟨_, rfl⟩
  · cases h; exact ⟨_, rfl⟩

theorem installRelationshipMergeIndexesBatch_committed
    (h : installRelationshipMergeIndexesBatch env cellId edgeType rows n c = .ok (.commit c' r)) :
    Committed F g (n + 1) c c' := by
  replace h := seq_ok₂ h
  replace h := rest_of_ne h nofun
  replace h := seq_ok₂ h
  obtain ⟨pointers, -, h⟩ := bind_ok h
  obtain ⟨relationships, hloop, h⟩ := bind_ok h
  cases commitTxn_ok h
  have key := foldlM_ok_induction
    (P := fun _ s => ∃ merges, s = { c.relationships with merges := merges })
    hloop ⟨_, rfl⟩ fun _ p _ s s' _ hs hs' => ?_
  · obtain ⟨merges, rfl⟩ := key
    exact .single (.putMerges merges)
  · obtain ⟨merges, rfl⟩ := hs
    obtain ⟨merges', rfl⟩ := installPointer_ok hs'
    exact ⟨merges', rfl⟩

end HydraDb
