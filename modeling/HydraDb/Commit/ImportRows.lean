import HydraDb.Commit.Relationship
import HydraDb.Write.RelationshipImport

/-!
# What the rows of a relationship import mean

The part of a relationship import before its writes, `Write/RelationshipImport.lean`: what the
resolution of the rows guarantees. No two rows name one relationship, a row that is inserted names
an id that is not in use, and a row that updates a record was read with the record it replaces.
-/

namespace HydraDb

open List hiding count

variable {g : Regime}

variable {options : RelationshipImportOptions} {lookup : MergeIdentityLookup}
  {row : RelationshipMutation} {resolved : ResolvedRows}

/-! ## Allocated ids -/

namespace RelationshipStore

variable {s : RelationshipStore}

theorem toNat_candidate (hbound : cursor.toNat + remaining < u64Bound) (hi : i < remaining) :
    (cursor + 1 + UInt64.ofNat i).toNat = cursor.toNat + 1 + i := by
  unfold u64Bound at hbound
  rw [UInt64.toNat_add, UInt64.toNat_add, UInt64.toNat_ofNat', UInt64.toNat_one]
  omega

/-- The ids an import allocates are distinct and not in use. -/
theorem nextAvailableRelationshipIds_ok
    {ids : List RelationshipId} (hnodup : available.Nodup)
    (hunused : ∀ id ∈ available, s.ids.get id = none)
    (hle : ∀ id ∈ available, id.toNat ≤ cursor.toNat)
    (h : s.nextAvailableRelationshipIds cellId operation count fuel cursor available =
      .ok (ids, cursor')) : ids.Nodup ∧ ∀ id ∈ ids, s.ids.get id = none := by
  induction fuel generalizing cursor available with
  | zero =>
    unfold nextAvailableRelationshipIds at h
    split at h
    · cases h
    · cases h; exact ⟨hnodup, hunused⟩
  | succ fuel ih =>
    unfold nextAvailableRelationshipIds at h
    split at h
    · obtain ⟨hbound, h⟩ := then_of_ne h nofun
      set remaining := count - available.length
      have hcandidate : ∀ id ∈ (range remaining).map
          (fun i => cursor + 1 + UInt64.ofNat i), ∃ i < remaining,
            id.toNat = cursor.toNat + 1 + i := by
        intro id hid
        obtain ⟨i, hi, rfl⟩ := mem_map.1 hid
        exact ⟨i, mem_range.1 hi, toNat_candidate hbound (mem_range.1 hi)⟩
      refine ih ?_ ?_ ?_ h
      · refine nodup_append.2 ⟨hnodup, Nodup.filter _ ?_, ?_⟩
        · refine Nodup.map_on ?_ nodup_range
          intro i hi j hj heq
          have hi' := toNat_candidate hbound (mem_range.1 hi)
          have hj' := toNat_candidate hbound (mem_range.1 hj)
          rw [heq] at hi'
          omega
        · rintro id hid _ hid' rfl
          obtain ⟨i, -, hi⟩ := hcandidate id (mem_filter.1 hid').1
          have := hle id hid
          omega
      · intro id hid
        rcases mem_append.1 hid with hid | hid
        · exact hunused id hid
        · rw [← Option.not_isSome_iff_eq_none, ← OrdMap.contains_iff]
          simpa using (mem_filter.1 hid).2
      · have hcursor : (cursor + UInt64.ofNat remaining).toNat = cursor.toNat + remaining := by
          unfold u64Bound at hbound
          rw [UInt64.toNat_add, UInt64.toNat_ofNat']
          omega
        intro id hid
        rcases mem_append.1 hid with hid | hid
        · have := hle id hid
          omega
        · obtain ⟨i, hlt, hi⟩ := hcandidate id (mem_filter.1 hid).1
          omega
    · cases h; exact ⟨hnodup, hunused⟩

end RelationshipStore

/-! ## Canonical rows -/

theorem guardedMetadataPatch_canonical (hrequested : requested.Canonical)
    (h : guardedMetadataPatch previous requested policy key = .ok (some patch)) :
    patch.Canonical := by
  replace h := seq_ok h
  split at h
  · cases h
  split at h
  · cases h
    exact hrequested.delAll _
  obtain ⟨ordering, -, h⟩ := bind_ok h
  split at h
  · cases h
    exact hrequested.delAll _
  · cases h

theorem applyGuardedRelationshipRows_canonical
    (hprevious : ∀ m, previous = some m → m.properties.Canonical)
    (hpatches : ∀ p ∈ patches, p.properties.Canonical)
    (h : applyGuardedRelationshipRows previous patches policy externalId key = .ok metadata) :
    metadata.properties.Canonical := by
  obtain ⟨current, hloop, h⟩ := bind_ok h
  cases h
  have hcurrent : ∀ m, current = some m → m.properties.Canonical := by
    refine foldlM_ok_invariant (P := fun current =>
      ∀ m, current = some m → m.properties.Canonical) hloop hprevious ?_
    intro patch hpatch current current' hc hstep
    replace hstep := rest_of_ne hstep nofun
    split at hstep
    · cases hstep
      rintro m ⟨⟩
      exact hpatches patch hpatch
    next existing =>
    split at hstep
    · cases hstep
      exact hc
    obtain ⟨result, hresult, hstep⟩ := bind_ok hstep
    split at hstep
    · cases hstep
      rintro m ⟨⟩
      exact (hc existing rfl).extend
        (guardedMetadataPatch_canonical (hpatches patch hpatch) hresult)
    · cases hstep
      exact hc
  cases current with
  | none => intro e he; cases he
  | some m => exact hcurrent m rfl

/-! ## Which relationship a row means -/

/-- A live relationship on the row's edge that carries the row's identity. -/
structure Carries (s : RelationshipStore) (row : RelationshipMutation)
    (record : RelationshipRecord) : Prop where
  live : s.records.get record.key = some record.metadata
  edge : record.key.edge = row.edge
  identity : record.metadata.properties.get relationshipIdentityProperty =
    some (.integer row.relationshipId)

/-- What the resolution of a merge row finds. -/
structure MergeIdentityLookup.Ok (s : RelationshipStore) (lookup : MergeIdentityLookup) : Prop where
  carries : ∀ record ∈ lookup.existing, Carries s lookup.row record
  distinct : (lookup.existing.map fun record => record.key.relationshipId).Nodup

namespace RelationshipStore

variable {s : RelationshipStore}

theorem recordsForEdgeProperty_ok {records : List RelationshipRecord}
    (h : s.recordsForEdgeProperty cellId k property value = .ok records) :
    (∀ record ∈ records, s.records.get record.key = some record.metadata ∧ record.key.edge = k ∧
      record.metadata.properties.get property = some value) ∧
    (records.map fun record => record.key.relationshipId).Nodup := by
  set indexed := s.properties.scan fun p => p.edgeType = k.edgeType ∧ p.property = property ∧
    p.encoded = encodeVertexPropertyValueKey value ∧ p.src = k.src ∧ p.dst = k.dst with hindexed
  -- the scanned keys differ only in the relationship id
  have hnodup : (indexed.map fun x => x.1.relationshipId).Nodup := by
    have hkeys : (indexed.map Prod.fst).Nodup := OrdMap.nodup_keys
    refine Nodup.map_on (fun p hp q hq hid => ?_) (Nodup.of_map _ hkeys)
    obtain ⟨⟨ty, property₁, encoded, src, dst, id⟩, u⟩ := p
    obtain ⟨⟨ty', property₂, encoded', src', dst', id'⟩, u'⟩ := q
    rw [hindexed, OrdMap.mem_scan, decide_eq_true_eq] at hp hq
    obtain ⟨-, rfl, rfl, rfl, rfl, rfl⟩ := hp
    obtain ⟨-, h₁, h₂, h₃, h₄, h₅⟩ := hq
    dsimp only at h₁ h₂ h₃ h₄ h₅ hid
    subst h₁ h₂ h₃ h₄ h₅ hid
    rfl
  have key := foldlM_ok_induction (P := fun done records =>
    (∀ record ∈ records, s.records.get record.key = some record.metadata ∧ record.key.edge = k ∧
      record.metadata.properties.get property = some value) ∧
    (records.map fun record => record.key.relationshipId).Sublist
      (done.map fun x => x.1.relationshipId)) h
    ⟨nofun, .slnil⟩ ?_
  · exact ⟨key.1, hnodup.sublist key.2⟩
  rintro done x rest records records' - ⟨hrecords, hsub⟩ hstep
  have hdone : (records.map fun record => record.key.relationshipId).Sublist
      ((done ++ [x]).map fun x => x.1.relationshipId) := by
    rw [map_append]
    exact hsub.trans (sublist_append_left _ _)
  dsimp only at hstep
  split at hstep
  · cases hstep
  next metadata hget =>
  cases hstep
  split
  · next hcarries =>
    refine ⟨forall_mem_snoc.2 ⟨hrecords, hget, rfl, hcarries⟩, ?_⟩
    rw [map_append, map_append]
    exact hsub.append (.refl _)
  · exact ⟨hrecords, hdone⟩

theorem pointedRecord_eq_some (h : s.pointedRecord k identity = some record) :
    s.records.get record.key = some record.metadata ∧ record.key.edge = k ∧
      record.metadata.properties.get relationshipIdentityProperty = some identity := by
  obtain ⟨relationshipId, -, h⟩ := Option.bind_eq_some_iff.1 h
  obtain ⟨metadata, hget, h⟩ := Option.bind_eq_some_iff.1 h
  obtain ⟨hcarries, h⟩ := then_of_ne h nofun
  cases h
  exact ⟨hget, rfl, hcarries⟩

theorem lookupMergeIdentity_ok (h : s.lookupMergeIdentity cellId row = .ok lookup) :
    lookup.row = row ∧ lookup.Ok s := by
  replace h := rest_of_ne h nofun
  split at h
  · next record hpointed =>
    cases h
    obtain ⟨hlive, hedge, hidentity⟩ := pointedRecord_eq_some hpointed
    refine ⟨rfl, fun record hr => ?_, pairwise_singleton _ _⟩
    cases mem_singleton.1 hr
    exact ⟨hlive, hedge, hidentity⟩
  · obtain ⟨existing, hexisting, h⟩ := bind_ok h
    cases h
    obtain ⟨hrecords, hdistinct⟩ := recordsForEdgeProperty_ok hexisting
    exact ⟨rfl, fun record hr => ⟨(hrecords record hr).1, (hrecords record hr).2.1,
      (hrecords record hr).2.2⟩, hdistinct⟩

end RelationshipStore

/-- A row of an import: of the import's edge type, between ends of a requested row, and in
canonical form where the regime asks for it. -/
structure RowOk (g : Regime) (edgeType : EdgeType) (source : List RelationshipMutation)
    (row : RelationshipMutation) : Prop where
  edgeType : row.edgeType = edgeType
  ends : ∃ row₀ ∈ source, row.src = row₀.src ∧ row.dst = row₀.dst
  canonical : g.canonical = true → row.metadata.properties.Canonical

/-- The rows a guarded merge applies one by one are in canonical form where the regime asks for
it. -/
def GuardedRowsOk (g : Regime) (options : RelationshipImportOptions) : Prop :=
  g.canonical = true → ∀ id patches, options.guardedRows.get id = some patches →
    ∀ p ∈ patches, p.properties.Canonical

/-- What the resolution of the rows guarantees. -/
structure ResolvedRows.Ok (g : Regime) (s : RelationshipStore) (edgeType : EdgeType)
    (source : List RelationshipMutation) (resolved : ResolvedRows) : Prop where
  distinct : (resolved.rows.map RelationshipMutation.relationshipId).Nodup
  rows : ∀ row ∈ resolved.rows, RowOk g edgeType source row
  prefetched : ∀ id record, resolved.prefetched.get id = some record →
    s.records.get record.key = some record.metadata ∧ record.key.relationshipId = id

theorem mergeRowMetadata_canonical (hguarded : GuardedRowsOk g options)
    (hrow : g.canonical = true → row.metadata.properties.Canonical)
    (hprevious : ∀ m, previous = some m → m.properties.Canonical)
    (h : mergeRowMetadata cellId options row previous storedId = .ok metadata) :
    g.canonical = true → metadata.properties.Canonical := by
  intro hg
  unfold mergeRowMetadata at h
  split at h
  · next patches policy hpatches _ =>
    exact applyGuardedRelationshipRows_canonical hprevious
      (hguarded hg row.relationshipId patches hpatches) h
  · cases h
    exact hrow hg

/-- What the loop over the looked-up rows of a merge keeps: `acc` has the rows resolved and the ids
not yet used. -/
structure Resolving (g : Regime) (s : RelationshipStore) (edgeType : EdgeType)
    (source : List RelationshipMutation) (done : List MergeIdentityLookup)
    (acc : ResolvedRows × List RelationshipId) : Prop where
  distinct : (acc.1.rows.map RelationshipMutation.relationshipId ++ acc.2).Nodup
  unused : ∀ id ∈ acc.2, s.ids.get id = none
  origin : ∀ row ∈ acc.1.rows, s.ids.get row.relationshipId = none ∨
    ∃ lookup ∈ done, ∃ record ∈ lookup.existing, record.key.relationshipId = row.relationshipId
  rows : ∀ row ∈ acc.1.rows, RowOk g edgeType source row
  prefetched : ∀ id record, acc.1.prefetched.get id = some record →
    s.records.get record.key = some record.metadata ∧ record.key.relationshipId = id

namespace Resolving

variable {s : RelationshipStore} {edgeType : EdgeType}
  {source : List RelationshipMutation} {done : List MergeIdentityLookup}
  {options : RelationshipImportOptions} {s : RelationshipStore}

/-- A merge row on an existing relationship. No row resolved before means that relationship: it
carries one identity only. -/
theorem record
    {record : RelationshipRecord} (hrel : RelationshipsOk g t s uncounted)
    (h : Resolving g s edgeType source (done ++ [{ lookup with existing := seen }])
      (resolved, allocated)) (hdone : ∀ l ∈ done, l.Ok s)
    (hnew : ∀ l ∈ done, l.row.relationshipId ≠ lookup.row.relationshipId)
    (hrow : RowOk g edgeType source lookup.row) (hcarries : Carries s lookup.row record)
    (hseen : record.key.relationshipId ∉ seen.map fun r => r.key.relationshipId)
    (hmetadata : g.canonical = true → metadata.properties.Canonical) :
    Resolving g s edgeType source (done ++ [{ lookup with existing := seen ++ [record] }])
      ({ resolved with
        rows := resolved.rows ++
          [{ lookup.row with relationshipId := record.key.relationshipId, metadata }]
        prefetched := resolved.prefetched.put record.key.relationshipId record }, allocated) := by
  have hused : s.ids.get record.key.relationshipId = some record.key :=
    hrel.id_of_record _ _ hcarries.live
  have hnotRow : ∀ row ∈ resolved.rows, row.relationshipId ≠ record.key.relationshipId := by
    intro row hrow' heq
    rcases h.origin row hrow' with hnone | ⟨l, hl, record', hrecord', hid⟩
    · rw [heq, hused] at hnone
      cases hnone
    rcases mem_snoc.1 hl with hl | rfl
    · have hcarries' := (hdone l hl).carries record' hrecord'
      have hused' := hrel.id_of_record _ _ hcarries'.live
      rw [hid, heq, hused] at hused'
      have hlive := hcarries'.live
      rw [← Option.some.inj hused', hcarries.live] at hlive
      have hidentity := hcarries'.identity
      rw [← Option.some.inj hlive, hcarries.identity] at hidentity
      exact hnew l hl (VertexPropertyValue.integer.inj (Option.some.inj hidentity)).symm
    · exact hseen (mem_map.2 ⟨record', hrecord', hid.trans heq⟩)
  have hnotAllocated : record.key.relationshipId ∉ allocated := fun hmem => by
    rw [h.unused _ hmem] at hused
    cases hused
  refine ⟨?_, h.unused, ?_, forall_mem_snoc.2 ⟨h.rows, hrow.edgeType, hrow.ends, hmetadata⟩,
    OrdMap.forall_get_put h.prefetched ⟨hcarries.live, rfl⟩⟩
  · rw [map_append, map_singleton, append_assoc, singleton_append,
      nodup_middle, nodup_cons, mem_append, not_or]
    refine ⟨⟨fun hmem => ?_, hnotAllocated⟩, h.distinct⟩
    obtain ⟨row, hrow', heq⟩ := mem_map.1 hmem
    exact hnotRow row hrow' heq
  · intro row hrow'
    rcases mem_snoc.1 hrow' with hrow' | rfl
    · refine (h.origin row hrow').imp_right ?_
      rintro ⟨l, hl, record', hrecord', hid⟩
      rcases mem_snoc.1 hl with hl | rfl
      · exact ⟨l, mem_append_left _ hl, record', hrecord', hid⟩
      · exact ⟨_, mem_append_right _ mem_cons_self, record', mem_append_left _ hrecord', hid⟩
    · exact .inr ⟨_, mem_append_right _ mem_cons_self, record,
        mem_append_right _ mem_cons_self, rfl⟩

/-- A merge row that makes a new relationship takes the next allocated id. -/
theorem fresh {id : RelationshipId}
    (h : Resolving g s edgeType source done (resolved, id :: allocated))
    (hrow : RowOk g edgeType source lookup.row)
    (hmetadata : g.canonical = true → metadata.properties.Canonical) :
    Resolving g s edgeType source (done ++ [lookup])
      ({ resolved with
        rows := resolved.rows ++ [{ lookup.row with relationshipId := id, metadata }]
        pointerUpdates := pointerUpdates }, allocated) := by
  refine ⟨?_, fun id' hid' => h.unused id' (mem_cons_of_mem _ hid'), ?_,
    forall_mem_snoc.2 ⟨h.rows, hrow.edgeType, hrow.ends, hmetadata⟩, h.prefetched⟩
  · rw [map_append, map_singleton, append_assoc, singleton_append]
    exact h.distinct
  intro row hrow'
  rcases mem_snoc.1 hrow' with hrow' | rfl
  · refine (h.origin row hrow').imp_right ?_
    rintro ⟨l, hl, rest⟩
    exact ⟨l, mem_append_left _ hl, rest⟩
  · exact .inl (h.unused id mem_cons_self)

theorem step (hrel : RelationshipsOk g t s uncounted) (hguarded : GuardedRowsOk g options)
    (h : Resolving g s edgeType source done acc) (hdone : ∀ l ∈ done, l.Ok s)
    (hlookup : lookup.Ok s) (hnew : ∀ l ∈ done, l.row.relationshipId ≠ lookup.row.relationshipId)
    (hrow : RowOk g edgeType source lookup.row)
    (hstep : resolveMergeRow cellId options acc lookup = .ok acc') :
    Resolving g s edgeType source (done ++ [lookup]) acc' := by
  obtain ⟨resolved, allocated⟩ := acc
  unfold resolveMergeRow at hstep
  dsimp only at hstep
  split at hstep
  · obtain ⟨metadata, hmetadata, hstep⟩ := bind_ok hstep
    split at hstep
    · cases hstep
    · cases hstep
      exact h.fresh hrow (mergeRowMetadata_canonical hguarded hrow.canonical
        (fun m hm => by cases hm) hmetadata)
  obtain ⟨resolved', hloop, hstep⟩ := bind_ok hstep
  cases hstep
  have hstart : Resolving g s edgeType source (done ++ [{ lookup with existing := [] }])
      (resolved, allocated) := by
    refine ⟨h.distinct, h.unused, fun row hrow' => ?_, h.rows, h.prefetched⟩
    refine (h.origin row hrow').imp_right ?_
    rintro ⟨l, hl, rest⟩
    exact ⟨l, mem_append_left _ hl, rest⟩
  refine foldlM_ok_induction (P := fun seen resolved =>
    Resolving g s edgeType source (done ++ [{ lookup with existing := seen }])
      (resolved, allocated)) hloop hstart ?_
  intro seen record rest resolved resolved' hl hresolved hrecord
  obtain ⟨metadata, hmetadata, hrecord⟩ := bind_ok hrecord
  cases hrecord
  have hmem : record ∈ lookup.existing := mem_of_next hl
  have hcarries := hlookup.carries record hmem
  refine hresolved.record hrel hdone hnew hrow hcarries ?_ ?_
  · exact key_not_mem_done hlookup.distinct hl
  · refine mergeRowMetadata_canonical hguarded hrow.canonical ?_ hmetadata
    rintro m ⟨⟩
    exact hrel.canonical _ _ hcarries.live

end Resolving

theorem map_snd_zip_sublist (l : List α) (l' : List β) :
    ((l.zip l').map Prod.snd).Sublist l' := by
  induction l generalizing l' with
  | nil => exact nil_sublist _
  | cons a l ih =>
    cases l' with
    | nil => exact .slnil
    | cons b l' => exact (ih l').cons_cons b

theorem lookupMergeIdentities_ok {lookups : List MergeIdentityLookup}
    (h : source.mapM (s.lookupMergeIdentity cellId) = .ok lookups) :
    lookups.map MergeIdentityLookup.row = source ∧ ∀ lookup ∈ lookups, lookup.Ok s := by
  have hall := mapM_ok h
  clear h
  induction hall with
  | nil => exact ⟨rfl, nofun⟩
  | cons hlookup _ ih =>
    obtain ⟨hrow, hok⟩ := RelationshipStore.lookupMergeIdentity_ok hlookup
    refine ⟨?_, fun lookup hl => ?_⟩
    · rw [map_cons, hrow, ih.1]
    · rcases mem_cons.1 hl with rfl | hl
      · exact hok
      · exact ih.2 lookup hl

/-- The rows of an import are settled so that no two of them name one relationship. -/
theorem resolveRows_ok (hrel : RelationshipsOk g t s uncounted) (hguarded : GuardedRowsOk g options)
    (hsource : ∀ row ∈ source, RowOk g edgeType source row)
    (hdistinct : options.createAlways = false →
      (source.map RelationshipMutation.relationshipId).Nodup)
    (h : resolveRows s cellId options source = .ok resolved) : resolved.Ok g s edgeType source := by
  unfold resolveRows at h
  split at h
  · -- every row gets an id of its own
    obtain ⟨⟨allocated, cursor⟩, hallocated, h⟩ := bind_ok h
    cases h
    obtain ⟨hnodup, -⟩ := RelationshipStore.nextAvailableRelationshipIds_ok nodup_nil nofun nofun
      hallocated
    refine ⟨?_, fun row hrow => ?_, nofun⟩
    · rw [map_map]
      exact hnodup.sublist (map_snd_zip_sublist source allocated)
    · obtain ⟨⟨row₀, id⟩, hmem, rfl⟩ := mem_map.1 hrow
      have hrow₀ := hsource row₀ (of_mem_zip hmem).1
      exact ⟨hrow₀.edgeType, hrow₀.ends, hrow₀.canonical⟩
  next hcreate =>
  have hnodup := hdistinct (Bool.eq_false_iff.2 hcreate)
  split at h
  · obtain ⟨lookups, hlookups, h⟩ := bind_ok h
    obtain ⟨⟨allocated, cursor⟩, hallocated, h⟩ := bind_ok h
    obtain ⟨⟨resolved', rest⟩, hloop, h⟩ := bind_ok h
    cases h
    obtain ⟨hrows, hok⟩ := lookupMergeIdentities_ok hlookups
    obtain ⟨hallocatedNodup, hunused⟩ := RelationshipStore.nextAvailableRelationshipIds_ok
      nodup_nil nofun
      nofun hallocated
    have hstart : Resolving g s edgeType source [] (⟨[], ∅, notePointers lookups⟩, allocated) :=
      ⟨hallocatedNodup, hunused, nofun, nofun, nofun⟩
    have hend := foldlM_ok_induction hloop hstart ?_
    · exact ⟨(nodup_append.1 hend.distinct).1, hend.rows, hend.prefetched⟩
    intro done lookup rest acc acc' hl hacc hstep
    have hmem : lookup ∈ lookups := mem_of_next hl
    refine hacc.step hrel hguarded (fun l hl' => hok l (hl ▸ mem_append_left _ hl'))
      (hok lookup hmem) (fun l hl' heq => ?_) (hsource _ ?_) hstep
    · rw [← hrows, map_map] at hnodup
      exact key_not_mem_done hnodup hl (mem_map.2 ⟨l, hl', heq⟩)
    · rw [← hrows]
      exact mem_map_of_mem hmem
  · cases h
    exact ⟨hnodup, hsource, nofun⟩

/-! ## Which records exist -/

section

variable {s : RelationshipStore} {edgeType : EdgeType}
  {source : List RelationshipMutation} {resolved : ResolvedRows}

/-- What the keys to read are, once the rows `done` are visited: each is a key of the relationship
it is read for, and the target of an id in use is among them. -/
structure RecordKeysOk (s : RelationshipStore) (resolved : ResolvedRows)
    (done : List RelationshipMutation) (m : OrdMap RelationshipId (RelationshipKey × Bool)) :
    Prop where
  named : ∀ id x, m.get id = some x → x.1.relationshipId = id
  required : ∀ row ∈ done, resolved.prefetched.contains row.relationshipId = false →
    ∀ target, s.ids.get row.relationshipId = some target →
      m.get row.relationshipId = some (target, true)

theorem RecordKeysOk.put (h : RecordKeysOk s resolved done m)
    (hx : x.1.relationshipId = row.relationshipId)
    (hrequired : ∀ target, s.ids.get row.relationshipId = some target → x = (target, true)) :
    RecordKeysOk s resolved (done ++ [row]) (m.put row.relationshipId x) := by
  refine ⟨OrdMap.forall_get_put h.named hx, fun row' hrow' hnot target htarget => ?_⟩
  rw [OrdMap.get_put]
  split
  · next hid => rw [hrequired target (hid ▸ htarget)]
  next hid =>
  rcases mem_append.1 hrow' with hrow' | hrow'
  · exact h.required row' hrow' hnot target htarget
  · exact absurd (congrArg _ (mem_singleton.1 hrow')) hid

theorem recordKeys_ok (hrel : RelationshipsOk g t s uncounted) (resolved : ResolvedRows) :
    RecordKeysOk s resolved resolved.rows (recordKeys s resolved) := by
  refine foldl_induction ⟨?_, nofun⟩ ?_
  · -- the keys of records that the id pointer disagrees with
    refine foldl_invariant (P := fun m : OrdMap RelationshipId (RelationshipKey × Bool) =>
      ∀ id x, m.get id = some x → x.1.relationshipId = id) nofun ?_
    intro x _ m hm
    split
    · next target htarget =>
      split
      · exact OrdMap.forall_get_put hm (hrel.record_of_id _ _ htarget).1
      · exact hm
    · exact hm
  · intro done row rest m _ hm
    split
    · next hprefetched =>
      refine ⟨hm.named, forall_mem_snoc.2 ⟨hm.required, fun hnot => ?_⟩⟩
      cases hprefetched.symm.trans hnot
    split
    · next target htarget =>
      refine hm.put (hrel.record_of_id _ _ htarget).1 fun target' htarget' => ?_
      rw [htarget] at htarget'
      rw [Option.some.inj htarget']
    · next hnone =>
      refine hm.put rfl fun target htarget => ?_
      rw [hnone] at htarget
      cases htarget

/-- A row whose relationship was not found names an id that is not in use, and what was found is
live. -/
theorem prefetchRecords_ok (hrel : RelationshipsOk g t s uncounted)
    (hresolved : resolved.Ok g s edgeType source)
    (h : prefetchRecords s cellId resolved = .ok prefetched) :
    (∀ id record, prefetched.get id = some record →
      s.records.get record.key = some record.metadata ∧ record.key.relationshipId = id) ∧
    ∀ row ∈ resolved.rows, prefetched.get row.relationshipId = none →
      s.ids.get row.relationshipId = none := by
  have hkeys := recordKeys_ok hrel resolved
  have key := foldlM_ok_induction (P := fun done
      prefetched =>
    (∀ id record, prefetched.get id = some record →
      s.records.get record.key = some record.metadata ∧ record.key.relationshipId = id) ∧
    (∀ id, resolved.prefetched.contains id = true → prefetched.contains id = true) ∧
    ∀ x ∈ done, x.2.2 = true → prefetched.contains x.1 = true) h
    ⟨hresolved.prefetched, fun _ hid => hid, nofun⟩ ?_
  · refine ⟨key.1, fun row hrow hnone => ?_⟩
    have habsent : ¬ prefetched.contains row.relationshipId = true := by
      rw [OrdMap.contains_iff, hnone]
      exact Bool.false_ne_true
    cases hid : s.ids.get row.relationshipId with
    | none => rfl
    | some target =>
      have hnot : resolved.prefetched.contains row.relationshipId = false :=
        Bool.eq_false_iff.2 fun hc => habsent (key.2.1 _ hc)
      have hentry := OrdMap.mem_entries.2 (hkeys.required row hrow hnot target hid)
      exact absurd (key.2.2 _ hentry rfl) habsent
  · rintro done ⟨id, target, required⟩ rest p p' hl ⟨hlive, hkept, hdone⟩ hstep
    have hname : target.relationshipId = id := by
      have hmem :=
        hl ▸ mem_append_right done (mem_cons_self)
      exact hkeys.named id (target, required) (OrdMap.mem_entries.1 hmem)
    dsimp only at hstep
    split at hstep
    · next metadata hget =>
      cases hstep
      refine ⟨OrdMap.forall_get_put hlive ⟨hget, hname⟩,
        fun id' hid' => OrdMap.contains_put.2 (.inr (hkept id' hid')), forall_mem_snoc.2 ⟨?_, ?_⟩⟩
      · exact fun x hx hrequired => OrdMap.contains_put.2 (.inr (hdone x hx hrequired))
      · exact fun _ => OrdMap.contains_put.2 (.inl rfl)
    · obtain ⟨hoptional, hstep⟩ := else_of_ne hstep nofun
      cases hstep
      exact ⟨hlive, hkept, forall_mem_snoc.2 ⟨hdone, fun hrequired => absurd hrequired hoptional⟩⟩

theorem rowMetadataOn_canonical
    (hrow : row.metadata.properties.Canonical) (hexisting : existing.properties.Canonical)
    (h : rowMetadataOn cellId options row existing = .ok (some next')) :
    next'.properties.Canonical := by
  unfold rowMetadataOn at h
  split at h
  · cases h
    exact hexisting.extend hrow
  · obtain ⟨patch, hpatch, h⟩ := bind_ok h
    obtain ⟨properties, rfl, rfl⟩ := Option.map_eq_some_iff.1 (Except.ok.inj h)
    exact hexisting.extend (guardedMetadataPatch_canonical hrow hpatch)

/-- What the classification of the rows guarantees. -/
structure ClassifiedRows.Ok (g : Regime) (s : RelationshipStore) (edgeType : EdgeType)
    (source rows : List RelationshipMutation) (classified : ClassifiedRows) : Prop where
  inserted : ∀ row ∈ classified.inserted,
    RowOk g edgeType source row ∧ s.ids.get row.relationshipId = none
  insertedRows : classified.inserted.Sublist rows
  updated : ∀ u ∈ classified.updated, s.records.get u.1.key = some u.2 ∧
    (g.canonical = true → u.1.metadata.properties.Canonical)
  updatedRows : (classified.updated.map fun u => u.1.key).Sublist
    (rows.map RelationshipMutation.key)

theorem classifyRows_ok (hrel : RelationshipsOk g t s uncounted)
    (hresolved : resolved.Ok g s edgeType source)
    (hprefetch : prefetchRecords s cellId resolved = .ok prefetched)
    (h : resolved.rows.foldlM (classifyRow cellId idempotencyKey options prefetched) ⟨[], [], 0⟩ =
      .ok classified) : classified.Ok g s edgeType source resolved.rows := by
  obtain ⟨hlive, hunused⟩ := prefetchRecords_ok hrel hresolved hprefetch
  refine foldlM_ok_induction h ⟨?_, .slnil, ?_, .slnil⟩ ?_
  · exact nofun
  · exact nofun
  intro done row rest acc acc' hl hacc hstep
  have hmem : row ∈ resolved.rows := mem_of_next hl
  have hrow := hresolved.rows row hmem
  have hseen : ClassifiedRows.Ok g s edgeType source (done ++ [row])
      { acc with alreadyExisted := acc.alreadyExisted + 1 } := by
    refine ⟨hacc.inserted, hacc.insertedRows.trans (sublist_append_left _ _), hacc.updated, ?_⟩
    rw [map_append]
    exact hacc.updatedRows.trans (sublist_append_left _ _)
  unfold classifyRow at hstep
  split at hstep
  · next hnone =>
    cases hstep
    exact ⟨forall_mem_snoc.2 ⟨hacc.inserted, hrow, hunused row hmem hnone⟩,
      hacc.insertedRows.append (.refl _), hacc.updated, hseen.updatedRows⟩
  next existing hexisting =>
  obtain ⟨hkey, hstep⟩ := else_of_ne hstep nofun
  have hkey' : existing.key = row.key := not_not.1 hkey
  split at hstep
  · cases hstep
    exact hseen
  replace hstep := rest_of_ne hstep nofun
  obtain ⟨next, hnext, hstep⟩ := bind_ok hstep
  split at hstep
  · cases hstep
    exact hseen
  next metadata =>
  cases hstep
  split
  · have hrecord := (hlive _ _ hexisting).1
    refine ⟨hseen.inserted, hseen.insertedRows, forall_mem_snoc.2 ⟨hacc.updated, hrecord,
      fun hg => ?_⟩, ?_⟩
    · exact rowMetadataOn_canonical (hrow.canonical hg) (hrel.canonical _ _ hrecord) hnext
    · rw [map_append, map_append, map_singleton, map_singleton, hkey']
      exact hacc.updatedRows.append (.refl _)
  · exact hseen

end

end HydraDb
