import HydraDb.Invariant.Draft

/-!
# The record invariants

Two invariants tie records to edges. Every end of a visible edge has a vertex record. The
relationship tables agree with each other and with the edges: ids and records name each other, the
property index holds the keys of the live records, the counts count them, and a live relationship
is on a visible edge.
-/

namespace HydraDb

open OrdMap

namespace Topology

variable {t : Topology} {k : EdgeKey}

theorem visible_of_removeDirect (h : (t.removeDirect r k).Visible k') : t.Visible k' :=
  h.imp (fun hd => (direct_removeDirect.1 hd).2) id

theorem visible_of_putTombstone (hb : t.Bounded e) (h : (t.putTombstone k e).Visible k') :
    t.Visible k' :=
  h.imp id fun hs => ((segVisible_putTombstone hb).1 hs).2

end Topology

/-! ## Vertices -/

/-- The ends of visible edges have records, apart from those in `lacking`. -/
def EndpointsOk (g : Regime) (c : Cell) (lacking : VertexId → Prop) : Prop :=
  g.trusted = true → g.uncapped = true → ∀ k v, c.topology.Visible k → k.Meets v →
    c.vertices.records.contains v = true ∨ lacking v

/-- Every write of a transaction keeps the endpoint invariant. -/
theorem Step.endpointsOk (h : Step F g e d d') (bounded : d.cell.topology.Bounded e)
    (ok : EndpointsOk g d.cell d.ledger.lacking) : EndpointsOk g d'.cell d'.ledger.lacking := by
  intro ht hu k v hv hm
  cases h with
  | insertEdge =>
    rcases Topology.visible_insertDirect.1 hv with rfl | hv
    · refine .inr (.inr ?_)
      rcases hm with rfl | rfl
      · exact List.mem_cons_self
      · exact List.mem_cons_of_mem _ List.mem_cons_self
    · exact (ok ht hu k v hv hm).imp_right .inl
  | removeEdge => exact ok ht hu k v (Topology.visible_of_removeDirect hv) hm
  | hideEdge => exact ok ht hu k v (Topology.visible_of_putTombstone bounded hv) hm
  | appendSegment s ds ensured policy current fresh =>
    rcases (Topology.visible_appendSegment fresh).1 hv with ⟨-, hsrc, hmem⟩ | hv
    · refine .inr (.inr ?_)
      rcases hm with rfl | rfl
      · rw [hsrc]; exact List.mem_cons_self
      · exact List.mem_cons_of_mem _ hmem
    · exact (ok ht hu k v hv hm).imp_right .inl
  | resegment segments tombstones bounded policy same _ =>
    exact ok ht hu k v (hv.imp id (same k).1) hm
  | putVertex v₀ next vertices form written =>
    refine (ok ht hu k v hv hm).imp_left fun hc => ?_
    rw [Cell.setVertices, VertexStore.records_applyMetadataUpdate written, contains_put]
    exact .inr hc
  | ensureVertex =>
    exact (ok ht hu k v hv hm).imp_left fun hc => contains_put.2 (.inr hc)
  | deleteVertex v₀ previous present isolated =>
    refine (ok ht hu k v hv hm).imp_left fun hc => contains_del.2 ⟨?_, hc⟩
    rintro rfl
    exact isolated ht hu k hm hv
  | settle lacking owed =>
    rcases ok ht hu k v hv hm with hc | hl
    · exact .inl hc
    · exact owed ht v hl
  | countOut | countIn | touch | putEdgeMetadata | insertRelationship | replaceRelationship
  | deleteRelationship | countRelationships | putLastId | putMerges | putIdempotency =>
    exact ok ht hu k v hv hm

/-! ## Relationships -/

/-- The relationship a property-index key belongs to. -/
def RelationshipPropertyKey.relationship (p : RelationshipPropertyKey) : RelationshipKey :=
  ⟨p.edgeType, p.src, p.dst, p.relationshipId⟩

/-- The relationship tables of a draft. `uncounted` is what the counts still lack. -/
structure RelationshipsOk (g : Regime) (t : Topology) (s : RelationshipStore)
    (uncounted : EdgeKey → Int) : Prop where
  /-- The id of a live record points to it. -/
  id_of_record : ∀ k metadata, s.records.get k = some metadata → s.ids.get k.relationshipId = some k
  /-- An id points to a live record with that id. -/
  record_of_id : ∀ id k, s.ids.get id = some k → k.relationshipId = id ∧ s.records.contains k = true
  /-- The counts are the numbers of live records. -/
  count : ∀ k, ((s.liveForEdge k).length : Int) = s.counts.count k + uncounted k
  /-- Records are stored in canonical form. -/
  canonical : ∀ k metadata, s.records.get k = some metadata → metadata.properties.Canonical
  /-- The property index holds the keys of the live records. -/
  index : g.canonical = true → ∀ p : RelationshipPropertyKey, s.properties.contains p = true ↔
    ∃ metadata, s.records.get p.relationship = some metadata ∧
      p ∈ RelationshipStore.propertyKeys p.relationship metadata
  /-- A live relationship is on a visible edge. -/
  visible : ∀ k, s.records.contains k = true → t.Visible k.edge

namespace RelationshipStore

variable {s : RelationshipStore} {k : RelationshipKey} {p : RelationshipPropertyKey}
  {metadata : EdgeMetadata}

theorem relationship_of_mem_propertyKeys (h : p ∈ propertyKeys k metadata) :
    p.relationship = k := by
  obtain ⟨e, -, rfl⟩ := List.mem_map.1 h
  rfl

theorem length_liveForEdge (s : RelationshipStore) (k : EdgeKey) :
    (s.liveForEdge k).length = (s.records.scan fun r => r.edge = k).length := by
  rw [liveForEdge, List.length_map]

end RelationshipStore

theorem EdgeMetadata.canonical_readBack (metadata : EdgeMetadata) :
    metadata.readBack.properties.Canonical :=
  Properties.canonical_readBack _

variable {metadata : EdgeMetadata}

theorem EdgeMetadata.readBack_of_canonical
    (h : metadata.properties.Canonical) : metadata.readBack = metadata := by
  rw [readBack, Properties.readBack_of_canonical h]

namespace RelationshipsOk

open RelationshipStore

variable {g : Regime} {t : Topology} {s : RelationshipStore} {uncounted : EdgeKey → Int}
  {k : RelationshipKey}

section

variable (h : RelationshipsOk g t s uncounted)

include h

/-- The tables stay in order when edges without relationships come or go. -/
theorem topology (hv : ∀ k, s.records.contains k = true → t.Visible k.edge → t'.Visible k.edge) :
    RelationshipsOk g t' s uncounted :=
  { h with
    visible k hk := hv k hk (h.visible k hk) }

theorem records_get_none (unused : s.ids.get k.relationshipId = none) : s.records.get k = none := by
  cases hk : s.records.get k with
  | none => rfl
  | some metadata => exact absurd (h.id_of_record k metadata hk) (by rw [unused]; simp)

theorem insertRelationship (unused : s.ids.get k.relationshipId = none)
    (canonical : g.canonical = true → metadata.properties.Canonical) (visible : t.Visible k.edge) :
    RelationshipsOk g t (s.insertRelationship k metadata)
      (fun k' => uncounted k' + if k' = k.edge then 1 else 0) where
  id_of_record k' metadata' hk' := by
    rw [records_insertRelationship, get_put] at hk'
    rw [ids_insertRelationship, get_put]
    split at hk'
    · next heq => rw [heq, if_pos rfl]
    next hne =>
    have hid := h.id_of_record k' metadata' hk'
    rw [if_neg, hid]
    intro heq
    rw [heq, unused] at hid
    cases hid
  record_of_id id k' hid := by
    rw [ids_insertRelationship, get_put] at hid
    rw [records_insertRelationship, contains_put]
    split at hid
    · next heq => cases hid; exact ⟨heq.symm, .inl rfl⟩
    · exact (h.record_of_id id k' hid).imp_right .inr
  count k' := by
    have hcount := h.count k'
    rw [length_liveForEdge] at hcount ⊢
    rw [records_insertRelationship, counts_insertRelationship,
      length_scan_put_new (h.records_get_none unused)]
    by_cases hk : k' = k.edge
    · subst hk
      simp only [decide_true, if_true]
      omega
    · have hk' : ¬ k.edge = k' := fun h => hk h.symm
      simp only [hk, hk', decide_false, Bool.false_eq_true, if_false]
      omega
  canonical := by
    rw [records_insertRelationship]
    exact forall_get_put h.canonical (EdgeMetadata.canonical_readBack _)
  index hc p := by
    rw [properties_insertRelationship, records_insertRelationship, contains_addAll,
      get_put, EdgeMetadata.readBack_of_canonical (canonical hc), h.index hc]
    by_cases hp : p.relationship = k
    · rw [if_pos hp, hp, h.records_get_none unused]
      simp
    rw [if_neg hp]
    constructor
    · rintro (hmem | hold)
      · exact absurd (relationship_of_mem_propertyKeys hmem) hp
      · exact hold
    · exact .inr
  visible k' hk' := by
    rw [records_insertRelationship, contains_put] at hk'
    rcases hk' with rfl | hk'
    · exact visible
    · exact h.visible k' hk'

theorem replaceMetadata (present : s.records.get k = some previous)
    (canonical : g.canonical = true → next.properties.Canonical) :
    RelationshipsOk g t (s.replaceMetadata k previous next) uncounted where
  id_of_record := by
    rw [records_replaceMetadata, ids_replaceMetadata]
    exact forall_get_put h.id_of_record (h.id_of_record k previous present)
  record_of_id id k' hid := by
    rw [ids_replaceMetadata] at hid
    rw [records_replaceMetadata, contains_put]
    exact (h.record_of_id id k' hid).imp_right .inr
  count k' := by
    have hcount := h.count k'
    rw [length_liveForEdge] at hcount ⊢
    rw [records_replaceMetadata, counts_replaceMetadata,
      length_scan_put_old (contains_of_get present)]
    exact hcount
  canonical := by
    rw [records_replaceMetadata]
    exact forall_get_put h.canonical (EdgeMetadata.canonical_readBack _)
  index hc p := by
    rw [properties_replaceMetadata, records_replaceMetadata, contains_addAll,
      contains_delAll, get_put, EdgeMetadata.readBack_of_canonical (canonical hc),
      h.index hc]
    by_cases hp : p.relationship = k
    · -- the old keys of this relationship are gone, the new ones are there
      rw [if_pos hp, hp, present]
      simp only [Option.some.injEq, exists_eq_left']
      tauto
    · rw [if_neg hp]
      constructor
      · rintro (hmem | ⟨-, hold⟩)
        · exact absurd (relationship_of_mem_propertyKeys hmem) hp
        · exact hold
      · exact fun hold => .inr ⟨fun hmem => hp (relationship_of_mem_propertyKeys hmem), hold⟩
  visible k' hk' := by
    rw [records_replaceMetadata, contains_put] at hk'
    rcases hk' with rfl | hk'
    · exact h.visible _ (contains_of_get present)
    · exact h.visible k' hk'

theorem deleteRecord (present : s.records.get record.key = some record.metadata) :
    RelationshipsOk g t (s.deleteRecord record)
      (fun k' => uncounted k' + if k' = record.key.edge then -1 else 0) where
  id_of_record k' metadata' hk' := by
    rw [records_deleteRecord, get_del] at hk'
    rw [ids_deleteRecord, get_del]
    obtain ⟨hne, hk'⟩ := else_of_ne hk' nofun
    have hid := h.id_of_record k' metadata' hk'
    rw [if_neg, hid]
    intro heq
    rw [heq, h.id_of_record _ _ present] at hid
    exact hne (Option.some.inj hid).symm
  record_of_id id k' hid := by
    rw [ids_deleteRecord, get_del] at hid
    rw [records_deleteRecord, contains_del]
    obtain ⟨hne, hid⟩ := else_of_ne hid nofun
    obtain ⟨rfl, hk'⟩ := h.record_of_id id k' hid
    exact ⟨rfl, fun heq => hne (by rw [heq]), hk'⟩
  count k' := by
    have hcount := h.count k'
    have hscan := length_scan_del (p := fun r => decide (r.edge = k')) (contains_of_get present)
    rw [length_liveForEdge] at hcount ⊢
    rw [records_deleteRecord, counts_deleteRecord]
    by_cases hk : k' = record.key.edge
    · subst hk
      simp only [decide_true, if_true] at hscan ⊢
      omega
    · have hk' : ¬ record.key.edge = k' := fun h => hk h.symm
      simp only [hk, hk', decide_false, Bool.false_eq_true, if_false] at hscan ⊢
      omega
  canonical k' metadata' hk' := by
    rw [records_deleteRecord, get_del] at hk'
    split at hk'
    · cases hk'
    · exact h.canonical k' metadata' hk'
  index hc p := by
    rw [properties_deleteRecord, records_deleteRecord, contains_delAll, get_del, h.index hc]
    by_cases hp : p.relationship = record.key
    · rw [if_pos hp, hp, present]
      simp
    rw [if_neg hp]
    constructor
    · exact And.right
    · exact fun hold => ⟨fun hmem => hp (relationship_of_mem_propertyKeys hmem), hold⟩
  visible k' hk' := by
    rw [records_deleteRecord, contains_del] at hk'
    exact h.visible k' hk'.2

theorem setCounts {counts : OrdMap EdgeKey Nat}
    (owed : ∀ k, counts.count k + uncounted' k = s.counts.count k + uncounted k) :
    RelationshipsOk g t { s with counts := counts } uncounted' :=
  { h with
    count k' := by
      rw [owed k']
      exact h.count k' }

end

end RelationshipsOk

/-- Every write of a transaction keeps the relationship invariant. -/
theorem Step.relationshipsOk (h : Step F g e d d')
    (ok : RelationshipsOk g d.cell.topology d.cell.relationships d.ledger.uncounted) :
    RelationshipsOk g d'.cell.topology d'.cell.relationships d'.ledger.uncounted := by
  -- an edge with a live relationship is not the one that a bare removal takes
  have hne : ∀ {k : EdgeKey} {r : RelationshipKey}, d.cell.relationships.Bare k →
      d.cell.relationships.records.contains r = true → r.edge ≠ k := by
    intro k r bare hr heq
    rw [contains_iff, bare r heq] at hr
    cases hr
  cases h with
  | insertEdge =>
    exact ok.topology fun r _ hv => Topology.visible_insertDirect.2 (.inr hv)
  | removeEdge k ensured mirror direct bare =>
    exact ok.topology fun r hr hv => (Topology.visible_removeDirect_of_ne (hne bare hr)).2 hv
  | hideEdge k ensured hidden shown bare =>
    exact ok.topology fun r hr hv => (Topology.visible_putTombstone_of_ne (hne bare hr)).2 hv
  | appendSegment s ds ensured policy current fresh =>
    exact ok.topology fun r _ hv => (Topology.visible_appendSegment fresh).2 (.inr hv)
  | resegment segments tombstones bounded policy same _ =>
    exact ok.topology fun r _ hv => hv.imp id (same r.edge).2
  | countOut | countIn => exact ok.topology fun _ _ hv => hv
  | insertRelationship k metadata unused canonical visible =>
    exact ok.insertRelationship unused canonical visible
  | replaceRelationship k previous next present canonical =>
    exact ok.replaceMetadata present canonical
  | deleteRelationship record present => exact ok.deleteRecord present
  | countRelationships counts uncounted owed => exact ok.setCounts owed
  | putLastId | putMerges =>
    exact ⟨ok.id_of_record, ok.record_of_id, ok.count, ok.canonical, ok.index, ok.visible⟩
  | touch | putVertex | ensureVertex | deleteVertex | settle | putEdgeMetadata
  | putIdempotency => exact ok

end HydraDb
