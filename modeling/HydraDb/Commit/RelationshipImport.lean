import HydraDb.Commit.BulkImport
import HydraDb.Commit.ImportRows

/-!
# Relationship imports as steps

The transaction of `Write/RelationshipImport.lean`, read as a sequence of steps that ends with
nothing owed: the edges of the new relationships, their counters, the relationship tables and the
records of the ends.
-/

namespace HydraDb

open OrdMap List

variable {g : Regime} {c : Cell}

variable {edgeType : EdgeType}

/-! ## The writes -/

section

/-- Adding new relationships, each under an id of its own that is not in use. -/
theorem Steps.insertRelationships (rows : List RelationshipMutation)
    (distinct : (rows.map RelationshipMutation.relationshipId).Nodup)
    (unused : ∀ row ∈ rows, c.relationships.ids.get row.relationshipId = none)
    (canonical : g.canonical = true → ∀ row ∈ rows, row.metadata.properties.Canonical)
    (visible : ∀ row ∈ rows, c.topology.Visible row.edge) :
    let s := rows.foldl (fun s row =>
      s.insertRelationship row.key row.metadata) c.relationships
    Steps F g e ⟨c, l⟩ ⟨c.setRelationships s, { l with
        uncounted := fun k => l.uncounted k + (rows.countP fun row => row.edge = k) }⟩ ∧
      s.counts = c.relationships.counts ∧
      ∀ r, r.relationshipId ∉ rows.map RelationshipMutation.relationshipId →
        s.records.get r = c.relationships.records.get r := by
  have key := foldl_induction (l := rows)
    (f := fun s row => s.insertRelationship row.key row.metadata)
    (P := fun done s =>
      (Steps F g e ⟨c, l⟩ ⟨c.setRelationships s, { l with
          uncounted := fun k => l.uncounted k + (done.countP fun row => row.edge = k) }⟩ ∧
        s.counts = c.relationships.counts ∧
        ∀ r, r.relationshipId ∉ done.map RelationshipMutation.relationshipId →
          s.records.get r = c.relationships.records.get r) ∧
      ∀ id, id ∉ done.map RelationshipMutation.relationshipId →
        s.ids.get id = c.relationships.ids.get id)
    ⟨⟨?_, rfl, fun _ _ => rfl⟩, fun _ _ => rfl⟩ ?_
  · exact key.1
  · simp only [countP_nil, Int.natCast_zero, Int.add_zero]
    exact .refl
  rintro done row rest s hl ⟨⟨hsteps, hcounts, hrecords⟩, hids⟩
  have hmem : row ∈ rows := mem_of_next hl
  have hnew : row.relationshipId ∉ done.map RelationshipMutation.relationshipId :=
    key_not_mem_done distinct hl
  have hfree : s.ids.get row.key.relationshipId = none :=
    (hids _ hnew).trans (unused row hmem)
  refine ⟨⟨hsteps.tail (Step.to (.insertRelationship row.key row.metadata hfree
    (fun hg => canonical hg row hmem) (visible row hmem)) rfl ?_), ?_, fun r hr => ?_⟩,
    fun id hid => ?_⟩
  · ext k
    all_goals simp only [Ledger.addUncounted, countP_append, countP_singleton]
    change _ = _ + if k = row.edge then 1 else 0
    by_cases hk : k = row.edge
    · simp [hk]; omega
    · have hk' : ¬ row.edge = k := fun h => hk h.symm
      simp [hk, hk']
  · rw [RelationshipStore.counts_insertRelationship, hcounts]
  · rw [not_mem_map_snoc] at hr
    rw [RelationshipStore.records_insertRelationship, get_put_of_ne, hrecords r hr.1]
    exact fun h => hr.2 (congrArg RelationshipKey.relationshipId h)
  · rw [not_mem_map_snoc] at hid
    rw [RelationshipStore.ids_insertRelationship, get_put_of_ne, hids id hid.1]
    exact hid.2

/-- Replacing the metadata of live relationships, each once. -/
theorem Steps.replaceMetadatas (updated : List (RelationshipRecord × EdgeMetadata))
    (distinct : (updated.map fun u => u.1.key).Nodup)
    (live : ∀ u ∈ updated, c.relationships.records.get u.1.key = some u.2)
    (canonical : g.canonical = true → ∀ u ∈ updated, u.1.metadata.properties.Canonical) :
    let s := updated.foldl (fun s u =>
      s.replaceMetadata u.1.key u.2 u.1.metadata) c.relationships
    Steps F g e ⟨c, l⟩ ⟨c.setRelationships s, l⟩ ∧ s.counts = c.relationships.counts := by
  have key := foldl_induction (l := updated)
    (f := fun s u => s.replaceMetadata u.1.key u.2 u.1.metadata)
    (P := fun done s => (Steps F g e ⟨c, l⟩ ⟨c.setRelationships s, l⟩ ∧
        s.counts = c.relationships.counts) ∧
      ∀ r, r ∉ done.map (fun u => u.1.key) → s.records.get r = c.relationships.records.get r)
    ⟨⟨.refl, rfl⟩, fun _ _ => rfl⟩ ?_
  · exact key.1
  rintro done u rest s hl ⟨⟨hsteps, hcounts⟩, hrecords⟩
  have hmem : u ∈ updated := mem_of_next hl
  have hnew : u.1.key ∉ done.map fun u => u.1.key := key_not_mem_done distinct hl
  have hpresent : s.records.get u.1.key = some u.2 := (hrecords _ hnew).trans (live u hmem)
  refine ⟨⟨hsteps.tail (.replaceRelationship u.1.key u.2 u.1.metadata hpresent
    fun hg => canonical hg u hmem), ?_⟩, fun r hr => ?_⟩
  · rw [RelationshipStore.counts_replaceMetadata, hcounts]
  · rw [not_mem_map_snoc] at hr
    rw [RelationshipStore.records_replaceMetadata, get_put_of_ne hr.2, hrecords r hr.1]

theorem count_relationshipIncrements :
    (relationshipIncrements rows).count k = rows.countP fun row => row.edge = k := by
  induction rows using List.reverseRecOn with
  | nil => rfl
  | append_singleton rows row ih =>
    have hconcat : relationshipIncrements (rows ++ [row]) =
        (relationshipIncrements rows).bump row.edge := by
      rw [relationshipIncrements, foldl_append]
      rfl
    rw [hconcat, count_bump, ih, countP_append, countP_singleton]
    by_cases hk : k = row.edge
    · simp [hk]
    · have hk' : ¬ row.edge = k := fun h => hk h.symm
      simp [hk, hk']

/-- Writing the identity pointers of an import. -/
theorem Steps.putPointers (s : RelationshipStore)
    (es : List (EdgePropertyKey × Option RelationshipId)) :
    Steps F g e ⟨c.setRelationships s, l⟩
      ⟨c.setRelationships (es.foldl (fun s x =>
        match x.2 with
        | some relationshipId => { s with merges := s.merges.put x.1 relationshipId }
        | none => { s with merges := s.merges.del x.1 }) s), l⟩ := by
  refine foldl_invariant
    (P := fun s' => Steps F g e ⟨c.setRelationships s, l⟩ ⟨c.setRelationships s', l⟩) .refl ?_
  rintro ⟨k, pointer⟩ _ s hs
  cases pointer with
  | none | some => exact hs.tail (.putMerges _)

/-- Writing the relationship tables of an import. -/
theorem Steps.applyImport (hrel : RelationshipsOk g t c.relationships uncounted)
    (hclassified : classified.Ok g c.relationships edgeType source rows)
    (distinct : (rows.map RelationshipMutation.relationshipId).Nodup)
    (visible : ∀ row ∈ classified.inserted, c.topology.Visible row.edge)
    (hfresh : fresh = true → ∀ k, c.relationships.counts.count k = 0) :
    Steps F g e ⟨c, l⟩
      ⟨c.setRelationships (c.relationships.applyImport classified rows pointerUpdates fresh),
      l⟩ := by
  -- the rows name distinct relationships, so no write of the loops undoes another
  have hkeys : (rows.map RelationshipMutation.key).Nodup := by
    refine List.Nodup.of_map RelationshipKey.relationshipId ?_
    rw [map_map]
    exact distinct
  obtain ⟨hinsert, hcounts, hrecords⟩ := insertRelationships classified.inserted
    (distinct.sublist (hclassified.insertedRows.map _))
    (fun row hrow => (hclassified.inserted row hrow).2)
    (fun hg row hrow => (hclassified.inserted row hrow).1.canonical hg) visible
  set s₁ := classified.inserted.foldl (fun s row =>
    s.insertRelationship row.key row.metadata) c.relationships
  have hlive : ∀ u ∈ classified.updated, s₁.records.get u.1.key = some u.2 := by
    intro u hu
    have hu' := (hclassified.updated u hu).1
    rw [hrecords, hu']
    intro hmem
    obtain ⟨row, hrow, hid⟩ := mem_map.1 hmem
    have hunused := (hclassified.inserted row hrow).2
    rw [hid, hrel.id_of_record _ _ hu'] at hunused
    cases hunused
  obtain ⟨hreplace, hcounts'⟩ := replaceMetadatas (c := c.setRelationships s₁)
    classified.updated (hkeys.sublist hclassified.updatedRows) hlive
    fun hg u hu => (hclassified.updated u hu).2 hg
  set s₂ := classified.updated.foldl (fun s u =>
    s.replaceMetadata u.1.key u.2 u.1.metadata) s₁
  have hcount : Step F g e
      ⟨c.setRelationships s₂, { l with
        uncounted := fun k =>
          l.uncounted k + (classified.inserted.countP fun row => row.edge = k) }⟩
      ⟨c.setRelationships { s₂ with
        counts := addCounters fresh s₂.counts (relationshipIncrements classified.inserted) },
      l⟩ := by
    refine .countRelationships _ l.uncounted fun k => ?_
    have hs₂ : s₂.counts = c.relationships.counts := hcounts'.trans hcounts
    rw [count_addCounters (fun h k => by rw [hs₂]; exact hfresh h k), count_relationshipIncrements]
    simp only [Cell.setRelationships]
    omega
  refine ((hinsert.trans hreplace).tail hcount).trans (.trans ?_ (putPointers _ _))
  split
  · exact .single (.putLastId _)
  · exact .refl

end

/-! ## The transaction -/

theorem VertexStore.contains_of_hasLabel {s : VertexStore}
    (h : s.hasLabel vertex label = true) : s.records.contains vertex = true := by
  unfold hasLabel at h
  split at h
  · next hget => exact contains_of_get hget
  · cases h

/-- The rows a labelled import keeps are between vertices that have records. -/
theorem contains_of_mem_retainMatched (hlabels : labels.isSome = true) :
    ∀ row ∈ retainMatched s labels rows,
      s.records.contains row.src = true ∧ s.records.contains row.dst = true := by
  intro row hrow
  cases labels with
  | none => cases hlabels
  | some =>
    have h := (mem_filter.1 hrow).2
    rw [Bool.and_eq_true] at h
    exact ⟨VertexStore.contains_of_hasLabel h.1, VertexStore.contains_of_hasLabel h.2⟩

theorem retainMatched_sublist : (retainMatched s labels rows).Sublist rows := by
  cases labels with
  | none => exact .refl _
  | some => exact filter_sublist

theorem mem_structuralEdges : x ∈ structuralEdges rows ↔ ∃ row ∈ rows, (row.src, row.dst) = x := by
  simp only [structuralEdges, sortDedupEdges, mem_map, mem_sortDedup]
  constructor
  · rintro ⟨_, ⟨_, ⟨row, hrow, rfl⟩, rfl⟩, rfl⟩
    exact ⟨row, hrow, rfl⟩
  · rintro ⟨row, hrow, rfl⟩
    exact ⟨_, ⟨_, ⟨row, hrow, rfl⟩, rfl⟩, rfl⟩

/-- An edge of an import is inserted or was visible. -/
theorem visible_of_notMem_absentEdges (ok : CellOk g n c) (hx : x ∈ edges)
    (h : x ∉ absentEdges c.topology edgeType edges .checkExisting n) :
    c.topology.Visible ⟨edgeType, x.1, x.2⟩ := by
  have htest : ¬ (!(BulkImportDuplicatePolicy.checkExisting.checks && n ≠ 0 &&
      (c.topology.edgeEpochAt ⟨edgeType, x.1, x.2⟩ n).isSome)) = true :=
    fun ht => h (mem_filter.2 ⟨hx, ht⟩)
  rw [Bool.not_eq_true', Bool.not_eq_false, Bool.and_eq_true] at htest
  exact (Topology.isSome_edgeEpochAt ok.adjacency.bounded).1 htest.2

/-- What an import writes once its edges are counted: the relationship tables, and records for the
ends of the new relationships where the request did not match them. -/
theorem Steps.finishImport (ok : CellOk g n c)
    {labels : Option (String × String)} (hvertices : counted.vertices = c.vertices)
    (hrelationships : counted.relationships = c.relationships)
    (hclassified : classified.Ok g c.relationships edgeType matched rows)
    (distinct : (rows.map RelationshipMutation.relationshipId).Nodup)
    (visible : ∀ row ∈ classified.inserted, counted.topology.Visible row.edge)
    (hlacking : ∀ v, lacking v → ∃ row ∈ classified.inserted, v = row.src ∨ v = row.dst)
    (hmatched : labels.isSome = true → ∀ row ∈ matched,
      c.vertices.records.contains row.src = true ∧ c.vertices.records.contains row.dst = true) :
    let c₁ := counted.setRelationships (counted.relationships.applyImport classified rows
      pointerUpdates (decide (n = 0)))
    Steps F g (n + 1) ⟨counted, ⟨fun _ => 0, fun _ => 0, lacking, fun _ => 0⟩⟩
      ⟨if labels.isSome then c₁
      else c₁.setVertices (c₁.vertices.ensureRecords
        (classified.inserted.flatMap fun row => [row.src, row.dst]) ∅ (decide (n = 0))),
        .zero⟩ := by
  intro c₁
  have hempty : decide (n = 0) = true → c = .empty := fun h => ok.fresh (of_decide_eq_true h)
  have himport : Steps F g (n + 1) ⟨counted, ⟨fun _ => 0, fun _ => 0, lacking, fun _ => 0⟩⟩
      ⟨c₁, ⟨fun _ => 0, fun _ => 0, lacking, fun _ => 0⟩⟩ := by
    refine applyImport (hrelationships ▸ ok.relationships) (hrelationships ▸ hclassified)
      distinct visible fun hfresh k => ?_
    rw [hrelationships, hempty hfresh]
    rfl
  refine himport.trans ?_
  split
  · next hlabels =>
    refine .single (.settle _ fun _ v hv => .inl ?_)
    obtain ⟨row, hrow, hv⟩ := hlacking v hv
    obtain ⟨row₀, hrow₀, hsrc, hdst⟩ := (hclassified.inserted row hrow).1.ends
    have hends := hmatched hlabels row₀ hrow₀
    rw [← hvertices] at hends
    rcases hv with rfl | rfl
    · rw [hsrc]; exact hends.1
    · rw [hdst]; exact hends.2
  · refine (ensureRecords fun hfresh v => ?_).tail (.settle _ fun _ v hv => .inl ?_)
    · change counted.vertices.records.get v = none
      rw [hvertices, hempty hfresh]
      rfl
    obtain ⟨row, hrow, hv⟩ := hlacking v hv
    refine VertexStore.contains_ensureRecords.2 (.inl ⟨mem_flatMap.2 ⟨row, hrow, ?_⟩, rfl⟩)
    rcases hv with rfl | rfl
    · exact mem_cons_self
    · exact mem_cons_of_mem _ mem_cons_self

theorem importRelationshipsBatchTxn_committed (ok : CellOk g n c)
    (policy : env.reverseIndex = g.reverseIndex) (hrows : ∀ row ∈ rows, row.edgeType = edgeType ∧
      (g.canonical = true → row.metadata.properties.Canonical))
    (distinct : options.createAlways = false →
      (rows.map RelationshipMutation.relationshipId).Nodup) (hguarded : GuardedRowsOk g options)
    (h : importRelationshipsBatchTxn env cellId edgeType rows idempotencyKey fingerprint options n
      c = .ok (.commit c' r)) : Committed F g (n + 1) c c' := by
  replace h := seq_ok h
  replace h := replayOr_commit h
  obtain ⟨resolved, hresolve, h⟩ := bind_ok h
  obtain ⟨prefetched, hprefetch, h⟩ := bind_ok h
  obtain ⟨classified, hclassify, h⟩ := bind_ok h
  obtain ⟨epoch, hepoch, h⟩ := bind_ok h
  cases commitTxn_ok h
  -- what the rows mean
  set matched := retainMatched c.vertices options.endpointLabels rows
  have hsub : matched.Sublist rows := retainMatched_sublist
  have hsource : ∀ row ∈ matched, RowOk g edgeType matched row := fun row hrow =>
    have hrow' := hrows row (hsub.subset hrow)
    ⟨hrow'.1, ⟨row, hrow, rfl, rfl⟩, hrow'.2⟩
  have hresolved := resolveRows_ok ok.relationships hguarded hsource
    (fun hcreate => (distinct hcreate).sublist (hsub.map _)) hresolve
  have hclassified := classifyRows_ok ok.relationships hresolved hprefetch hclassify
  -- the edges
  set toInsert := absentEdges c.topology edgeType (structuralEdges classified.inserted)
    .checkExisting n with htoInsert
  have hnext : toInsert ≠ [] → epoch = n + 1 := by
    intro hne
    have hchanged : (!classified.inserted.isEmpty || !toInsert.isEmpty ||
        !classified.updated.isEmpty) = true := by
      simp [hne]
    rw [epochIf, if_pos hchanged] at hepoch
    exact nextSequence_ok hepoch
  obtain ⟨⟨l, hsteps, hledger⟩, hvisible⟩ := Steps.importEdges policy cellId hnext
    ((nodup_sortDedupEdges _).filter _) fun _ => not_visible_of_mem_absentEdges ok (by rintro ⟨⟩)
  obtain ⟨hvertices, hout, hin, hrelationships⟩ :=
    importEdges_frame env cellId edgeType epoch toInsert c
  have hfold : toInsert.foldl
      (fun c x => c.insertDirect env.reverseIndex ⟨edgeType, x.1, x.2⟩)
      (if toInsert.isEmpty then c
      else c.markTopologyChange env cellId edgeType epoch
        (toInsert.map fun x => (x.1, x.2, true))) =
      toInsert.foldl (fun c x => c.importEdge env cellId edgeType epoch x) c := by
    cases toInsert with
    | nil => rfl
    | cons => exact (foldl_importEdge env cellId edgeType epoch (by simp) c).symm
  rw [hfold]
  generalize toInsert.foldl (fun c x => c.importEdge env cellId edgeType epoch x) c = c₁
    at hsteps hvisible hvertices hout hin hrelationships
  refine Committed.putIdempotency (hsteps.trans ?_) _ _ _
  obtain ⟨hcountOut, hcountIn, hcountNone⟩ := hledger.degrees ok c₁.topology hout hin
  have hdegrees := Steps.settleDegrees (F := F) (e := n + 1) policy (fun _ => hcountOut)
    (fun _ => hcountIn) hcountNone
  rw [hledger.uncounted] at hdegrees
  refine hdegrees.trans (Steps.finishImport ok ?_ ?_ hclassified hresolved.distinct ?_ ?_ ?_)
  · split <;> exact hvertices
  · split <;> exact hrelationships
  · intro row hrow
    have hedge : row.edge = ⟨edgeType, row.src, row.dst⟩ := by
      rw [← (hclassified.inserted row hrow).1.edgeType]
      rfl
    have hrowVisible : c₁.topology.Visible row.edge := by
      rw [hvisible, hedge]
      by_cases hmem : (row.src, row.dst) ∈ toInsert
      · exact .inl ⟨_, hmem, rfl⟩
      · exact .inr (visible_of_notMem_absentEdges ok (mem_structuralEdges.2 ⟨row, hrow, rfl⟩) hmem)
    split <;> exact hrowVisible
  · intro v hv
    obtain ⟨x, hx, hv⟩ := mem_flatMap.1 (hledger.lacking v hv)
    obtain ⟨row, hrow, rfl⟩ := mem_structuralEdges.1 (mem_filter.1 hx).1
    exact ⟨row, hrow, mem_pair.1 hv⟩
  · exact fun hlabels => contains_of_mem_retainMatched hlabels

/-! ## Requests -/

/-- A row as a request has it once it is checked. -/
def RequestRowOk (g : Regime) (edgeType : EdgeType) (row : RelationshipMutation) : Prop :=
  row.edgeType = edgeType ∧ (g.canonical = true → row.metadata.properties.Canonical)

theorem validateRelationshipBatchEntry_ok
    (h : validateRelationshipBatchEntry cellId edgeType row = .ok u) : row.edgeType = edgeType := by
  replace h := seq_ok₃ h
  split at h
  · cases h
  · split at h
    · cases h
    · next hty => exact not_not.1 hty

theorem foldRelationshipRow_ok (hkept : RequestRowOk g edgeType kept)
    (hrow : RequestRowOk g edgeType row) (h : foldRelationshipRow cellId fold kept row = .ok folded)
    : RequestRowOk g edgeType folded ∧ folded.relationshipId = kept.relationshipId := by
  unfold foldRelationshipRow at h
  split at h
  · cases h
  replace h := rest_of_ne h nofun
  split at h
  · cases h
    exact ⟨⟨hkept.1, fun hg => (hkept.2 hg).extend (hrow.2 hg)⟩, rfl⟩
  split at h
  · obtain ⟨ordering, -, h⟩ := bind_ok h
    cases h
    split
    · refine ⟨⟨hkept.1, fun hg => (hkept.2 hg).putAll fun x hx => ?_⟩, rfl⟩
      exact hrow.2 hg x (mem_filter.1 hx).1
    · exact ⟨hkept, rfl⟩
  · cases h

theorem mixedGuardedRelationshipRows_ok
    (h : mixedGuardedRelationshipRows rows policy limit = .ok groups) :
    ∀ id patches, groups.get id = some patches → ∀ p ∈ patches, ∃ row ∈ rows, row.metadata = p := by
  unfold mixedGuardedRelationshipRows at h
  split at h
  · cases h
    intro id patches hget
    cases hget
  obtain ⟨⟨shapes, mixed⟩, -, h⟩ := bind_ok h
  cases h
  refine foldl_invariant (P := fun groups : OrdMap RelationshipId (List EdgeMetadata) =>
    ∀ id patches, groups.get id = some patches → ∀ p ∈ patches, ∃ row ∈ rows, row.metadata = p)
    nofun ?_
  intro row hrow groups hgroups
  split
  · refine forall_get_put hgroups (forall_mem_snoc.2 ⟨fun p hp => ?_, row, hrow, rfl⟩)
    cases hold : groups.get row.relationshipId with
    | none => rw [hold] at hp; cases hp
    | some old => rw [hold] at hp; exact hgroups _ old hold p hp
  · exact hgroups

variable {rows : List RelationshipMutation}
  (canonical : g.canonical = true → ∀ row ∈ rows, row.metadata.properties.Canonical)

include canonical

/-- Folding the rows of a request leaves one row a relationship id. -/
theorem coalesceRelationshipImports_ok
    (h : coalesceRelationshipImports cellId edgeType rows fold = .ok coalesced) :
    (∀ row ∈ coalesced, RequestRowOk g edgeType row) ∧
      (coalesced.map RelationshipMutation.relationshipId).Nodup := by
  obtain ⟨byId, hloop, h⟩ := bind_ok h
  cases h
  have key : ∀ id row, byId.get id = some row →
      RequestRowOk g edgeType row ∧ row.relationshipId = id := by
    refine foldlM_ok_invariant (P := fun byId =>
      ∀ id row, byId.get id = some row → RequestRowOk g edgeType row ∧ row.relationshipId = id)
      hloop nofun ?_
    intro row hrow byId byId' hbyId hstep
    obtain ⟨_, hvalid, hstep⟩ := bind_ok hstep
    have hrowOk : RequestRowOk g edgeType row :=
      ⟨validateRelationshipBatchEntry_ok hvalid, fun hg => canonical hg row hrow⟩
    split at hstep
    · cases hstep
      exact forall_get_put hbyId ⟨hrowOk, rfl⟩
    next kept hkept =>
    split at hstep
    · cases hstep
      exact hbyId
    obtain ⟨folded, hfolded, hstep⟩ := bind_ok hstep
    cases hstep
    obtain ⟨hkeptOk, hkeptId⟩ := hbyId _ _ hkept
    obtain ⟨hfoldedOk, hfoldedId⟩ := foldRelationshipRow_ok hkeptOk hrowOk hfolded
    exact forall_get_put hbyId ⟨hfoldedOk, hfoldedId.trans hkeptId⟩
  have hentry : ∀ x ∈ byId.entries, RequestRowOk g edgeType x.2 ∧ x.2.relationshipId = x.1 :=
    fun x hx => key x.1 x.2 (mem_entries.1 hx)
  refine ⟨fun row hrow => ?_, ?_⟩
  · obtain ⟨x, hx, rfl⟩ := mem_map.1 hrow
    exact (hentry x hx).1
  have hids : (byId.entries.map Prod.snd).map RelationshipMutation.relationshipId = byId.keys := by
    rw [map_map]
    exact map_congr_left fun x hx => (hentry x hx).2
  rw [hids]
  exact nodup_keys

theorem requestedRows_ok (h : requestedRows cellId edgeType rows options = .ok requested) :
    (∀ row ∈ requested, RequestRowOk g edgeType row) ∧ (options.createAlways = false →
      (requested.map RelationshipMutation.relationshipId).Nodup) := by
  unfold requestedRows at h
  split at h
  · next hcreate =>
    obtain ⟨_, hvalid, h⟩ := bind_ok h
    cases h
    refine ⟨fun row hrow => ⟨?_, fun hg => canonical hg row hrow⟩, fun hnot => ?_⟩
    · exact validateRelationshipBatchEntry_ok (forM_ok hvalid row hrow)
    · rw [hcreate] at hnot
      cases hnot
  · obtain ⟨hrows, hdistinct⟩ := coalesceRelationshipImports_ok canonical h
    exact ⟨hrows, fun _ => hdistinct⟩

theorem importRelationshipsBatchWithEndpointLabels_committed (ok : CellOk g n c)
    (policy : env.reverseIndex = g.reverseIndex)
    (h : importRelationshipsBatchWithEndpointLabels env cellId edgeType rows idempotencyKey options
      n c = .ok (.commit c' r)) : Committed F g (n + 1) c c' := by
  replace h := seq_ok₂ h
  replace h := seq_ok₂ h
  obtain ⟨guardedRows, hguarded, h⟩ := bind_ok h
  obtain ⟨coalesced, hcoalesced, h⟩ := bind_ok h
  replace h := rest_of_ne h nofun
  replace h := seq_ok h
  obtain ⟨hrows, hdistinct⟩ := requestedRows_ok canonical hcoalesced
  have hperm : (sortRows coalesced).Perm coalesced := perm_insertionSort _ _
  refine importRelationshipsBatchTxn_committed ok policy
    (fun row hrow => hrows row (hperm.mem_iff.1 hrow))
    (fun hcreate => (hperm.map _).nodup_iff.2 (hdistinct hcreate)) ?_ h
  intro hg id patches hget p hp
  obtain ⟨row, hrow, rfl⟩ := mixedGuardedRelationshipRows_ok hguarded id patches hget p hp
  exact canonical hg row hrow

end HydraDb
