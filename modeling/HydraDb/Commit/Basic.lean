import HydraDb.Invariant.Cell

/-!
# Reading a transaction body

What the transaction bodies share, as sequences of steps: the frame of a body (fence, replay,
commit), the vertex records of inserted edges, metadata updates, the insert of a counted edge and
the delete of an edge with its relationships.
-/

namespace HydraDb

open List hiding contains_iff
open OrdMap

/-! ## The frame of a body -/

section

variable {c c' : Cell}

theorem nextSequence_ok (h : nextSequence n key reason = .ok e) : e = n + 1 := by
  unfold nextSequence at h
  split at h
  · exact (Except.ok.inj h).symm
  · cases h

theorem nextSequence_lt (h : nextSequence n key reason = .ok e) : n + 1 < u64Bound := by
  unfold nextSequence at h
  split at h
  · assumption
  · cases h

theorem commitTxn_ok (h : commitTxn n c r = .ok (.commit c' r')) : c' = c := by
  replace h := seq_ok h
  cases h
  rfl

theorem commitTxnIf_ok (h : commitTxnIf wrote n c r = .ok (.commit c' r')) : c' = c := by
  replace h := seq_ok h
  cases wrote <;> cases h
  rfl

/-- A body that commits did not answer from a recorded result. -/
theorem replayOr_commit (h : c.replayOr cellId operation key decode body = .ok (.commit c' r')) :
    body = .ok (.commit c' r') := by
  unfold Cell.replayOr at h
  split at h
  · obtain ⟨_, -, h⟩ := bind_ok h
    cases h
  · exact h

end

/-! ## Steps and committed cells -/

section

/-- A step whose draft is written in another way. -/
theorem Step.to (h : Step F g e d d') (hcell : c' = d'.cell) (hledger : l' = d'.ledger) :
    Step F g e d ⟨c', l'⟩ := by
  subst hcell hledger
  exact h

/-- Recording the result ends a transaction. -/
theorem Committed.putIdempotency (h : Committed F g e c c₁) (operation key : String)
    (record : IdempotencyRecord) : Committed F g e c (c₁.putIdempotency operation key record) :=
  h.tail (.putIdempotency operation key record)

end

/-! ## Vertex records -/

namespace Steps

/-- Giving records to vertices that may lack one. A fresh cell has none of them. -/
theorem ensureRecords (hfresh : fresh = true → ∀ v, c.vertices.records.get v = none) :
    Steps F g e ⟨c, l⟩ ⟨c.setVertices (c.vertices.ensureRecords endpoints skip fresh), l⟩ := by
  set vs := (OrdMap.addAll ∅ (endpoints.filter fun v => !skip.contains v)).keys with hvs
  have hnodup : vs.Nodup := nodup_keys
  -- the vertices not yet visited have the records they had
  have key := foldl_induction (f := VertexStore.ensureRecord fresh) (l := vs)
    (P := fun done s => Steps F g e ⟨c, l⟩ ⟨c.setVertices s, l⟩ ∧
      ∀ v, v ∉ done → s.records.get v = c.vertices.records.get v)
    ⟨.refl, fun _ _ => rfl⟩ ?_
  · exact key.1
  rintro done v rest s hl ⟨hsteps, hsame⟩
  have hv : v ∉ done := not_mem_done hnodup hl
  unfold VertexStore.ensureRecord
  split
  · next hcond =>
    have habsent : s.records.get v = none := by
      rcases Bool.or_eq_true_iff.1 hcond with hf | hc
      · rw [hsame v hv, hfresh hf v]
      · cases hget : s.records.get v with
        | none => rfl
        | some => rw [contains_of_get hget] at hc; cases hc
    refine ⟨hsteps.tail (.ensureVertex v habsent), fun w hw => ?_⟩
    rw [mem_snoc, not_or] at hw
    rw [get_put_of_ne hw.2, hsame w hw.1]
  · exact ⟨hsteps, fun w hw => hsame w fun h => hw (mem_append_left _ h)⟩

end Steps

namespace VertexStore

variable {s : VertexStore}

theorem contains_ensureRecord :
    (s.ensureRecord fresh v).records.contains w = true ↔ w = v ∨ s.records.contains w = true := by
  unfold ensureRecord
  split
  · exact contains_put
  next h =>
  have hv : s.records.contains v = true := by
    rw [Bool.or_eq_true_iff, not_or] at h
    simpa using h.2
  constructor
  · exact .inr
  · rintro (rfl | h)
    · exact hv
    · exact h

/-- After `ensureRecords` the endpoints that are not skipped have a record. -/
theorem contains_ensureRecords :
    (s.ensureRecords endpoints skip fresh).records.contains w = true ↔
      w ∈ endpoints ∧ skip.contains w = false ∨ s.records.contains w = true := by
  have key : ∀ (vs : List VertexId) s,
      (vs.foldl (ensureRecord fresh) s).records.contains w = true ↔
        w ∈ vs ∨ s.records.contains w = true := by
    intro vs
    induction vs with
    | nil => simp
    | cons v vs ih =>
      intro s
      rw [foldl_cons, ih, contains_ensureRecord, mem_cons, or_left_comm, or_assoc]
  rw [ensureRecords, key, mem_keys_iff_contains, contains_addAll, mem_filter]
  simp

end VertexStore

/-! ## Metadata -/

section

variable {c c' : Cell}

variable {k : EdgeKey}

/-- Writing records of distinct vertices, each over the record the cell has. -/
theorem Steps.applyChangedMetadata (distinct : (changed.map Prod.fst).Nodup)
    (previous : ∀ u ∈ changed, u.2.1 = (c.vertices.records.get u.1).getD default)
    (h : c.applyChangedMetadata changed = .ok c') (form : ∀ u ∈ changed, F u.2.2) :
    Steps F g e ⟨c, l⟩ ⟨c', l⟩ := by
  obtain ⟨vertices, hloop, h⟩ := bind_ok h
  cases h
  -- a vertex not yet visited has the record it had, which is the `previous` of its update
  have key := foldlM_ok_induction
    (P := fun done s => Steps F g e ⟨c, l⟩ ⟨c.setVertices s, l⟩ ∧
      ∀ v, v ∉ done.map Prod.fst → s.records.get v = c.vertices.records.get v)
    hloop ⟨.refl, fun _ _ => rfl⟩ ?_
  · exact key.1
  rintro done u rest s s' hl ⟨hsteps, hsame⟩ hs'
  have hu : u.1 ∉ done.map Prod.fst := key_not_mem_done distinct hl
  have hmem : u ∈ changed := mem_of_next hl
  rw [previous u hmem, ← hsame u.1 hu] at hs'
  refine ⟨hsteps.tail (.putVertex u.1 u.2.2 s' (form u hmem) hs'), fun v hv => ?_⟩
  rw [not_mem_map_snoc] at hv
  rw [VertexStore.records_applyMetadataUpdate hs', get_put_of_ne hv.2, hsame v hv.1]

theorem map_fst_changedMetadata :
    ((changedMetadata s updates).map Prod.fst).Sublist (updates.map Prod.fst) := by
  rw [changedMetadata, filterMap_ite, map_map]
  exact filter_sublist.map _

theorem previous_of_mem_changedMetadata :
    ∀ u ∈ changedMetadata s updates, u.2.1 = (s.records.get u.1).getD default := by
  rw [changedMetadata, filterMap_ite]
  intro u hu
  obtain ⟨x, -, rfl⟩ := mem_map.1 hu
  rfl

/-- After the update every vertex it names has a record, and only the vertex tables changed. -/
theorem Cell.applyChangedMetadata_ok
    (h : c.applyChangedMetadata (changedMetadata c.vertices updates) = .ok c') :
    ∃ vertices, c' = c.setVertices vertices ∧
      ∀ v, v ∈ updates.map Prod.fst ∨ c.vertices.records.contains v = true →
        vertices.records.contains v = true := by
  obtain ⟨vertices, hloop, h⟩ := bind_ok h
  cases h
  refine ⟨vertices, rfl, ?_⟩
  have key := foldlM_ok_induction
    (P := fun done s => ∀ v, v ∈ done.map Prod.fst ∨
      c.vertices.records.contains v = true → s.records.contains v = true)
    hloop (fun v hv => hv.resolve_left not_mem_nil) ?_
  · intro v hv
    refine key v ?_
    by_cases hc : c.vertices.records.contains v = true
    · exact .inr hc
    obtain ⟨u, hu, rfl⟩ := mem_map.1 (hv.resolve_right hc)
    have hnone : c.vertices.records.get u.1 = none := by
      rwa [contains_iff, Option.not_isSome_iff_eq_none] at hc
    refine .inl (mem_map.2 ⟨(u.1, _, _), mem_filterMap.2 ⟨u, hu, if_pos (.inr ?_)⟩, rfl⟩)
    rw [hnone]; rfl
  · intro done u rest s s' _ hP hs' v hv
    rw [VertexStore.records_applyMetadataUpdate hs', contains_put]
    rw [map_append, mem_append, map_singleton, mem_singleton] at hv
    rcases hv with (hv | hv) | hv
    · exact .inr (hP v (.inl hv))
    · exact .inl hv
    · exact .inr (hP v (.inr hv))

/-- Writing the metadata of an edge. -/
theorem Steps.applyEdgeMetadata (h : c.applyEdgeMetadata k (c.edgeMetadata.read k) next' = .ok c') :
    Steps F g e ⟨c, l⟩ ⟨c', l⟩ := by
  unfold Cell.applyEdgeMetadata at h
  split at h
  · cases h; exact .refl
  · obtain ⟨edgeMetadata, hwritten, h⟩ := bind_ok h
    cases h
    exact .single (.putEdgeMetadata k next' edgeMetadata hwritten)

theorem Cell.applyEdgeMetadata_ok (h : c.applyEdgeMetadata k previous next' = .ok c') :
    ∃ edgeMetadata, c' = c.setEdgeMetadata edgeMetadata := by
  unfold applyEdgeMetadata at h
  split at h
  · cases h; exact ⟨c.edgeMetadata, rfl⟩
  · obtain ⟨edgeMetadata, -, h⟩ := bind_ok h
    cases h
    exact ⟨edgeMetadata, rfl⟩

/-- Clearing the metadata of an edge. -/
theorem Steps.clear (h : c.edgeMetadata.clear k = .ok edgeMetadata) :
    Steps F g e ⟨c, l⟩ ⟨c.setEdgeMetadata edgeMetadata, l⟩ := by
  unfold EdgeMetadataStore.clear at h
  simp only at h
  split at h
  · cases h; exact .refl
  · exact .single (.putEdgeMetadata k default edgeMetadata h)

end

/-! ## Counted edges -/

section

variable {g : Regime} {c c₀ c₁ : Cell}
  {env : WriteEnv}
  {k : EdgeKey}

/-- Writing the out-degree of a source settles what is owed for it. -/
theorem Step.payOut {n : Nat} (h : g.trusted = true → (n : Int) = c.topology.degreeOut.count i + δ)
    : Step F g e ⟨c, l.addOut i δ⟩ ⟨c.setDegreeOut (c.topology.degreeOut.put i n), l⟩ := by
  refine .countOut _ l.out fun ht i' => ?_
  have hn := h ht
  simp only [Ledger.addOut, count_put]
  split
  · next hi => subst hi; omega
  · omega

/-- Writing the in-degree of a destination settles what is owed for it. -/
theorem Step.payIn {n : Nat} (h : g.trusted = true → (n : Int) = c.topology.degreeIn.count i + δ) :
    Step F g e ⟨c, l.addIn i δ⟩ ⟨c.setDegreeIn (c.topology.degreeIn.put i n), l⟩ := by
  refine .countIn _ l.inn fun ht i' => ?_
  have hn := h ht
  simp only [Ledger.addIn, count_put]
  split
  · next hi => subst hi; omega
  · omega

theorem Cell.vertices_insertCountedEdge :
    (c.insertCountedEdge env cellId k e).vertices = c.vertices := by
  unfold insertCountedEdge
  split <;> rfl

theorem Cell.relationships_insertCountedEdge :
    (c.insertCountedEdge env cellId k e).relationships = c.relationships := by
  unfold insertCountedEdge
  split <;> rfl

theorem Cell.visible_insertCountedEdge :
    (c.insertCountedEdge env cellId k e).topology.Visible k' ↔ k' = k ∨ c.topology.Visible k' := by
  unfold insertCountedEdge
  split <;> exact Topology.visible_insertDirect (r := env.reverseIndex)

/-- Settling vertices that all have records. -/
theorem Steps.settleLacking (hl : ∀ v, ¬ l.lacking v)
    (h : ∀ v ∈ vertices, c.vertices.records.contains v = true) :
    Steps F g e ⟨c, l.addLacking vertices⟩ ⟨c, l⟩ :=
  .single (.settle l.lacking fun _ v hv => .inl (h v (hv.resolve_left (hl v))))

variable (policy : env.reverseIndex = g.reverseIndex)

include policy

/-- Inserting an edge and counting it. -/
theorem Steps.insertCountedEdge (absent : g.trusted = true → ¬ c.topology.Visible k) :
    Steps F g e ⟨c, l⟩ ⟨c.insertCountedEdge env cellId k e, l.addLacking [k.src, k.dst]⟩ := by
  have hinsert : Step F g e ⟨c, l⟩
      ⟨(c.insertDirect g.reverseIndex k).logChange (env.floorEnsured cellId k.edgeType) k.edgeType
        e [(k.src, k.dst, true)],
      ((l.addLacking [k.src, k.dst]).addIn ⟨k.edgeType, k.dst⟩
        (if g.reverseIndex then 1 else 0)).addOut ⟨k.edgeType, k.src⟩ 1⟩ :=
    .insertEdge k (env.floorEnsured cellId k.edgeType) absent
  refine .head hinsert ?_
  refine .head (.payOut fun _ => rfl) ?_
  unfold Cell.insertCountedEdge
  rw [policy]
  cases g.reverseIndex with
  | true => exact .single (.payIn fun _ => rfl)
  | false =>
    rw [if_neg Bool.false_ne_true, Ledger.addIn_zero]
    exact .refl

/-- Writing the counters after a loop settles the degrees it left to be counted. -/
theorem Steps.settleDegrees
    (hout : g.trusted = true → ∀ i, (outs.count i : Int) = c.topology.degreeOut.count i + l.out i)
    (hin : g.trusted = true → g.reverseIndex = true → ∀ i,
      (inns.count i : Int) = c.topology.degreeIn.count i + l.inn i)
    (hnone : g.reverseIndex = false → ∀ i, l.inn i = 0) :
    Steps F g e ⟨c, l⟩
      ⟨if env.reverseIndex then (c.setDegreeOut outs).setDegreeIn inns else c.setDegreeOut outs,
      { l with out := fun _ => 0, inn := fun _ => 0 }⟩ := by
  have hfirst : Step F g e ⟨c, l⟩ ⟨c.setDegreeOut outs, { l with out := fun _ => 0 }⟩ :=
    .countOut outs _ fun ht i => (Int.add_zero _).trans (hout ht i)
  refine .head hfirst ?_
  rw [policy]
  cases hr : g.reverseIndex with
  | true => exact .single (.countIn inns _ fun ht i => (Int.add_zero _).trans (hin ht hr i))
  | false =>
    have hzero : l.inn = fun _ => 0 := funext (hnone hr)
    rw [if_neg Bool.false_ne_true, hzero]

/-- Writing the counters and the endpoint records after a loop of inserts settles what the loop
owes. -/
theorem Steps.settleInserts

    (hout : g.trusted = true → ∀ i, (outs.count i : Int) = c.topology.degreeOut.count i + l.out i)
    (hin : g.trusted = true → g.reverseIndex = true → ∀ i,
      (inns.count i : Int) = c.topology.degreeIn.count i + l.inn i)
    (hnone : g.reverseIndex = false → ∀ i, l.inn i = 0)
    (hfresh : fresh = true → ∀ v, c.vertices.records.get v = none)
    (hends : ∀ v, l.lacking v → v ∈ endpoints ∨ c.vertices.records.contains v = true) :
    let counted := if env.reverseIndex then (c.setDegreeOut outs).setDegreeIn inns
      else c.setDegreeOut outs
    Steps F g e ⟨c, l⟩ ⟨counted.setVertices (counted.vertices.ensureRecords endpoints ∅ fresh),
      { l with out := fun _ => 0, inn := fun _ => 0, lacking := fun _ => False }⟩ := by
  intro counted
  refine (settleDegrees policy hout hin hnone).trans ?_
  have hvertices : counted.vertices = c.vertices := by unfold counted; split <;> rfl
  rw [← hvertices] at hfresh hends
  refine (ensureRecords hfresh).tail (.settle _ fun _ v hv => .inl ?_)
  exact VertexStore.contains_ensureRecords.2 ((hends v hv).imp_left fun h => ⟨h, rfl⟩)

/-- Inserting an edge with records for its ends. The ends in `skip` have one already. -/
theorem Steps.insertEdgeWithEnds
    (absent : g.trusted = true → ¬ c.topology.Visible k) (hl : ∀ v, ¬ l.lacking v)
    (hskip : ∀ v, skip.contains v = true → c.vertices.records.contains v = true) :
    Steps F g e ⟨c, l⟩
      ⟨(c.setVertices (c.vertices.ensureRecords [k.src, k.dst] skip false)).insertCountedEdge env
        cellId k e, l⟩ := by
  have hensure : Steps F g e ⟨c, l⟩
      ⟨c.setVertices (c.vertices.ensureRecords [k.src, k.dst] skip false), l⟩ :=
    ensureRecords nofun
  refine (hensure.trans (insertCountedEdge policy absent)).trans (settleLacking hl ?_)
  intro v hv
  rw [Cell.vertices_insertCountedEdge]
  refine VertexStore.contains_ensureRecords.2 ?_
  cases hs : skip.contains v with
  | false => exact .inl ⟨hv, rfl⟩
  | true => exact .inr (hskip v hs)

end

/-! ## Deleted edges -/

namespace RelationshipStore

variable {s : RelationshipStore} {k : EdgeKey}

theorem mem_liveForEdge :
    record ∈ s.liveForEdge k ↔
      s.records.get record.key = some record.metadata ∧ record.key.edge = k := by
  obtain ⟨key, metadata⟩ := record
  simp only [liveForEdge, mem_map, Prod.exists, mem_scan, decide_eq_true_eq,
    RelationshipRecord.mk.injEq]
  constructor
  · rintro ⟨_, _, h, rfl, rfl⟩
    exact h
  · exact fun h => ⟨key, metadata, h, rfl, rfl⟩

theorem liveForEdge_eq_nil (h : s.Bare k) : s.liveForEdge k = [] := by
  refine eq_nil_iff_forall_not_mem.2 fun record hrecord => ?_
  obtain ⟨hget, hedge⟩ := mem_liveForEdge.1 hrecord
  exact Option.some_ne_none _ (hget.symm.trans (h record.key hedge))

theorem nodup_liveForEdge : ((s.liveForEdge k).map RelationshipRecord.key).Nodup := by
  have h : (s.liveForEdge k).map RelationshipRecord.key =
      (s.records.restrict fun r => r.edge = k).keys := by
    rw [liveForEdge, map_map]
    rfl
  rw [h]
  exact nodup_keys

end RelationshipStore

section

variable {g : Regime} {c c₀ c₁ : Cell}
  {env : WriteEnv}
  {k : EdgeKey}

/-- A loop that deletes live relationships, each once. -/
theorem Steps.deleteEach {α : Type} (record : α → RelationshipRecord) (f : Cell → α → Cell)
    (hsteps : ∀ c l a, Steps F g e
      ⟨c.setRelationships (c.relationships.deleteRecord (record a)), l⟩ ⟨f c a, l⟩)
    (hstore : ∀ c a, (f c a).relationships = c.relationships.deleteRecord (record a))
    (items : List α) (distinct : (items.map fun a => (record a).key).Nodup)
    (live : ∀ a ∈ items, c.relationships.records.get (record a).key = some (record a).metadata) :
    Steps F g e ⟨c, l⟩
        ⟨items.foldl f c, { l with
          uncounted := fun k =>
            l.uncounted k - (items.countP fun a => (record a).key.edge = k) }⟩ ∧
      ∀ r, (items.foldl f c).relationships.records.get r =
        if r ∈ items.map fun a => (record a).key then none
        else c.relationships.records.get r := by
  refine foldl_induction (P := fun done c₁ =>
    Steps F g e ⟨c, l⟩ ⟨c₁, { l with
      uncounted := fun k => l.uncounted k - (done.countP fun a => (record a).key.edge = k) }⟩ ∧
    ∀ r, c₁.relationships.records.get r =
      if r ∈ done.map fun a => (record a).key then none
      else c.relationships.records.get r) ⟨?_, fun r => rfl⟩ ?_
  · simp only [countP_nil, Int.natCast_zero, Int.sub_zero]
    exact .refl
  rintro done a rest c₁ hl ⟨hdone, hget⟩
  have hnew : (record a).key ∉ done.map fun a => (record a).key :=
    key_not_mem_done distinct hl
  have hpresent : c₁.relationships.records.get (record a).key = some (record a).metadata := by
    rw [hget, if_neg hnew, live a (mem_of_next hl)]
  refine ⟨(hdone.tail (Step.to (.deleteRelationship (record a) hpresent) rfl ?_)).trans
    (hsteps c₁ _ a), fun r => ?_⟩
  · ext k
    all_goals simp only [Ledger.addUncounted, countP_append, countP_singleton]
    by_cases hk : k = (record a).key.edge
    · simp [hk]; omega
    · have hk' : ¬ (record a).key.edge = k := fun h => hk h.symm
      simp [hk, hk']
  · rw [hstore, RelationshipStore.records_deleteRecord, get_del, hget]
    simp only [map_append, mem_append, map_singleton, mem_singleton]
    by_cases hr : r = (record a).key <;> simp [hr]

theorem Cell.foldl_deleteRecord (records : List RelationshipRecord) (c : Cell) :
    records.foldl (fun c record => c.setRelationships (c.relationships.deleteRecord record)) c =
      c.setRelationships (records.foldl RelationshipStore.deleteRecord c.relationships) := by
  induction records generalizing c with
  | nil => rfl
  | cons record records ih => rw [foldl_cons, ih]; rfl

/-- Deleting the relationships of an edge leaves it bare and its count at zero. -/
theorem Steps.deleteForEdge
    (ok : RelationshipsOk g c.topology c.relationships l.uncounted) (counted : l.uncounted k = 0) :
    Steps F g e ⟨c, l⟩ ⟨c.setRelationships (c.relationships.deleteForEdge k).1, l⟩ ∧
      (c.relationships.deleteForEdge k).1.Bare k := by
  have hlive : ∀ record ∈ c.relationships.liveForEdge k,
      c.relationships.records.get record.key = some record.metadata ∧ record.key.edge = k :=
    fun record hrecord => RelationshipStore.mem_liveForEdge.1 hrecord
  obtain ⟨hsteps, hget⟩ := deleteEach id
    (fun c record => c.setRelationships (c.relationships.deleteRecord record))
    (fun _ _ _ => .refl) (fun _ _ => rfl) (c.relationships.liveForEdge k)
    RelationshipStore.nodup_liveForEdge fun record hrecord => (hlive record hrecord).1
  rw [Cell.foldl_deleteRecord] at hsteps hget
  set s := (c.relationships.liveForEdge k).foldl RelationshipStore.deleteRecord c.relationships
  have bare : s.Bare k := by
    intro r hr
    refine (hget r).trans ?_
    split
    · rfl
    next hmem =>
    cases hr' : c.relationships.records.get r with
    | none => rfl
    | some metadata =>
      exact absurd (mem_map.2 ⟨⟨r, metadata⟩, RelationshipStore.mem_liveForEdge.2 ⟨hr', hr⟩,
        rfl⟩) hmem
  refine ⟨hsteps.tail (.countRelationships _ l.uncounted fun k' => ?_), bare⟩
  by_cases hk : k' = k
  · -- the invariant says that what is left of the old count is what the ledger owes
    subst hk
    have ok' := (hsteps.invariant ok fun hs ok => hs.relationshipsOk ok).count k'
    have hnil : (c.setRelationships s).relationships.liveForEdge k' = [] :=
      RelationshipStore.liveForEdge_eq_nil bare
    rw [hnil] at ok'
    rw [count_del, if_pos rfl, counted]
    exact ok'
  · have hother : (c.relationships.liveForEdge k).countP (fun record => record.key.edge = k') =
        0 := by
      refine countP_eq_zero.2 fun record hrecord => ?_
      rw [(hlive record hrecord).2, decide_eq_true_eq]
      exact fun h => hk h.symm
    simp only [id, hother, Int.natCast_zero, Int.sub_zero]
    rw [count_del, if_neg hk]
    rfl

/-- What the delete of an edge does apart from its keys and counters. -/
theorem Cell.unlinkEdge_ok (h : c.unlinkEdge env cellId k e = .ok c₁) :
    ∃ edgeMetadata, c.edgeMetadata.clear k = .ok edgeMetadata ∧
      c₁ = ((c.setRelationships (c.relationships.deleteForEdge k).1).setEdgeMetadata
        edgeMetadata).logChange (env.floorEnsured cellId k.edgeType) k.edgeType e
          [(k.src, k.dst, false)] := by
  obtain ⟨edgeMetadata, hclear, h⟩ := bind_ok h
  cases h
  exact ⟨edgeMetadata, hclear, rfl⟩

/-- Deleting an edge stored as a direct key, before it is taken from the counters. -/
theorem Steps.unlinkDirect (ok : DraftOk g e c₀ ⟨c, l⟩) (counted : l.uncounted k = 0)
    (direct : c.topology.Direct k) (reverse : g.reverseIndex = true → mirror = true)
    (h : c.unlinkEdge env cellId k e = .ok c₁) :
    Steps F g e ⟨c, l⟩ ⟨c₁.removeDirect mirror k, l.addEdge g.reverseIndex k (-1)⟩ := by
  obtain ⟨edgeMetadata, hclear, rfl⟩ := Cell.unlinkEdge_ok h
  obtain ⟨hsteps, bare⟩ := deleteForEdge ok.relationships counted
  refine (hsteps.tail (.removeEdge k (env.floorEnsured cellId k.edgeType) mirror direct bare
    reverse)).trans ?_
  exact clear hclear

/-- Deleting an edge that a segment shows, before it is taken from the counter. -/
theorem Steps.unlinkSegment (ok : DraftOk g e c₀ ⟨c, l⟩) (counted : l.uncounted k = 0)
    (hidden : ¬ c.topology.Direct k) (shown : c.topology.SegVisible k)
    (h : c.unlinkEdge env cellId k e = .ok c₁) :
    Steps F g e ⟨c, l⟩ ⟨c₁.putTombstone k e, l.addOut ⟨k.edgeType, k.src⟩ (-1)⟩ := by
  obtain ⟨edgeMetadata, hclear, rfl⟩ := Cell.unlinkEdge_ok h
  obtain ⟨hsteps, bare⟩ := deleteForEdge ok.relationships counted
  refine (hsteps.tail (.hideEdge k (env.floorEnsured cellId k.edgeType) hidden shown bare)).trans ?_
  exact clear hclear

/-- Taking a deleted edge from its out-degree, which is not zero since it counted the edge. -/
theorem Step.decrementOut (ok : DraftOk g e c₀ ⟨c, l.addOut i (-1)⟩) (hout : l.out i = 0) :
    Step F g e ⟨c, l.addOut i (-1)⟩ ⟨c.decrementDegreeOut i, l⟩ := by
  refine .payOut fun ht => ?_
  have hdegree := ok.adjacency.outDegree ht i
  simp only [Ledger.addOut, if_pos, hout] at hdegree
  omega

/-- Taking a deleted edge from its in-degree. -/
theorem Step.decrementIn (ok : DraftOk g e c₀ ⟨c, l.addIn i (-1)⟩) (hin : l.inn i = 0) :
    Step F g e ⟨c, l.addIn i (-1)⟩ ⟨c.decrementDegreeIn i, l⟩ := by
  refine .payIn fun ht => ?_
  have hdegree := ok.adjacency.inDegree ht i
  simp only [Ledger.addIn, if_pos, hin] at hdegree
  omega

/-- Taking a deleted edge from both of its degrees. -/
theorem Steps.decrementDegrees (policy : env.reverseIndex = g.reverseIndex)
    (ok : DraftOk g e c₀ ⟨c, l.addEdge g.reverseIndex k (-1)⟩)
    (hout : ∀ i, l.out i = 0) (hin : ∀ i, l.inn i = 0) :
    Steps F g e ⟨c, l.addEdge g.reverseIndex k (-1)⟩
      ⟨if env.reverseIndex then
        (c.decrementDegreeOut ⟨k.edgeType, k.src⟩).decrementDegreeIn ⟨k.edgeType, k.dst⟩
      else c.decrementDegreeOut ⟨k.edgeType, k.src⟩, l⟩ := by
  have hfirst : Step F g e ⟨c, l.addEdge g.reverseIndex k (-1)⟩
      ⟨c.decrementDegreeOut ⟨k.edgeType, k.src⟩,
      l.addIn ⟨k.edgeType, k.dst⟩ (if g.reverseIndex then -1 else 0)⟩ :=
    Step.decrementOut (l := l.addIn ⟨k.edgeType, k.dst⟩ (if g.reverseIndex then -1 else 0)) ok
      (hout _)
  have ok' := ok.step hfirst
  refine .head hfirst ?_
  rw [policy]
  cases hr : g.reverseIndex with
  | true =>
    rw [hr] at ok'
    exact .single (.decrementIn ok' (hin _))
  | false => rw [if_neg Bool.false_ne_true, if_neg Bool.false_ne_true, Ledger.addIn_zero]

/-! ## Decrements left to the end of a loop -/

/-- What a loop of deletes owes that keeps its decrements in accumulators. -/
def Ledger.decrements (outs inns : OrdMap DegreeKey Nat) : Ledger where
  out k := -outs.count k
  inn k := -inns.count k
  lacking _ := False
  uncounted _ := 0

theorem Ledger.decrements_bumpOut :
    decrements (outs.bump i) inns = (decrements outs inns).addOut i (-1) := by
  ext k
  · simp only [decrements, addOut, natCast_count_bump]
    split <;> omega
  · rfl
  · rfl
  · rfl

theorem Ledger.decrements_bumpIn :
    decrements outs (inns.bump i) = (decrements outs inns).addIn i (-1) := by
  ext k
  · rfl
  · simp only [decrements, addIn, natCast_count_bump]
    split <;> omega
  · rfl
  · rfl

/-- The accumulators after the delete of a direct edge. -/
theorem Ledger.decrements_edge (policy : env.reverseIndex = g.reverseIndex) :
    decrements (outs.bump ⟨k.edgeType, k.src⟩)
        (if env.reverseIndex then inns.bump ⟨k.edgeType, k.dst⟩ else inns) =
      (decrements outs inns).addEdge g.reverseIndex k (-1) := by
  rw [policy, addEdge, ← decrements_bumpOut]
  cases g.reverseIndex with
  | true => exact decrements_bumpIn
  | false => exact (addIn_zero _ _).symm

/-- Nothing is owed where no decrement is left. -/
theorem Ledger.decrements_zero (hout : ∀ i, outs.count i = 0)
    (hin : ∀ i, inns.count i = 0) : decrements outs inns = .zero := by
  ext k
  · simp only [decrements, hout k]; rfl
  · simp only [decrements, hin k]; rfl
  · rfl
  · rfl

/-- Subtracting the decrements from the out-degrees settles them: a counter is not smaller than
what is taken from it, since it counted the edges deleted. -/
theorem Step.subtractOut (ok : DraftOk g e c₀ ⟨c, .decrements outs inns⟩) :
    Step F g e ⟨c, .decrements outs inns⟩
      ⟨c.setDegreeOut (c.topology.degreeOut.subAllCounts outs), .decrements ∅ inns⟩ := by
  refine .to (.countOut _ (fun _ => 0) fun ht i => ?_) rfl ?_
  · have hdegree := ok.adjacency.outDegree ht i
    rw [count_subAllCounts]
    simp only [Ledger.decrements] at hdegree ⊢
    omega
  · rfl

/-- Subtracting the decrements from the in-degrees. -/
theorem Step.subtractIn (ok : DraftOk g e c₀ ⟨c, .decrements outs inns⟩) :
    Step F g e ⟨c, .decrements outs inns⟩
      ⟨c.setDegreeIn (c.topology.degreeIn.subAllCounts inns), .decrements outs ∅⟩ := by
  refine .to (.countIn _ (fun _ => 0) fun ht i => ?_) rfl ?_
  · have hdegree := ok.adjacency.inDegree ht i
    rw [count_subAllCounts]
    simp only [Ledger.decrements] at hdegree ⊢
    omega
  · rfl

end

end HydraDb
