import HydraDb.Index.WalTail
import HydraDb.System.Safety

/-!
# Relationship identity within one read

The backend of the Cypher engine hands out relationship records, and the engine tells
relationships apart by their ids (`shard/experimental_cypher.rs`). A stored relationship has an id;
a structural edge without a relationship record is given one for the time of the read, counting
down from the largest 64-bit number. An invented id avoids the ids invented before and the stored
ids of the same call, and no others.

Ids are injective over a whole read exactly when no stored id lies among the `n` largest 64-bit
numbers, `n` being the number of edges without a record: `identity_injective_iff`.
-/

namespace HydraDb

open OrdMap List UInt64

/-! ## What storage reports for an edge -/

/-- `relationships_for_edge_at` (`shard/query.rs`): the records of an edge, and the edge itself if
it has none or has properties of its own. -/
def Cell.relationshipsForEdgeAt (c : Cell) (k : EdgeKey) (readEpoch : StorageSequence) :
    List (Option RelationshipId × EdgeMetadata) :=
  if edgeExistsInStorageSnapshot c.topology k readEpoch then
    let records := c.relationships.records.scan fun r => r.edge = k
    let structural := (c.edgeMetadata.records.get k).getD default
    records.map (fun record => (some record.1.relationshipId, record.2)) ++
      if records.isEmpty || !structural.properties.entries.isEmpty then [(none, structural)] else []
  else []

/-- `native_path_relationships_at` (`shard/query.rs`): the relationships of an edge with the edge's
own properties below theirs; the edge stands for itself only without records. The records come in
the order of their ids already, which the final sort keeps. -/
def Cell.nativePathRelationshipsAt (c : Cell) (k : EdgeKey) (readEpoch : StorageSequence) :
    List (Option RelationshipId × EdgeMetadata) :=
  let relationships := c.relationshipsForEdgeAt k readEpoch
  match relationships.find? fun variant => variant.1.isNone with
  | none => relationships
  | some (_, structural) =>
    if relationships.any fun variant => variant.1.isSome then
      relationships.filterMap fun variant =>
        variant.1.map fun id => (some id, mergeEdgeMetadata structural variant.2)
    else relationships

/-! ## Reads -/

inductive ExpandDirection where
  | outgoing
  | incoming
  deriving DecidableEq

structure ExpandNeighbor where
  input : VertexId
  neighbor : VertexId
  relationshipType : EdgeType

/-- The stored edge between an input and its neighbour. -/
def ExpandNeighbor.edge (neighbor : ExpandNeighbor) : ExpandDirection → EdgeKey
  | .outgoing => ⟨neighbor.relationshipType, neighbor.input, neighbor.neighbor⟩
  | .incoming => ⟨neighbor.relationshipType, neighbor.neighbor, neighbor.input⟩

/-- A pair of endpoints an index names, and which relationships of the pair are kept. -/
structure SelectedPair where
  source : VertexId
  target : VertexId
  keep : Option RelationshipId → EdgeMetadata → Bool

/-- The calls of the engine that hand out relationship records: an expansion over listed
neighbours (`expand_relationships`, `expand_relationships_between`), a property seek or a page of
an ordered scan, and a lower-bound or type probe, which reserves the ids of the relationships it
drops as well. -/
inductive RelationshipRead where
  | expand (direction : ExpandDirection) (neighbors : List ExpandNeighbor)
  | select (relationshipType : EdgeType) (pairs : List SelectedPair)
  | probe (relationshipType : EdgeType) (pairs : List SelectedPair)

/-- A relationship as storage reports it, before it has an id. -/
structure PendingRelationship where
  id : Option RelationshipId
  edge : EdgeKey
  metadata : EdgeMetadata

/-- The relationships of one edge. -/
def Cell.variants (c : Cell) (readEpoch : StorageSequence) (k : EdgeKey) :
    List PendingRelationship :=
  (c.nativePathRelationshipsAt k readEpoch).map fun variant => ⟨variant.1, k, variant.2⟩

namespace RelationshipRead

/-- The relationships a read fetches. -/
def fetched (c : Cell) (readEpoch : StorageSequence) : RelationshipRead → List PendingRelationship
  | expand direction neighbors =>
    neighbors.flatMap fun neighbor => c.variants readEpoch (neighbor.edge direction)
  | select relationshipType pairs | probe relationshipType pairs =>
    pairs.flatMap fun pair => c.variants readEpoch ⟨relationshipType, pair.source, pair.target⟩

/-- The relationships a read hands out. -/
def pending (c : Cell) (readEpoch : StorageSequence) : RelationshipRead → List PendingRelationship
  | expand direction neighbors => (expand direction neighbors).fetched c readEpoch
  | select relationshipType pairs | probe relationshipType pairs =>
    pairs.flatMap fun pair =>
      (c.variants readEpoch ⟨relationshipType, pair.source, pair.target⟩).filter fun variant =>
        pair.keep variant.id variant.metadata

/-- The stored ids a read does not invent: those it hands out, and for a probe those it fetched. -/
def reservedIds (c : Cell) (readEpoch : StorageSequence) (read : RelationshipRead) :
    List RelationshipId :=
  match read with
  | probe relationshipType pairs =>
    ((probe relationshipType pairs).fetched c readEpoch).filterMap PendingRelationship.id
  | read => (read.pending c readEpoch).filterMap PendingRelationship.id

end RelationshipRead

/-! ## Invented ids -/

/-- The part of `HydraDbCypherRead` that names structural edges. -/
structure ReadSession where
  structuralRelationshipIds : OrdMap EdgeKey RelationshipId
  nextStructuralRelationshipId : RelationshipId

/-- `begin_read`. -/
def ReadSession.begin : ReadSession := ⟨∅, ofNat (2 ^ 64 - 1)⟩

/-- The loop that counts down to an id not in use; `none` when it would pass zero. -/
def firstUnused (usedIds : OrdMap RelationshipId Unit) : Nat → Option Nat
  | 0 => if usedIds.contains 0 then none else some 0
  | n + 1 => if usedIds.contains (ofNat (n + 1)) then firstUnused usedIds n else some (n + 1)

/-- What is handed to the engine: the relationship and the id it carries. -/
structure HandedRelationship where
  relationship : PendingRelationship
  id : RelationshipId

/-- The stored relationship or the structural edge a record stands for. -/
def HandedRelationship.identity (handed : HandedRelationship) : Option RelationshipId × EdgeKey :=
  (handed.relationship.id, handed.relationship.edge)

/-- `structural_relationship_id`. -/
def structuralRelationshipId (session : ReadSession) (usedIds : OrdMap RelationshipId Unit)
    (identity : EdgeKey) :
    Except String (RelationshipId × ReadSession × OrdMap RelationshipId Unit) :=
  match session.structuralRelationshipIds.get identity with
  | some id => .ok (id, session, usedIds)
  | none =>
    match firstUnused usedIds session.nextStructuralRelationshipId.toNat with
    | none => .error "relationship identity space is exhausted"
    | some n =>
      let id := ofNat n
      .ok (id, ⟨session.structuralRelationshipIds.put identity id, ofNat (n - 1)⟩,
        usedIds.put id ())

/-- What the loop over the pending relationships carries. -/
structure NamingState where
  session : ReadSession
  usedIds : OrdMap RelationshipId Unit
  handed : List HandedRelationship

/-- One pending relationship: its stored id, or an invented one. -/
def nameRelationship (state : NamingState) (pending : PendingRelationship) :
    Except String NamingState :=
  match pending.id with
  | some id => .ok { state with handed := state.handed ++ [⟨pending, id⟩] }
  | none => do
    let (id, session, usedIds) ← structuralRelationshipId state.session state.usedIds pending.edge
    return ⟨session, usedIds, state.handed ++ [⟨pending, id⟩]⟩

/-- The ids in use when a read starts to name. -/
def usedIdsAt (session : ReadSession) (reserved : List RelationshipId) :
    OrdMap RelationshipId Unit :=
  (∅ : OrdMap RelationshipId Unit).addAll
    (reserved ++ session.structuralRelationshipIds.entries.map Prod.snd)

/-- One read of the engine: the records handed out so far, extended by those of the read. -/
def Cell.serveRead (c : Cell) (readEpoch : StorageSequence)
    (state : ReadSession × List HandedRelationship) (read : RelationshipRead) :
    Except String (ReadSession × List HandedRelationship) := do
  let named ← (read.pending c readEpoch).foldlM nameRelationship
    ⟨state.1, usedIdsAt state.1 (read.reservedIds c readEpoch), state.2⟩
  return (named.session, named.handed)

/-- The reads of one query, in order. -/
def Cell.serveReads (c : Cell) (readEpoch : StorageSequence) (reads : List RelationshipRead) :
    Except String (ReadSession × List HandedRelationship) :=
  reads.foldlM (c.serveRead readEpoch) (.begin, [])

/-- Two records carry one id exactly when they stand for one relationship. -/
def IdentityInjective (handed : List HandedRelationship) : Prop :=
  ∀ a ∈ handed, ∀ b ∈ handed, a.id = b.id ↔ a.identity = b.identity

/-! ## Edges without a record -/

/-- An edge that exists and has no relationship record. -/
def Cell.Recordless (c : Cell) (readEpoch : StorageSequence) (k : EdgeKey) : Prop :=
  edgeExistsInStorageSnapshot c.topology k readEpoch = true ∧
    ∀ r, c.relationships.records.contains r = true → r.edge ≠ k

/-- No stored id is among the `n` largest 64-bit numbers, for every `n` distinct edges without a
record. -/
def Cell.RoomForInvented (c : Cell) (readEpoch : StorageSequence) : Prop :=
  ∀ edges : List EdgeKey, edges.Nodup → (∀ k ∈ edges, c.Recordless readEpoch k) →
    ∀ r, c.relationships.records.contains r = true → r.relationshipId.toNat + edges.length < 2 ^ 64

section

variable {c : Cell} {readEpoch : StorageSequence}

variable {k : EdgeKey} {session : ReadSession} {usedIds : OrdMap RelationshipId Unit}
  {next : RelationshipId}
  {state : ReadSession × List HandedRelationship} {p : PendingRelationship}
  {read : RelationshipRead} {id : RelationshipId} {r : RelationshipKey}

/-- A relationship storage reports is a stored one of that edge or an edge without a record. -/
def Cell.Reported (c : Cell) (readEpoch : StorageSequence) (p : PendingRelationship) : Prop :=
  match p.id with
  | some id => c.relationships.records.contains ⟨p.edge.edgeType, p.edge.src, p.edge.dst, id⟩ = true
  | none => c.Recordless readEpoch p.edge

theorem mem_relationshipsForEdgeAt (h : variant ∈ c.relationshipsForEdgeAt k readEpoch) :
    edgeExistsInStorageSnapshot c.topology k readEpoch = true ∧
      ∀ id, variant.1 = some id →
        c.relationships.records.contains ⟨k.edgeType, k.src, k.dst, id⟩ = true := by
  unfold Cell.relationshipsForEdgeAt at h
  split at h
  · next hexists =>
    refine ⟨hexists, fun id hid => ?_⟩
    rcases mem_append.1 h with h | h
    · obtain ⟨⟨r, metadata⟩, hr, rfl⟩ := mem_map.1 h
      obtain ⟨hget, hedge⟩ := mem_scan.1 hr
      cases hid
      obtain rfl : r.edge = k := of_decide_eq_true hedge
      exact contains_of_get hget
    · split at h
      · obtain rfl := mem_singleton.1 h
        cases hid
      · cases h
  · cases h

/-- A record of an edge that exists is reported. -/
theorem mem_relationshipsForEdgeAt_of_get
    (hexists : edgeExistsInStorageSnapshot c.topology r.edge readEpoch = true)
    (hget : c.relationships.records.get r = some metadata) :
    (some r.relationshipId, metadata) ∈ c.relationshipsForEdgeAt r.edge readEpoch := by
  rw [Cell.relationshipsForEdgeAt, if_pos hexists]
  refine mem_append_left _ (mem_map.2 ⟨(r, metadata), ?_, rfl⟩)
  exact mem_scan.2 ⟨hget, decide_eq_true rfl⟩

/-- Without stored ids among the reports of an edge, the edge has no record. -/
theorem recordless_of_no_ids (hexists : edgeExistsInStorageSnapshot c.topology k readEpoch = true)
    (h : ∀ variant ∈ c.relationshipsForEdgeAt k readEpoch, variant.1 = none) :
    c.Recordless readEpoch k := by
  refine ⟨hexists, ?_⟩
  rintro r hr rfl
  obtain ⟨metadata, hget⟩ := get_of_contains hr
  cases h _ (mem_relationshipsForEdgeAt_of_get hexists hget)

theorem mem_nativePathRelationshipsAt (h : variant ∈ c.nativePathRelationshipsAt k readEpoch) :
    (∀ id, variant.1 = some id →
        c.relationships.records.contains ⟨k.edgeType, k.src, k.dst, id⟩ = true) ∧
      (variant.1 = none → c.Recordless readEpoch k) := by
  unfold Cell.nativePathRelationshipsAt at h
  dsimp only at h
  split at h
  · next hfind =>
    refine ⟨(mem_relationshipsForEdgeAt h).2, fun hnone => ?_⟩
    exact absurd (by rw [hnone]; rfl) (List.find?_eq_none.1 hfind variant h)
  split at h
  · obtain ⟨stored, hstored, hvariant⟩ := mem_filterMap.1 h
    obtain ⟨id, hid, rfl⟩ := Option.map_eq_some_iff.1 hvariant
    refine ⟨fun id' hid' => ?_, nofun⟩
    cases hid'
    exact (mem_relationshipsForEdgeAt hstored).2 id hid
  · next hany =>
    refine ⟨(mem_relationshipsForEdgeAt h).2, fun _ => ?_⟩
    refine recordless_of_no_ids (mem_relationshipsForEdgeAt h).1 fun other hother => ?_
    by_contra hsome
    exact hany (any_eq_true.2 ⟨other, hother, Option.isSome_iff_ne_none.2 hsome⟩)

theorem reported_of_mem_variants (h : p ∈ c.variants readEpoch k) : c.Reported readEpoch p := by
  obtain ⟨⟨id, metadata⟩, hvariant, rfl⟩ := mem_map.1 h
  obtain ⟨hsome, hnone⟩ := mem_nativePathRelationshipsAt hvariant
  cases id with
  | some id => exact hsome id rfl
  | none => exact hnone rfl

theorem reported_of_mem_pending (h : p ∈ read.pending c readEpoch) : c.Reported readEpoch p := by
  cases read with
  | expand =>
    obtain ⟨neighbor, _, hp⟩ := mem_flatMap.1 h
    exact reported_of_mem_variants hp
  | select relationshipType pairs | probe relationshipType pairs =>
    obtain ⟨pair, _, hp⟩ := mem_flatMap.1 h
    exact reported_of_mem_variants (mem_filter.1 hp).1

theorem contains_of_mem_reservedIds (h : id ∈ read.reservedIds c readEpoch) :
    ∃ r, c.relationships.records.contains r = true ∧ r.relationshipId = id := by
  have hreported : ∃ p, c.Reported readEpoch p ∧ p.id = some id := by
    cases read with
    | expand | select =>
      obtain ⟨p, hp, hid⟩ := mem_filterMap.1 h
      exact ⟨p, reported_of_mem_pending hp, hid⟩
    | probe =>
      obtain ⟨p, hp, hid⟩ := mem_filterMap.1 h
      obtain ⟨pair, _, hp⟩ := mem_flatMap.1 hp
      exact ⟨p, reported_of_mem_variants hp, hid⟩
  obtain ⟨p, hp, hid⟩ := hreported
  rw [Cell.Reported, hid] at hp
  exact ⟨_, hp, rfl⟩

/-! ## With room, ids never meet -/

theorem firstUnused_of_unused (h : usedIds.contains (ofNat n) = false) :
    firstUnused usedIds n = some n := by
  cases n with
  | zero | succ => exact if_neg (by simpa using h)

theorem toNat_ofNat_pred (n : UInt64) : (ofNat (n.toNat - 1)).toNat = n.toNat - 1 := by
  have := n.toNat_lt
  rw [toNat_ofNat', Nat.mod_eq_of_lt (by omega)]

/-- The invented ids: distinct, of edges without a record, and the largest ones, so that `next`
lies below them and at most as many below the top as ids have been invented. -/
structure ReadSession.Ok (c : Cell) (readEpoch : StorageSequence) (session : ReadSession) :
    Prop where
  recordless : ∀ k id, session.structuralRelationshipIds.get k = some id → c.Recordless readEpoch k
  injective : ∀ k k' id, session.structuralRelationshipIds.get k = some id →
    session.structuralRelationshipIds.get k' = some id → k = k'
  below : ∀ k id, session.structuralRelationshipIds.get k = some id →
    session.nextStructuralRelationshipId.toNat < id.toNat ∨
      session.nextStructuralRelationshipId.toNat = 0
  next_top : 2 ^ 64 - 1 ≤ session.nextStructuralRelationshipId.toNat +
    session.structuralRelationshipIds.keys.length
  id_top : ∀ k id, session.structuralRelationshipIds.get k = some id →
    2 ^ 64 ≤ id.toNat + session.structuralRelationshipIds.keys.length

theorem ReadSession.Ok.begin : ReadSession.begin.Ok c readEpoch where
  recordless _ _ h := nomatch h
  injective _ _ _ h := nomatch h
  below _ _ h := nomatch h
  next_top := by decide
  id_top _ _ h := nomatch h

theorem ReadSession.Ok.recordless_of_mem_keys (ok : session.Ok c readEpoch)
    (h : k ∈ session.structuralRelationshipIds.keys) : c.Recordless readEpoch k := by
  obtain ⟨id, hid⟩ := get_of_contains (mem_keys_iff_contains.1 h)
  exact ok.recordless k id hid

/-- The ids in use are stored ids and the invented ones. -/
structure UsedIdsOk (c : Cell) (session : ReadSession) (usedIds : OrdMap RelationshipId Unit) :
    Prop where
  origin : ∀ id, usedIds.contains id = true →
    (∃ r, c.relationships.records.contains r = true ∧ r.relationshipId = id) ∨
      ∃ k, session.structuralRelationshipIds.get k = some id
  invented : ∀ k id, session.structuralRelationshipIds.get k = some id → usedIds.contains id = true

/-- Giving the next id to a new edge keeps the invented ids distinct and on top. -/
theorem ReadSession.Ok.invent (ok : ReadSession.Ok c readEpoch ⟨ids, next⟩)
    (hk : c.Recordless readEpoch k) (hget : ids.get k = none)
    (hdistinct : ∀ k', ids.get k' ≠ some next) :
    ReadSession.Ok c readEpoch ⟨ids.put k next, ofNat (next.toNat - 1)⟩ := by
  have hlength : (ids.put k next).keys.length = ids.keys.length + 1 := by
    simp [OrdMap.keys, length_entries_put_new hget]
  have hnext := toNat_ofNat_pred next
  have htop : 2 ^ 64 - 1 ≤ next.toNat + ids.keys.length := ok.next_top
  -- An entry of the new map is the new edge with the next id or an old entry.
  have hcases : ∀ k' id', (ids.put k next).get k' = some id' →
      (k' = k ∧ id' = next) ∨ ids.get k' = some id' := by
    intro k' id' hk'
    rw [get_put] at hk'
    split at hk'
    · next heq => exact .inl ⟨heq, (Option.some.inj hk').symm⟩
    · exact .inr hk'
  refine ⟨fun k' id' hk' => ?_, fun k₁ k₂ id' h₁ h₂ => ?_, fun k' id' hk' => ?_, ?_,
    fun k' id' hk' => ?_⟩
  · rcases hcases k' id' hk' with ⟨rfl, -⟩ | hold
    · exact hk
    · exact ok.recordless k' id' hold
  · rcases hcases k₁ id' h₁ with ⟨rfl, rfl⟩ | hold₁ <;>
      rcases hcases k₂ _ h₂ with ⟨rfl, heq⟩ | hold₂
    · rfl
    · exact absurd hold₂ (hdistinct k₂)
    · exact absurd (heq ▸ hold₁) (hdistinct k₁)
    · exact ok.injective k₁ k₂ id' hold₁ hold₂
  · rw [hnext]
    rcases hcases k' id' hk' with ⟨-, rfl⟩ | hold
    · omega
    · have := ok.below k' id' hold
      dsimp only at this
      omega
  · rw [hnext, hlength]
    omega
  · rw [hlength]
    rcases hcases k' id' hk' with ⟨-, rfl⟩ | hold
    · omega
    · have := ok.id_top k' id' hold
      dsimp only at this
      omega

theorem UsedIdsOk.invent (used : UsedIdsOk c ⟨ids, next⟩ usedIds) (hget : ids.get k = none) :
    UsedIdsOk c ⟨ids.put k id, next'⟩ (usedIds.put id ()) := by
  refine ⟨fun id' hid' => ?_, forall_get_put (fun k' id' hk' => ?_) (contains_put.2 (.inl rfl))⟩
  · rcases contains_put.1 hid' with rfl | hid'
    · exact .inr ⟨k, by rw [get_put, if_pos rfl]⟩
    rcases used.origin id' hid' with hstored | ⟨k', hk'⟩
    · exact .inl hstored
    · refine .inr ⟨k', ?_⟩
      rw [get_put_of_ne (by rintro rfl; simp [hget] at hk'), hk']
  · exact contains_put.2 (.inr (used.invented k' id' hk'))

/-- Every record handed out is a stored relationship under its own id or a structural edge under
the id the session has for it. -/
def HandedOk (c : Cell) (session : ReadSession) (handed : List HandedRelationship) : Prop :=
  ∀ a ∈ handed,
    (∃ id, a.relationship.id = some id ∧ a.id = id ∧ c.relationships.records.contains
      ⟨a.relationship.edge.edgeType, a.relationship.edge.src, a.relationship.edge.dst, id⟩ = true) ∨
    (a.relationship.id = none ∧
      session.structuralRelationshipIds.get a.relationship.edge = some a.id)

theorem HandedOk.append (h : HandedOk c session handed) (ha : HandedOk c session [a]) :
    HandedOk c session (handed ++ [a]) := by
  intro b hb
  exact (mem_append.1 hb).elim (h b) (ha b)

theorem HandedOk.mono (h : HandedOk c session handed)
    (hle : ∀ k id, session.structuralRelationshipIds.get k = some id →
      session'.structuralRelationshipIds.get k = some id) : HandedOk c session' handed := by
  intro a ha
  rcases h a ha with hstored | ⟨hid, hget⟩
  · exact .inl hstored
  · exact .inr ⟨hid, hle _ _ hget⟩

/-- What holds between two relationships of a read. -/
structure NamingState.Ok (c : Cell) (readEpoch : StorageSequence) (state : NamingState) : Prop where
  session : state.session.Ok c readEpoch
  used : UsedIdsOk c state.session state.usedIds
  handed : HandedOk c state.session state.handed

variable (room : c.RoomForInvented readEpoch) {edges : List EdgeKey}

include room

/-- An invented id is not a stored one. -/
theorem ReadSession.Ok.stored_lt (ok : session.Ok c readEpoch)
    (h : session.structuralRelationshipIds.get k = some id)
    (hr : c.relationships.records.contains r = true) : r.relationshipId.toNat < id.toNat := by
  have hlt := room session.structuralRelationshipIds.keys nodup_keys
    (fun _ => ok.recordless_of_mem_keys) r hr
  have := ok.id_top k id h
  omega

/-- With room the next id is free unless the count has come down to zero and been given away. -/
theorem firstUnused_eq (ok : ReadSession.Ok c readEpoch ⟨ids, next⟩)
    (used : UsedIdsOk c ⟨ids, next⟩ usedIds) (hk : c.Recordless readEpoch k)
    (hnew : ids.get k = none) (h : firstUnused usedIds next.toNat = some n) :
    n = next.toNat ∧ usedIds.contains next = false := by
  have hself : UInt64.ofNat next.toNat = next := UInt64.ofNat_toNat
  suffices hfree : usedIds.contains next = false by
    rw [firstUnused_of_unused (hself.symm ▸ hfree)] at h
    exact ⟨(Option.some.inj h).symm, hfree⟩
  refine Bool.eq_false_iff.2 fun hcontains => ?_
  rcases used.origin _ hcontains with ⟨r, hr, hid⟩ | ⟨k', hk'⟩
  · -- The edges named so far and `k` leave room above every stored id.
    have hlt := room (k :: ids.keys)
      (nodup_cons.2 ⟨fun hmem => by
        have := mem_keys.1 hmem
        simp [hnew] at this, nodup_keys⟩)
      (fun k' hk' => by
        rcases mem_cons.1 hk' with rfl | hk'
        · exact hk
        · exact ok.recordless_of_mem_keys hk') r hr
    have htop : 2 ^ 64 - 1 ≤ next.toNat + ids.keys.length := ok.next_top
    rw [length_cons, hid] at hlt
    omega
  · rcases ok.below k' _ hk' with hlt | hzero
    · exact lt_irrefl _ hlt
    · obtain rfl : next = 0 := UInt64.toNat.inj hzero
      cases (if_pos hcontains).symm.trans h

/-- Naming a structural edge: the session stays in order, has the edge under the id returned, and
forgets nothing. -/
theorem structuralRelationshipId_ok (ok : session.Ok c readEpoch)
    (used : UsedIdsOk c session usedIds) (hk : c.Recordless readEpoch k)
    (h : structuralRelationshipId session usedIds k = .ok (id, session', usedIds')) :
    session'.Ok c readEpoch ∧ UsedIdsOk c session' usedIds' ∧
      session'.structuralRelationshipIds.get k = some id ∧
      ∀ k' id', session.structuralRelationshipIds.get k' = some id' →
        session'.structuralRelationshipIds.get k' = some id' := by
  obtain ⟨ids, next⟩ := session
  unfold structuralRelationshipId at h
  cases hget : ids.get k with
  | some =>
    rw [hget] at h
    cases h
    exact ⟨ok, used, hget, fun _ _ h => h⟩
  | none =>
    rw [hget] at h
    cases hfirst : firstUnused usedIds next.toNat with
    | none =>
      rw [hfirst] at h
      cases h
    | some =>
      rw [hfirst] at h
      obtain ⟨rfl, hfree⟩ := firstUnused_eq room ok used hk hget hfirst
      simp only [UInt64.ofNat_toNat, Except.ok.injEq, Prod.mk.injEq] at h
      obtain ⟨rfl, rfl, rfl⟩ := h
      have hdistinct : ∀ k', ids.get k' ≠ some next := fun k' hk' => by
        rw [used.invented k' _ hk'] at hfree
        cases hfree
      refine ⟨ok.invent hk hget hdistinct, used.invent hget, ?_, fun k' id' hk' => ?_⟩
      · rw [get_put, if_pos rfl]
      · rw [get_put_of_ne (by rintro rfl; simp [hget] at hk'), hk']

theorem nameRelationship_ok {state : NamingState} (ok : state.Ok c readEpoch)
    (hp : c.Reported readEpoch p) (h : nameRelationship state p = .ok state') :
    state'.Ok c readEpoch := by
  unfold nameRelationship at h
  unfold Cell.Reported at hp
  cases hid : p.id with
  | some id =>
    rw [hid] at h hp
    cases h
    refine ⟨ok.session, ok.used, ok.handed.append fun a ha => ?_⟩
    obtain rfl := mem_singleton.1 ha
    exact .inl ⟨id, hid, rfl, hp⟩
  | none =>
    rw [hid] at h hp
    obtain ⟨⟨id, session, usedIds⟩, hname, hstate⟩ := bind_ok h
    cases hstate
    obtain ⟨hsession, hused, hget, hle⟩ :=
      structuralRelationshipId_ok room ok.session ok.used hp hname
    refine ⟨hsession, hused, (ok.handed.mono hle).append fun a ha => ?_⟩
    obtain rfl := mem_singleton.1 ha
    exact .inr ⟨hid, hget⟩

/-- A read keeps the session and everything handed out so far in order. -/
theorem serveRead_ok (ok : state.1.Ok c readEpoch)
    (handed : HandedOk c state.1 state.2) (h : c.serveRead readEpoch state read = .ok state') :
    state'.1.Ok c readEpoch ∧ HandedOk c state'.1 state'.2 := by
  obtain ⟨named, hnamed, hstate⟩ := bind_ok h
  cases hstate
  have hused : UsedIdsOk c state.1 (usedIdsAt state.1 (read.reservedIds c readEpoch)) := by
    refine ⟨fun id hid => ?_, fun k id hk => ?_⟩
    · rcases contains_addAll.1 hid with hid | hid
      · rcases mem_append.1 hid with hid | hid
        · exact .inl (contains_of_mem_reservedIds hid)
        · obtain ⟨⟨k, id'⟩, hentry, rfl⟩ := mem_map.1 hid
          exact .inr ⟨k, mem_entries.1 hentry⟩
      · cases hid
    · refine contains_addAll.2 (.inl (mem_append_right _ ?_))
      exact mem_map.2 ⟨(k, id), mem_entries.2 hk, rfl⟩
  have hok := foldlM_ok_invariant hnamed ⟨ok, hused, handed⟩
    fun p hp _ _ hstate hstep => nameRelationship_ok room hstate (reported_of_mem_pending hp) hstep
  exact ⟨hok.session, hok.handed⟩

theorem serveReads_ok (h : c.serveReads readEpoch reads = .ok state) :
    state.1.Ok c readEpoch ∧ HandedOk c state.1 state.2 :=
  foldlM_ok_invariant (P := fun state => state.1.Ok c readEpoch ∧ HandedOk c state.1 state.2) h
    ⟨ReadSession.Ok.begin, by simp [HandedOk]⟩
    fun _ _ _ _ hstate hstep => serveRead_ok room hstate.1 hstate.2 hstep

/-- With room for the invented ids, and stored ids that are unique in the cell, ids are injective
over every sequence of reads. -/
theorem identityInjective_of_room
    (unique : ∀ r r', c.relationships.records.contains r = true →
      c.relationships.records.contains r' = true → r.relationshipId = r'.relationshipId → r = r')
    (h : c.serveReads readEpoch reads = .ok state) : IdentityInjective state.2 := by
  obtain ⟨ok, handed⟩ := serveReads_ok room h
  intro a ha b hb
  unfold HandedRelationship.identity
  rcases handed a ha with ⟨id, hid, heq, hstored⟩ | ⟨hid, hget⟩ <;>
    rcases handed b hb with ⟨id', hid', heq', hstored'⟩ | ⟨hid', hget'⟩
  · rw [hid, hid', heq, heq']
    constructor
    · rintro rfl
      have hkey := unique _ _ hstored hstored' rfl
      have hedge : a.relationship.edge = b.relationship.edge := by
        cases hea : a.relationship.edge
        cases heb : b.relationship.edge
        simp_all
      rw [hedge]
    · intro hidentity
      exact Option.some.inj (Prod.mk.inj hidentity).1
  · have hlt := ok.stored_lt room hget' hstored
    rw [hid, hid']
    refine ⟨fun heqid => ?_, nofun⟩
    rw [← heqid, heq] at hlt
    exact absurd hlt (lt_irrefl _)
  · have hlt := ok.stored_lt room hget hstored'
    rw [hid, hid']
    refine ⟨fun heqid => ?_, nofun⟩
    rw [heqid, heq'] at hlt
    exact absurd hlt (lt_irrefl _)
  · rw [hid, hid']
    constructor
    · intro heqid
      rw [ok.injective _ _ _ hget (heqid ▸ hget')]
    · intro hidentity
      rw [(Prod.mk.inj hidentity).2, hget'] at hget
      exact (Option.some.inj hget).symm

omit room

/-! ## Without room, two reads collide -/

/-- The outgoing neighbour an edge leads to. -/
def EdgeKey.neighbor (k : EdgeKey) : ExpandNeighbor := ⟨k.src, k.dst, k.edgeType⟩

theorem variants_of_recordless (h : c.Recordless readEpoch k) :
    c.variants readEpoch k = [⟨none, k, (c.edgeMetadata.records.get k).getD default⟩] := by
  have hscan : (c.relationships.records.scan fun r => decide (r.edge = k)) = [] := by
    refine eq_nil_iff_forall_not_mem.2 fun entry hentry => ?_
    obtain ⟨hget, hedge⟩ := mem_scan.1 hentry
    exact h.2 entry.1 (contains_of_get hget) (of_decide_eq_true hedge)
  have hrows : c.relationshipsForEdgeAt k readEpoch =
      [(none, (c.edgeMetadata.records.get k).getD default)] := by
    rw [Cell.relationshipsForEdgeAt, if_pos h.1]
    simp [hscan]
  simp [Cell.variants, Cell.nativePathRelationshipsAt, hrows]

/-- An edge with a record reports only stored relationships, this one among them. -/
theorem variants_of_stored
    (hexists : edgeExistsInStorageSnapshot c.topology r.edge readEpoch = true)
    (hr : c.relationships.records.contains r = true) :
    (∀ p ∈ c.variants readEpoch r.edge, p.id ≠ none) ∧
      ∃ metadata, ⟨some r.relationshipId, r.edge, metadata⟩ ∈ c.variants readEpoch r.edge := by
  constructor
  · intro p hp hnone
    have hreported := reported_of_mem_variants hp
    obtain ⟨variant, _, rfl⟩ := mem_map.1 hp
    rw [Cell.Reported, hnone] at hreported
    exact hreported.2 r hr rfl
  obtain ⟨metadata, hget⟩ := get_of_contains hr
  have hmem := mem_relationshipsForEdgeAt_of_get hexists hget
  have hany : (c.relationshipsForEdgeAt r.edge readEpoch).any (fun v => v.1.isSome) = true :=
    any_eq_true.2 ⟨_, hmem, rfl⟩
  have hnative : ∃ metadata', (some r.relationshipId, metadata') ∈
      c.nativePathRelationshipsAt r.edge readEpoch := by
    unfold Cell.nativePathRelationshipsAt
    dsimp only
    split
    · exact ⟨metadata, hmem⟩
    · rw [if_pos hany]
      exact ⟨_, mem_filterMap.2 ⟨_, hmem, rfl⟩⟩
  obtain ⟨metadata', hmem'⟩ := hnative
  exact ⟨metadata', mem_map.2 ⟨_, hmem', rfl⟩⟩

/-- Stored relationships keep their ids, so naming them never fails. -/
theorem foldlM_nameRelationship_stored (ps : List PendingRelationship)
    (hstored : ∀ p ∈ ps, p.id ≠ none) (state : NamingState) :
    ∃ state', ps.foldlM nameRelationship state = .ok state' ∧
      (∀ a ∈ state.handed, a ∈ state'.handed) ∧
      ∀ p ∈ ps, ∀ id, p.id = some id → ⟨p, id⟩ ∈ state'.handed := by
  induction ps generalizing state with
  | nil => exact ⟨state, rfl, fun _ h => h, by simp⟩
  | cons p ps ih =>
    obtain ⟨id, hid⟩ := Option.ne_none_iff_exists'.1 (hstored p mem_cons_self)
    have hstep : nameRelationship state p =
        .ok { state with handed := state.handed ++ [⟨p, id⟩] } := by
      rw [nameRelationship, hid]
    obtain ⟨state', hfold, hkept, hnamed⟩ := ih (fun q hq => hstored q (mem_cons_of_mem _ hq))
      { state with handed := state.handed ++ [⟨p, id⟩] }
    refine ⟨state', ?_, fun a ha => hkept a (mem_append_left _ ha), fun q hq id' hid' => ?_⟩
    · rw [foldlM_cons, hstep]
      exact hfold
    rcases mem_cons.1 hq with rfl | hq
    · obtain rfl : id = id' := Option.some.inj (hid.symm.trans hid')
      exact hkept _ (mem_append_right _ (mem_singleton_self _))
    · exact hnamed q hq id' hid'

/-- New structural edges are named downwards from `next`: the last of them gets the number that
lies as far below as there are edges. -/
theorem foldlM_nameRelationship_fresh (ps : List PendingRelationship) (hne : ps ≠ [])
    (hids : ∀ p ∈ ps, p.id = none) (hnodup : (ps.map PendingRelationship.edge).Nodup)
    (ids : OrdMap EdgeKey RelationshipId) (next : RelationshipId)
    (usedIds : OrdMap RelationshipId Unit) (handed : List HandedRelationship)
    (hfresh : ∀ p ∈ ps, ids.get p.edge = none)
    (hused : ∀ id, usedIds.contains id = true → next.toNat < id.toNat)
    (hlength : ps.length ≤ next.toNat + 1) :
    ∃ state', ps.foldlM nameRelationship ⟨⟨ids, next⟩, usedIds, handed⟩ = .ok state' ∧
      ∃ p ∈ ps, (⟨p, UInt64.ofNat (next.toNat + 1 - ps.length)⟩ : HandedRelationship) ∈
        state'.handed := by
  induction ps generalizing ids next usedIds handed with
  | nil => exact absurd rfl hne
  | cons p ps ih =>
    have hfree : usedIds.contains (UInt64.ofNat next.toNat) = false := by
      rw [UInt64.ofNat_toNat]
      exact Bool.eq_false_iff.2 fun hcontains => lt_irrefl _ (hused next hcontains)
    have hstep : nameRelationship ⟨⟨ids, next⟩, usedIds, handed⟩ p =
        .ok ⟨⟨ids.put p.edge next, UInt64.ofNat (next.toNat - 1)⟩, usedIds.put next (),
          handed ++ [⟨p, next⟩]⟩ := by
      rw [nameRelationship, hids p mem_cons_self]
      simp only [structuralRelationshipId, hfresh p mem_cons_self,
        firstUnused_of_unused hfree, UInt64.ofNat_toNat]
      rfl
    by_cases hps : ps = []
    · subst hps
      refine ⟨_, by rw [foldlM_cons, hstep]; rfl, p, mem_cons_self, ?_⟩
      rw [length_singleton, Nat.add_sub_cancel, UInt64.ofNat_toNat]
      exact mem_append_right _ (mem_singleton_self _)
    have hpos : 0 < ps.length := length_pos_iff.2 hps
    rw [length_cons] at hlength
    have hnext' := toNat_ofNat_pred next
    rw [map_cons, nodup_cons] at hnodup
    obtain ⟨state', hfold, q, hq, hhanded⟩ := ih hps
      (fun q hq => hids q (mem_cons_of_mem _ hq)) hnodup.2 (ids.put p.edge next)
      (UInt64.ofNat (next.toNat - 1)) (usedIds.put next ()) (handed ++ [⟨p, next⟩])
      (fun q hq => by
        rw [get_put_of_ne, hfresh q (mem_cons_of_mem _ hq)]
        exact fun heq => hnodup.1 (heq ▸ mem_map_of_mem hq))
      (fun id hid => by
        rcases contains_put.1 hid with rfl | hid
        · omega
        · have := hused id hid
          omega)
      (by rw [hnext']; omega)
    refine ⟨state', by rw [foldlM_cons, hstep]; exact hfold, q, mem_cons_of_mem _ hq, ?_⟩
    rw [hnext'] at hhanded
    rw [length_cons]
    have harith : next.toNat + 1 - (ps.length + 1) = next.toNat - 1 + 1 - ps.length := by omega
    rw [harith]
    exact hhanded

theorem pending_expand_recordless (h : ∀ k ∈ edges, c.Recordless readEpoch k) :
    (RelationshipRead.expand .outgoing (edges.map EdgeKey.neighbor)).pending c readEpoch =
      edges.map fun k => ⟨none, k, (c.edgeMetadata.records.get k).getD default⟩ := by
  simp only [RelationshipRead.pending, RelationshipRead.fetched, flatMap_map]
  rw [map_eq_flatMap]
  exact flatMap_congr fun k hk => variants_of_recordless (h k hk)

/-- Without room, one read names the edges without a record down to a stored id, and a second read
hands out the relationship that has it. -/
theorem exists_collision (hnodup : edges.Nodup) (hedges : ∀ k ∈ edges, c.Recordless readEpoch k)
    (hr : c.relationships.records.contains r = true)
    (hexists : edgeExistsInStorageSnapshot c.topology r.edge readEpoch = true)
    (hroom : 2 ^ 64 ≤ r.relationshipId.toNat + edges.length) :
    ∃ reads state, c.serveReads readEpoch reads = .ok state ∧ ¬ IdentityInjective state.2 := by
  have hid := r.relationshipId.toNat_lt
  have hstart : ReadSession.begin.nextStructuralRelationshipId.toNat = 2 ^ 64 - 1 := by
    rw [ReadSession.begin, UInt64.toNat_ofNat', Nat.mod_eq_of_lt (by decide)]
  -- As many edges as there are numbers from the stored id up.
  set named := edges.take (2 ^ 64 - r.relationshipId.toNat) with hnamedDef
  have hlength : named.length = 2 ^ 64 - r.relationshipId.toNat := by
    rw [length_take]
    omega
  have hrecordless : ∀ k ∈ named, c.Recordless readEpoch k :=
    fun k hk => hedges k (mem_of_mem_take hk)
  set first := RelationshipRead.expand .outgoing (named.map EdgeKey.neighbor) with hfirst
  have hpending : first.pending c readEpoch =
      named.map fun k => ⟨none, k, (c.edgeMetadata.records.get k).getD default⟩ :=
    pending_expand_recordless hrecordless
  have hreserved : first.reservedIds c readEpoch = [] := by
    change (first.pending c readEpoch).filterMap PendingRelationship.id = []
    rw [hpending]
    simp
  obtain ⟨state₁, hfold₁, p, hp, hhanded⟩ := foldlM_nameRelationship_fresh
    (first.pending c readEpoch)
    (by rw [hpending]; intro hnil; rw [map_eq_nil_iff] at hnil; rw [hnil] at hlength
        simp only [length_nil] at hlength; omega)
    (by rw [hpending]; simp)
    (by rw [hpending, map_map]; simpa [Function.comp_def] using hnodup.sublist (take_sublist _ _))
    ∅ ReadSession.begin.nextStructuralRelationshipId
    (usedIdsAt .begin (first.reservedIds c readEpoch)) [] (fun _ _ => rfl)
    (fun id hcontains => by
      rw [hreserved] at hcontains
      rcases contains_addAll.1 hcontains with hmem | hmem <;> cases hmem)
    (by rw [hpending, length_map, hlength]; simp only [hstart]; omega)
  obtain ⟨hstored, metadata, hmem⟩ := variants_of_stored hexists hr
  obtain ⟨state₂, hfold₂, hkept, hnamed₂⟩ := foldlM_nameRelationship_stored
    (c.variants readEpoch r.edge) hstored
    ⟨state₁.session, usedIdsAt state₁.session
      ((RelationshipRead.expand .outgoing [r.edge.neighbor]).reservedIds c readEpoch),
      state₁.handed⟩
  have hpending₂ : (RelationshipRead.expand .outgoing [r.edge.neighbor]).pending c readEpoch =
      c.variants readEpoch r.edge := flatMap_singleton _ _
  refine ⟨[first, .expand .outgoing [r.edge.neighbor]], (state₂.session, state₂.handed), ?_,
    fun hinjective => ?_⟩
  · have h₁ : c.serveRead readEpoch (.begin, []) first = .ok (state₁.session, state₁.handed) :=
      Except.bind_eq_ok_iff.2 ⟨state₁, hfold₁, rfl⟩
    have h₂ : c.serveRead readEpoch (state₁.session, state₁.handed)
        (.expand .outgoing [r.edge.neighbor]) = .ok (state₂.session, state₂.handed) :=
      Except.bind_eq_ok_iff.2 ⟨state₂, by rw [hpending₂]; exact hfold₂, rfl⟩
    rw [Cell.serveReads, foldlM_cons, h₁]
    change c.serveRead readEpoch (state₁.session, state₁.handed) _ >>= _ = _
    rw [h₂]
    rfl
  · have hinvented : ⟨p, r.relationshipId⟩ ∈ state₂.handed := by
      refine hkept _ ?_
      rw [hpending, length_map, hlength, hstart] at hhanded
      have harith : 2 ^ 64 - 1 + 1 - (2 ^ 64 - r.relationshipId.toNat) =
          r.relationshipId.toNat := by omega
      rw [harith, UInt64.ofNat_toNat] at hhanded
      exact hhanded
    have hother := hnamed₂ _ hmem _ rfl
    have hidentity := (hinjective _ hinvented _ hother).1 rfl
    rw [hpending] at hp
    obtain ⟨k, _, rfl⟩ := mem_map.1 hp
    cases (Prod.mk.inj hidentity).1

end

/-- **Relationship identity within one read.** In every reachable state: over every sequence of
reads of one query that succeeds, two records carry the same id exactly when they are the same
stored relationship or the same structural edge, if and only if the stored ids leave room above
them for one id for each edge without a relationship record. -/
theorem identity_injective_iff {s : Sys} {reverseIndex : Bool}
    (h : s.Reachable ⟨reverseIndex, false, false, false⟩) (cellId : CellId) :
    (∀ reads state, (s.db.cells cellId).serveReads s.db.sequence reads = .ok state →
      IdentityInjective state.2) ↔ (s.db.cells cellId).RoomForInvented s.db.sequence := by
  have ok := h.ok.cells cellId
  have hids : ∀ r, (s.db.cells cellId).relationships.records.contains r = true →
      (s.db.cells cellId).relationships.ids.get r.relationshipId = some r := by
    intro r hr
    obtain ⟨metadata, hget⟩ := get_of_contains hr
    exact ok.relationships.id_of_record r metadata hget
  constructor
  · intro hinjective edges hnodup hedges r hr
    by_contra hroom
    have hvisible := ok.relationships.visible r hr
    have hexists : edgeExistsInStorageSnapshot (s.db.cells cellId).topology r.edge
        s.db.sequence = true := (edgeExistsInStorageSnapshot_iff ok.adjacency.bounded).2 hvisible
    obtain ⟨reads, state, hreads, hnot⟩ :=
      exists_collision hnodup hedges hr hexists (Nat.not_lt.1 hroom)
    exact hnot (hinjective reads state hreads)
  · intro room reads state hreads
    refine identityInjective_of_room room (fun r r' hr hr' hid => ?_) hreads
    exact Option.some.inj ((hids r hr).symm.trans (hid ▸ hids r' hr'))

/-- An edge without a record, and a relationship imported under the given id. -/
def mixedRun (id : RelationshipId) : List Event :=
  [.mutate (smallEnv false) (.writeEdge ⟨"c", "T", 1, 2, "k1"⟩),
   .mutate (smallEnv false) (.importRelationships "c" "T" [⟨"c", "T", 3, 4, id, default⟩] "k2")]

theorem reachable_mixedRun (id : RelationshipId) :
    ((mixedRun id).foldl Sys.exec .initial).Reachable ⟨false, false, false, false⟩ :=
  .of_admits ⟨Event.Plain.allows rfl, ⟨rfl, trivial, nofun, nofun, nofun⟩, trivial⟩

theorem identity_injective_iff_mixedRun :
    ((mixedRun 7).foldl Sys.exec .initial).Reachable ⟨false, false, false, false⟩ ∧
    (((mixedRun 7).foldl Sys.exec .initial).db.cells "c").relationships.records.keys =
      [⟨"T", 3, 4, 7⟩] ∧
    ∀ reads state, (((mixedRun 7).foldl Sys.exec .initial).db.cells "c").serveReads
      ((mixedRun 7).foldl Sys.exec .initial).db.sequence reads = .ok state →
        IdentityInjective state.2 := by
  have reached := reachable_mixedRun 7
  have hkeys : (((mixedRun 7).foldl Sys.exec .initial).db.cells "c").relationships.records.keys =
      [⟨"T", 3, 4, 7⟩] := by decide +kernel
  refine ⟨reached, hkeys, (identity_injective_iff reached "c").2 fun edges hnodup hedges r hr => ?_⟩
  obtain rfl := mem_singleton.1 (hkeys ▸ mem_keys_iff_contains.2 hr)
  -- both edges have direct keys, and there is no segment
  have hdirect : ∀ k ∈ edges, k ∈ [(⟨"T", 1, 2⟩ : EdgeKey), ⟨"T", 3, 4⟩] := by
    intro k hk
    have hvisible := (edgeExistsInStorageSnapshot_iff (reached.ok.cells "c").adjacency.bounded).1
      (hedges k hk).1
    rcases hvisible with hk | ⟨s, _, hs, -⟩
    · exact mem_keys_iff_contains.2 hk
    · cases hs
  have hle := (subperm_of_subset hnodup hdirect).length_le
  exact Nat.lt_of_le_of_lt (Nat.add_le_add_left hle _) (by decide)

/-- The relationship has the largest id. -/
def topIdRun : List Event := mixedRun 18446744073709551615

/-- Expanding the edge without a record first and the relationship second hands out the largest id
for both. -/
theorem identity_collision_topIdRun :
    (topIdRun.foldl Sys.exec .initial).Reachable ⟨false, false, false, false⟩ ∧
    ∃ state, ((topIdRun.foldl Sys.exec .initial).db.cells "c").serveReads
        (topIdRun.foldl Sys.exec .initial).db.sequence
        [.expand .outgoing [⟨1, 2, "T"⟩], .expand .outgoing [⟨3, 4, "T"⟩]] = .ok state ∧
      state.2.map (fun handed => (handed.identity, handed.id)) =
        [((none, ⟨"T", 1, 2⟩), 18446744073709551615),
          ((some 18446744073709551615, ⟨"T", 3, 4⟩), 18446744073709551615)] ∧
      ¬ IdentityInjective state.2 := by
  refine ⟨reachable_mixedRun _, ?_⟩
  have hrun : (((topIdRun.foldl Sys.exec .initial).db.cells "c").serveReads
      (topIdRun.foldl Sys.exec .initial).db.sequence
      [.expand .outgoing [⟨1, 2, "T"⟩], .expand .outgoing [⟨3, 4, "T"⟩]]).map
        (fun state => state.2.map fun handed => (handed.identity, handed.id)) =
      .ok [((none, ⟨"T", 1, 2⟩), 18446744073709551615),
        ((some 18446744073709551615, ⟨"T", 3, 4⟩), 18446744073709551615)] := by decide +kernel
  generalize ((topIdRun.foldl Sys.exec .initial).db.cells "c").serveReads
    (topIdRun.foldl Sys.exec .initial).db.sequence
    [.expand .outgoing [⟨1, 2, "T"⟩], .expand .outgoing [⟨3, 4, "T"⟩]] = result at hrun ⊢
  cases result with
  | error => cases hrun
  | ok state =>
    have hhanded := Except.ok.inj hrun
    refine ⟨state, rfl, hhanded, fun hinjective => ?_⟩
    obtain ⟨a, ha, hra⟩ := mem_map.1 (hhanded ▸ mem_cons_self)
    obtain ⟨b, hb, hrb⟩ := mem_map.1 (hhanded ▸ mem_cons_of_mem _ (mem_singleton_self _))
    obtain ⟨hida, hnuma⟩ := Prod.mk.inj hra
    obtain ⟨hidb, hnumb⟩ := Prod.mk.inj hrb
    have hidentity := (hinjective a ha b hb).1 (hnuma.trans hnumb.symm)
    rw [hida, hidb] at hidentity
    cases (Prod.mk.inj hidentity).1

end HydraDb
