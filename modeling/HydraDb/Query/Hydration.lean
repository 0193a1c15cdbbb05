import HydraDb.Core.Model
import HydraDb.Lib.Loop
import Mathlib.Algebra.GroupWithZero.Nat

/-!
# The hydration identity map

A plan that can reach a vertex more than once reads through `HydrationIdentityMap`
(`cypher-engine/src/hydration.rs`). The map remembers the vertices of the read session that it has
seen, the absent ones too, and the answers of property seeks and equality probes. A session is one
snapshot, so what is remembered stays true: whatever was read before, a call gets what the session
would answer, and the map stays within its budget (`identityMap_transparent`). The one difference
is the order in which `hydrate_vertices` lists the vertices (`hydrateVertices_reordered`).
-/

namespace HydraDb.Hydration

open OrdMap List

/-! ## The map -/

/-- `ScalarValue`. -/
inductive ScalarValue where
  | null
  | boolean (value : Bool)
  | integer (value : Int)
  | float (text : String)
  | string (text : String)
  deriving DecidableEq

/-- `VertexRecord`. -/
structure VertexRecord where
  id : VertexId
  labels : OrdMap String Unit
  properties : OrdMap String ScalarValue

/-- `PropertyEqualityCandidate`. -/
structure PropertyEqualityCandidate where
  property : String
  values : List ScalarValue
  deriving DecidableEq

/-- `EqualityLookup`. -/
inductive EqualityLookup where
  | seek (property : String) (value : ScalarValue)
  | probe (candidates : List PropertyEqualityCandidate)
  deriving DecidableEq

/-- What a lookup found; an equality probe may decline. -/
abbrev Found := Option (List VertexId)

/-- A read session (`GraphRead`) whose answers depend on the arguments alone. A page of an ordered
scan has its vertices and other fields; `other` answers the calls that the map only passes on. -/
structure GraphRead where
  Error : Type
  Scan : Type
  PageRest : Type
  Call : Type
  Reply : Type
  checkpoint : String → Except Error Unit
  maxIntermediateRows : Option Nat
  seekVerticesByProperty : String → ScalarValue → Except Error (List VertexId)
  probeSelectiveEquality : List PropertyEqualityCandidate → Except Error Found
  scanVerticesByPropertyOrdered : Scan → Except Error (List VertexRecord × PageRest)
  hydrateVertices : List VertexId → Except Error (List VertexRecord)
  other : Call → Except Error Reply

/-- `HydrationIdentityMap`, without the session it wraps. -/
structure IdentityMap where
  vertices : OrdMap VertexId (Option VertexRecord)
  capacity : Option Nat
  lookups : List (EqualityLookup × Found)
  lookupBytes : Nat
  lookupIds : Nat

/-- `LOOKUP_MAX_ENTRIES`. -/
def lookupMaxEntries : Nat := 64

/-- `LOOKUP_MAX_IDS`. -/
def lookupMaxIds : Nat := 4096

/-- `LOOKUP_MAX_BYTES`. -/
def lookupMaxBytes : Nat := 256 * 1024

/-- `size_of` of the types whose values are counted. -/
structure Sizes where
  lookup : Nat
  value : Nat
  candidate : Nat
  id : Nat

/-- `value_bytes`. -/
def Sizes.valueBytes (sizes : Sizes) (value : ScalarValue) : Nat :=
  sizes.value + match value with
    | .string text | .float text => text.utf8ByteSize
    | _ => 0

/-- `retained_bytes`. -/
def Sizes.retainedBytes (sizes : Sizes) (key : EqualityLookup) : Nat :=
  sizes.lookup + match key with
    | .seek property value => property.utf8ByteSize + sizes.valueBytes value
    | .probe candidates => (candidates.map fun candidate => sizes.candidate +
        candidate.property.utf8ByteSize + (candidate.values.map sizes.valueBytes).sum).sum

/-- The ids that a lookup found. -/
def Found.count (ids : Found) : Nat := ids.elim 0 length

/-- What a lookup counts for in bytes. -/
def Sizes.bytes (sizes : Sizes) (lookup : EqualityLookup × Found) : Nat :=
  sizes.retainedBytes lookup.1 + Found.count lookup.2 * sizes.id

/-- The ids that all lookups may have found together. -/
def idLimit (capacity : Option Nat) : Nat := min (capacity.getD lookupMaxIds) lookupMaxIds

variable (inner : GraphRead) (sizes : Sizes) (s : IdentityMap)

namespace IdentityMap

/-- `HydrationIdentityMap::new`. -/
def new : IdentityMap := ⟨∅, inner.maxIntermediateRows, [], 0, 0⟩

/-- `cached_lookup`. -/
def cachedLookup (key : EqualityLookup) : Option Found :=
  (s.lookups.find? (·.1 = key)).map Prod.snd

/-- `admit_lookup`. No sum that saturates is within a limit, so the sums are plain here. -/
def admitLookup (key : EqualityLookup) (ids : Found) : IdentityMap :=
  if lookupMaxEntries ≤ s.lookups.length ∨ idLimit s.capacity < s.lookupIds + ids.count then s
  else if s.lookupBytes + sizes.bytes (key, ids) ≤ lookupMaxBytes then
    { s with
      lookups := s.lookups ++ [(key, ids)]
      lookupBytes := s.lookupBytes + sizes.bytes (key, ids)
      lookupIds := s.lookupIds + ids.count }
  else s

/-- `admit`. -/
def admitVertex (id : VertexId) (vertex : Option VertexRecord) : IdentityMap :=
  if s.vertices.contains id ∨ ∀ capacity ∈ s.capacity, s.vertices.entries.length < capacity then
    { s with vertices := s.vertices.put id vertex }
  else s

/-- The two calls that look for an answer first: `unpack` says which found ones they take. -/
def readThrough {α : Type} (operation : String) (key : EqualityLookup) (read : Except inner.Error α)
    (pack : α → Found) (unpack : Found → Option α) : Except inner.Error α × IdentityMap :=
  match inner.checkpoint operation with
  | .error error => (.error error, s)
  | .ok () =>
    match (s.cachedLookup key).bind unpack with
    | some answer => (.ok answer, s)
    | none =>
      match read with
      | .error error => (.error error, s)
      | .ok answer => (.ok answer, s.admitLookup sizes key (pack answer))

/-- `seek_vertices_by_property`. -/
def seekVerticesByProperty (property : String) (value : ScalarValue) :
    Except inner.Error (List VertexId) × IdentityMap :=
  s.readThrough inner sizes "cypher_cached_property_seek" (.seek property value)
    (inner.seekVerticesByProperty property value) some id

/-- `probe_selective_equality`. -/
def probeSelectiveEquality (candidates : List PropertyEqualityCandidate) :
    Except inner.Error Found × IdentityMap :=
  s.readThrough inner sizes "cypher_cached_equality_probe" (.probe candidates)
    (inner.probeSelectiveEquality candidates) id some

/-- `scan_vertices_by_property_ordered`. -/
def scanVerticesByPropertyOrdered (request : inner.Scan) :
    Except inner.Error (List VertexRecord × inner.PageRest) × IdentityMap :=
  match inner.scanVerticesByPropertyOrdered request with
  | .error error => (.error error, s)
  | .ok page => (.ok page, page.1.foldl (fun s vertex => s.admitVertex vertex.id (some vertex)) s)

/-- `hydrate_vertices`. -/
def hydrateVertices (ids : List VertexId) : Except inner.Error (List VertexRecord) × IdentityMap :=
  let requested := sortDedup ids
  let hydrated := requested.filterMap fun id => (s.vertices.get id).join
  let misses := requested.filter fun id => !s.vertices.contains id
  if misses.isEmpty then (.ok hydrated, s)
  else match inner.hydrateVertices misses with
  | .error error => (.error error, s)
  | .ok records =>
    let fetched := putAll ∅ (records.map fun vertex => (vertex.id, vertex))
    (.ok (hydrated ++ misses.filterMap fetched.get),
      misses.foldl (fun s id => s.admitVertex id (fetched.get id)) s)

/-- The calls that are passed on. -/
def other (call : inner.Call) : Except inner.Error inner.Reply × IdentityMap :=
  (inner.other call, s)

end IdentityMap

variable {inner sizes s} {vertex : VertexId → Option VertexRecord}

/-- A call of the session. -/
inductive ReadCall (inner : GraphRead) where
  | seek (property : String) (value : ScalarValue)
  | probe (candidates : List PropertyEqualityCandidate)
  | scan (request : inner.Scan)
  | hydrate (ids : List VertexId)
  | other (call : inner.Call)

/-- The map after a call. -/
def IdentityMap.step (sizes : Sizes) (s : IdentityMap) : ReadCall inner → IdentityMap
  | .seek property value => (s.seekVerticesByProperty inner sizes property value).2
  | .probe candidates => (s.probeSelectiveEquality inner sizes candidates).2
  | .scan request => (s.scanVerticesByPropertyOrdered inner request).2
  | .hydrate ids => (s.hydrateVertices inner ids).2
  | .other call => (s.other inner call).2

/-! ## Sessions that read one snapshot -/

/-- The records of the vertices that exist among the ids, once each and in any order. -/
def Hydrates (vertex : VertexId → Option VertexRecord) (ids : List VertexId)
    (records : List VertexRecord) : Prop :=
  records.Perm ((sortDedup ids).filterMap vertex)

/-- The session shows the vertices of one snapshot, whenever it answers. -/
structure GraphRead.Shows (inner : GraphRead) (vertex : VertexId → Option VertexRecord) :
    Prop where
  key : vertex v = some record → record.id = v
  hydrate : inner.hydrateVertices ids = .ok records → Hydrates vertex ids records
  scan : inner.scanVerticesByPropertyOrdered request = .ok page →
    ∀ record ∈ page.1, vertex record.id = some record

/-- What the session answers to a lookup. -/
def GraphRead.lookup (inner : GraphRead) : EqualityLookup → Except inner.Error Found
  | .seek property value => some <$> inner.seekVerticesByProperty property value
  | .probe candidates => inner.probeSelectiveEquality candidates

namespace IdentityMap

/-- What the map retains is within the budget of the session. -/
structure WithinBudget (inner : GraphRead) (sizes : Sizes) (s : IdentityMap) : Prop where
  vertices : ∀ capacity ∈ inner.maxIntermediateRows, s.vertices.entries.length ≤ capacity
  entries : s.lookups.length ≤ lookupMaxEntries
  ids : (s.lookups.map (Found.count ·.2)).sum ≤ idLimit inner.maxIntermediateRows
  bytes : (s.lookups.map sizes.bytes).sum ≤ lookupMaxBytes

/-- The invariant: the counters are right, and what is remembered is what the session says. -/
structure Ok (inner : GraphRead) (sizes : Sizes) (vertex : VertexId → Option VertexRecord)
    (s : IdentityMap) : Prop extends s.WithinBudget inner sizes where
  capacity : s.capacity = inner.maxIntermediateRows
  lookupIds : s.lookupIds = (s.lookups.map (Found.count ·.2)).sum
  lookupBytes : s.lookupBytes = (s.lookups.map sizes.bytes).sum
  known : ∀ id record, s.vertices.get id = some record → record = vertex id
  found : ∀ lookup ∈ s.lookups, inner.lookup lookup.1 = .ok lookup.2

theorem Ok.new : (IdentityMap.new inner).Ok inner sizes vertex :=
  ⟨⟨fun _ _ => Nat.zero_le _, Nat.zero_le _, Nat.zero_le _, Nat.zero_le _⟩, rfl, rfl, rfl, nofun,
    nofun⟩

variable (ok : s.Ok inner sizes vertex)

namespace Ok

include ok

theorem admitLookup (h : inner.lookup key = .ok ids) :
    (s.admitLookup sizes key ids).Ok inner sizes vertex := by
  unfold IdentityMap.admitLookup
  split
  · exact ok
  next hroom =>
  split
  · next hbytes =>
    rw [not_or, not_le, not_lt, ok.capacity, ok.lookupIds] at hroom
    rw [ok.lookupBytes] at hbytes
    exact { ok with
      entries := by rw [length_append]; exact hroom.1
      ids := by rw [map_append, sum_append]; exact hroom.2
      bytes := by rw [map_append, sum_append]; exact hbytes
      lookupIds := by rw [map_append, sum_append, ok.lookupIds]; rfl
      lookupBytes := by rw [map_append, sum_append, ok.lookupBytes]; rfl
      found := forall_mem_snoc.2 ⟨ok.found, h⟩ }
  · exact ok

theorem admitVertex (h : record = vertex v) : (s.admitVertex v record).Ok inner sizes vertex := by
  unfold IdentityMap.admitVertex
  split
  · next hroom =>
    refine { ok with vertices := fun capacity hcapacity => ?_, known := forall_get_put ok.known h }
    rw [length_entries, support_put]
    rcases hroom with hold | hroom
    · rw [Finset.insert_eq_of_mem (mem_support.2 hold), ← length_entries]
      exact ok.vertices capacity hcapacity
    · refine (Finset.card_insert_le ..).trans ?_
      rw [← length_entries]
      exact hroom capacity (ok.capacity ▸ hcapacity)
  · exact ok

theorem readThrough {α : Type} {read : Except inner.Error α} (pack : α → Found)
    (unpack : Found → Option α) (hread : inner.lookup key = pack <$> read)
    (hpack : ∀ a, unpack (pack a) = some a) (operation : String) :
    (s.readThrough inner sizes operation key read pack unpack).1 =
        (inner.checkpoint operation >>= fun _ => read) ∧
      (s.readThrough inner sizes operation key read pack unpack).2.Ok inner sizes vertex := by
  unfold IdentityMap.readThrough
  cases inner.checkpoint operation with
  | error => exact ⟨rfl, ok⟩
  | ok =>
    dsimp only
    split
    · next answer hanswer =>
      obtain ⟨ids, hfound, hanswer⟩ := Option.bind_eq_some_iff.1 hanswer
      obtain ⟨⟨key', _⟩, hfind, rfl⟩ := Option.map_eq_some_iff.1 hfound
      obtain rfl : key' = key := by simpa using find?_some hfind
      have hlookup := ok.found _ (mem_of_find?_eq_some hfind)
      rw [hread] at hlookup
      cases read with
      | error => cases hlookup
      | ok =>
        cases hlookup
        rw [hpack] at hanswer
        cases hanswer
        exact ⟨rfl, ok⟩
    · cases read with
      | error => exact ⟨rfl, ok⟩
      | ok => exact ⟨rfl, ok.admitLookup hread⟩

variable (hinner : inner.Shows vertex)

include hinner

theorem scanVerticesByPropertyOrdered (request : inner.Scan) :
    (s.scanVerticesByPropertyOrdered inner request).1 =
        inner.scanVerticesByPropertyOrdered request ∧
      (s.scanVerticesByPropertyOrdered inner request).2.Ok inner sizes vertex := by
  unfold IdentityMap.scanVerticesByPropertyOrdered
  cases hread : inner.scanVerticesByPropertyOrdered request with
  | error => exact ⟨rfl, ok⟩
  | ok => exact ⟨rfl, foldl_invariant ok fun record hmem _ ok =>
      ok.admitVertex (hinner.scan hread record hmem).symm⟩

omit ok in
/-- What a batch brings for one of its ids is the vertex of the snapshot, or its absence. -/
theorem get_fetched (h : Hydrates vertex ids records) (hv : v ∈ ids) :
    (putAll ∅ (records.map fun record => (record.id, record))).get v = vertex v := by
  have hrecord {record} (hmem : record ∈ records) : vertex record.id = some record := by
    obtain ⟨v, -, hv⟩ := mem_filterMap.1 (h.mem_iff.1 hmem)
    rw [hinner.key hv, hv]
  cases hvertex : vertex v with
  | some record =>
    have hmem := h.mem_iff.2 (mem_filterMap.2 ⟨v, mem_sortDedup.2 hv, hvertex⟩)
    refine get_putAll_of_mem (mem_map.2 ⟨record, hmem, by rw [hinner.key hvertex]⟩) ?_
    rintro _ he rfl
    obtain ⟨record', hmem', rfl⟩ := mem_map.1 he
    exact Option.some.inj ((hrecord hmem').symm.trans hvertex)
  | none =>
    rw [get_putAll_of_notMem, get_empty]
    rintro _ he rfl
    obtain ⟨record, hmem, rfl⟩ := mem_map.1 he
    cases (hrecord hmem).symm.trans hvertex

omit hinner in
/-- The hits and the vertices of the misses are the vertices of all the ids. -/
theorem perm_hits (ids : List VertexId) :
    (ids.filterMap (fun id => (s.vertices.get id).join) ++
      (ids.filter fun id => !s.vertices.contains id).filterMap vertex).Perm
        (ids.filterMap vertex) := by
  have hhits : ids.filterMap (fun id => (s.vertices.get id).join) =
      (ids.filter s.vertices.contains).filterMap vertex := by
    rw [filterMap_filter]
    refine filterMap_congr fun v _ => ?_
    unfold OrdMap.contains
    cases hget : s.vertices.get v with
    | none => rfl
    | some record => exact ok.known v record hget
  rw [hhits, ← filterMap_append]
  exact (filter_append_perm ..).filterMap vertex

theorem hydrateVertices (ids : List VertexId) :
    (∀ records, (s.hydrateVertices inner ids).1 = .ok records → Hydrates vertex ids records) ∧
    (∀ error, (s.hydrateVertices inner ids).1 = .error error →
      ∃ misses ⊆ ids, inner.hydrateVertices misses = .error error) ∧
    (s.hydrateVertices inner ids).2.Ok inner sizes vertex := by
  have hperm := ok.perm_hits (sortDedup ids)
  unfold IdentityMap.hydrateVertices
  dsimp only
  generalize hmisses : ((sortDedup ids).filter fun id => !s.vertices.contains id) = misses at hperm
  by_cases hempty : misses.isEmpty = true
  · rw [if_pos hempty]
    rw [List.isEmpty_iff.1 hempty, filterMap_nil, append_nil] at hperm
    refine ⟨?_, nofun, ok⟩
    rintro _ ⟨⟩
    exact hperm
  rw [if_neg hempty]
  cases hread : inner.hydrateVertices misses with
  | error =>
    refine ⟨nofun, ?_, ok⟩
    rintro _ ⟨⟩
    refine ⟨misses, fun v hv => ?_, hread⟩
    rw [← hmisses] at hv
    exact mem_sortDedup.1 (mem_filter.1 hv).1
  | ok =>
    have hget {v} (hv : v ∈ misses) := get_fetched hinner (hinner.hydrate hread) hv
    refine ⟨?_, nofun, foldl_invariant ok fun v hv _ ok => ok.admitVertex (hget hv)⟩
    rintro _ ⟨⟩
    rw [← filterMap_congr fun v => hget] at hperm
    exact hperm

theorem step (call : ReadCall inner) : (s.step sizes call).Ok inner sizes vertex := by
  cases call with
  | seek => exact (ok.readThrough some id rfl (fun _ => rfl) _).2
  | probe => exact (ok.readThrough id some (id_map _).symm (fun _ => rfl) _).2
  | scan request => exact (ok.scanVerticesByPropertyOrdered hinner request).2
  | hydrate ids => exact (ok.hydrateVertices hinner ids).2.2
  | other => exact ok

end Ok

end IdentityMap

/-- **The identity map is transparent.** Over a session that shows one snapshot, after any calls:
the map is within its budget; a lookup that passes its checkpoint, an ordered scan and every call
that is passed on are answered as the session answers them; `hydrate_vertices` answers the existing
vertices, as the session does up to their order, and fails only if the session does for some of the
ids. -/
theorem identityMap_transparent (hinner : inner.Shows vertex) (sizes : Sizes)
    (calls : List (ReadCall inner)) :
    let s := calls.foldl (IdentityMap.step sizes) (.new inner)
    s.WithinBudget inner sizes ∧
    (∀ property value, (s.seekVerticesByProperty inner sizes property value).1 =
      (inner.checkpoint "cypher_cached_property_seek" >>= fun _ =>
        inner.seekVerticesByProperty property value)) ∧
    (∀ candidates, (s.probeSelectiveEquality inner sizes candidates).1 =
      (inner.checkpoint "cypher_cached_equality_probe" >>= fun _ =>
        inner.probeSelectiveEquality candidates)) ∧
    (∀ request, (s.scanVerticesByPropertyOrdered inner request).1 =
      inner.scanVerticesByPropertyOrdered request) ∧
    (∀ call, (s.other inner call).1 = inner.other call) ∧
    ∀ ids, (∀ records, (s.hydrateVertices inner ids).1 = .ok records →
        Hydrates vertex ids records ∧
        ∀ direct, inner.hydrateVertices ids = .ok direct → records.Perm direct) ∧
      ∀ error, (s.hydrateVertices inner ids).1 = .error error →
        ∃ misses ⊆ ids, inner.hydrateVertices misses = .error error := by
  have ok : (calls.foldl (IdentityMap.step sizes) (.new inner)).Ok inner sizes vertex :=
    foldl_invariant .new fun call _ _ ok => ok.step hinner call
  refine ⟨ok.toWithinBudget, fun _ _ => (ok.readThrough some id rfl (fun _ => rfl) _).1,
    fun _ => (ok.readThrough id some (id_map _).symm (fun _ => rfl) _).1,
    fun request => (ok.scanVerticesByPropertyOrdered hinner request).1, fun _ => rfl, fun ids => ?_⟩
  obtain ⟨hrecords, herror, -⟩ := ok.hydrateVertices hinner ids
  refine ⟨fun records h => ⟨hrecords records h, fun direct hdirect => ?_⟩, herror⟩
  exact (hrecords records h).trans (hinner.hydrate hdirect).symm

/-- The vertices 1 and 2, without labels and properties. -/
def smallVertex (id : VertexId) : Option VertexRecord :=
  if id = 1 ∨ id = 2 then some ⟨id, ∅, ∅⟩ else none

/-- A session over the vertices 1 and 2 that lists them by id. -/
def smallSession : GraphRead where
  Error := Unit
  Scan := Unit
  PageRest := Unit
  Call := Unit
  Reply := Unit
  checkpoint _ := .ok ()
  maxIntermediateRows := some 1
  seekVerticesByProperty _ _ := .ok [1]
  probeSelectiveEquality _ := .ok none
  scanVerticesByPropertyOrdered _ := .ok ([], ())
  hydrateVertices ids := .ok ((sortDedup ids).filterMap smallVertex)
  other _ := .ok ()

theorem identityMap_transparent_small :
    let s := ((IdentityMap.new smallSession).hydrateVertices smallSession [2]).2
    smallSession.Shows smallVertex ∧ ∀ records,
      (s.hydrateVertices smallSession [1, 2]).1 = .ok records →
        Hydrates smallVertex [1, 2] records := by
  have hshows : smallSession.Shows smallVertex := by
    refine ⟨fun h => ?_, ?_, ?_⟩
    · obtain ⟨-, h⟩ := then_of_ne h nofun
      cases h
      rfl
    · rintro ids _ ⟨⟩
      exact .refl _
    · rintro _ _ ⟨⟩
      exact nofun
  refine ⟨hshows, fun records h => ?_⟩
  obtain ⟨-, -, -, -, -, hhydrate⟩ :=
    identityMap_transparent hshows ⟨64, 32, 48, 8⟩ [.hydrate [2]]
  exact ((hhydrate [1, 2]).1 records h).1

/-- A vertex that the map knows is listed before the others. -/
theorem hydrateVertices_reordered :
    let s := ((IdentityMap.new smallSession).hydrateVertices smallSession [2]).2
    (s.hydrateVertices smallSession [1, 2]).1.map (map VertexRecord.id) = .ok [2, 1] ∧
      (smallSession.hydrateVertices [1, 2]).map (map VertexRecord.id) = .ok [1, 2] :=
  ⟨rfl, rfl⟩

end HydraDb.Hydration
