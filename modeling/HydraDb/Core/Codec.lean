import HydraDb.Core.Model
import HydraDb.Lib.Loop

/-!
# Codecs

The text and byte encodings of `codec.rs` that the write path depends on: key components, the
property-index encoding of a value, the form in which a stored value is read back, and the
fingerprints that bind an idempotency key to its payload.

Records are kept decoded in the model. The only place where decoding does not return what was
encoded is the property value: a stored signed integer is read back through
`VertexPropertyValue::from_i64`, so a non-negative one comes back unsigned
(`VertexPropertyValue.readBack`). Every write of a record therefore goes through `readBack`.
-/

namespace HydraDb

open OrdMap

/-! ## Text -/

/-- `{value:020}`. -/
def padded20 (value : Nat) : String :=
  let digits := Nat.toDigits 10 value
  String.ofList (List.replicate (20 - digits.length) '0' ++ digits)

/-- `{value:016x}`. -/
def hex16 (value : UInt64) : String :=
  let digits := Nat.toDigits 16 value.toNat
  String.ofList (List.replicate (16 - digits.length) '0' ++ digits)

/-- The UTF-8 bytes of a text. -/
def utf8Bytes (text : String) : List UInt8 := text.toUTF8.data.toList

/-- `hex_encode`. -/
def hexEncode (bytes : List UInt8) : String :=
  String.ofList <| bytes.flatMap fun byte =>
    [Nat.digitChar (byte.toNat / 16), Nat.digitChar (byte.toNat % 16)]

/-- A byte of a key component. -/
def isComponentChar (c : Char) : Bool := c.isAlphanum || c = '_' || c = '-' || c = '.'

/-- `validate_component`: a key component is not empty and holds only letters, digits, `_`, `-`
and `.`. -/
def validateComponent (component value : String) : Except GraphError Unit :=
  if value.isEmpty || !value.toList.all isComponentChar then
    .error (.invalidKeyComponent component value)
  else .ok ()

/-- `validate_edge_metadata` (`shard/write.rs`). -/
def validateEdgeMetadata (metadata : EdgeMetadata) : Except GraphError Unit :=
  metadata.properties.keys.forM fun property => validateComponent "property" property

/-- `validate_vertex_metadata` (`shard/write.rs`). -/
def validateVertexMetadata (metadata : VertexMetadata) : Except GraphError Unit := do
  metadata.labels.keys.forM fun label => validateComponent "label" label
  metadata.properties.keys.forM fun property => validateComponent "property" property

/-- `QueryBatchMergePolicy::validate`. -/
def QueryBatchMergePolicy.validate (policy : QueryBatchMergePolicy) : Except GraphError Unit := do
  validateComponent "property" policy.updateIfNewerBy
  policy.createOnlyProperties.keys.forM fun property => validateComponent "property" property
  if policy.createOnlyProperties.contains policy.updateIfNewerBy then
    .error (.unsupportedQuery "QueryBatch"
      s!"update guard {policy.updateIfNewerBy} cannot also be create-only" .unwind)
  else .ok ()

/-- The check of a request's merge policy, if it has one. -/
def validateMergePolicy : Option QueryBatchMergePolicy → Except GraphError Unit
  | some policy => policy.validate
  | none => .ok ()

/-! ## Key texts

The texts of the keys that errors name (`keys.rs`). -/

def lastRelationshipIdKeyText (cellId : CellId) : String :=
  "cell/" ++ cellId ++ "/meta/last_relationship_id"

def relationshipIdKeyText (cellId : CellId) (relationshipId : RelationshipId) : String :=
  "cell/" ++ cellId ++ "/rel_id/" ++ padded20 relationshipId.toNat

def relationshipKeyText (cellId : CellId) (edgeType : EdgeType) (src dst : VertexId)
    (relationshipId : RelationshipId) : String :=
  "cell/" ++ cellId ++ "/rel/" ++ edgeType ++ "/" ++ padded20 src.toNat ++ "/" ++
    padded20 dst.toNat ++ "/" ++ padded20 relationshipId.toNat

def relationshipPropertyIndexText (cellId : CellId) (edgeType : EdgeType)
    (property encoded : String) (src dst : VertexId) (relationshipId : RelationshipId) : String :=
  "cell/" ++ cellId ++ "/rprop_idx/" ++ edgeType ++ "/" ++ property ++ "/" ++ encoded ++ "/" ++
    padded20 src.toNat ++ "/" ++ padded20 dst.toNat ++ "/" ++ padded20 relationshipId.toNat

def vertexKeyText (cellId : CellId) (vertex : VertexId) : String :=
  "cell/" ++ cellId ++ "/vertex/" ++ padded20 vertex.toNat

def outSegmentSrcPrefixText (cellId : CellId) (edgeType : EdgeType) (src : VertexId) : String :=
  "cell/" ++ cellId ++ "/seg/out/" ++ edgeType ++ "/" ++ padded20 src.toNat ++ "/"

/-! ## Property values -/

/-- `1_u64 << 63`. -/
def signBit : UInt64 := 0x8000000000000000

/-- `sortable_float_bits`, on the bits of the float. -/
def sortableFloatBits (bits : UInt64) : UInt64 :=
  if bits &&& signBit = 0 then bits ^^^ signBit else ~~~bits

/-- `encode_vertex_property_value_key`: the value segment of a property-index key. -/
def encodeVertexPropertyValueKey : VertexPropertyValue → String
  | .integer value => "i" ++ padded20 value.toNat
  | .signedInteger value => "j" ++ hex16 (value.toUInt64 ^^^ signBit)
  | .bool false => "b0"
  | .bool true => "b1"
  | .float bits => "n" ++ hex16 (sortableFloatBits bits)
  | .string value => "s" ++ hexEncode (utf8Bytes value)

/-- `encode_vertex_property_value_record`: the value as a record stores it. -/
def encodeVertexPropertyValueRecord : VertexPropertyValue → String
  | .integer value => "i:" ++ toString value.toNat
  | .signedInteger value => "j:" ++ toString value.toInt
  | .bool false => "b:false"
  | .bool true => "b:true"
  | .float bits => "f:" ++ hex16 bits
  | .string value => "s:" ++ hexEncode (utf8Bytes value)

/-- What decoding the stored form of a value returns (`decode_vertex_property_value_record`): a
signed integer comes back through `from_i64`. -/
def VertexPropertyValue.readBack : VertexPropertyValue → VertexPropertyValue
  | .signedInteger value => .fromI64 value
  | value => value

/-- The form the value parser produces: no signed integer holds a non-negative number. -/
def VertexPropertyValue.Canonical (value : VertexPropertyValue) : Prop :=
  ∀ i, value = .signedInteger i → i < 0

instance (value : VertexPropertyValue) : Decidable value.Canonical :=
  match value with
  | .signedInteger i => decidable_of_iff (i < 0) (by simp [VertexPropertyValue.Canonical])
  | .integer _ | .bool _ | .float _ | .string _ =>
    .isTrue (by simp [VertexPropertyValue.Canonical])

/-- Properties as they are read back. -/
def Properties.readBack (properties : Properties) : Properties :=
  properties.mapValues VertexPropertyValue.readBack

/-- All values are in canonical form. -/
def Properties.Canonical (properties : Properties) : Prop :=
  ∀ e ∈ properties.entries, e.2.Canonical

instance (properties : Properties) : Decidable properties.Canonical :=
  inferInstanceAs (Decidable (∀ e ∈ properties.entries, e.2.Canonical))

def EdgeMetadata.readBack (metadata : EdgeMetadata) : EdgeMetadata :=
  ⟨metadata.properties.readBack⟩

def VertexMetadata.readBack (metadata : VertexMetadata) : VertexMetadata :=
  ⟨metadata.labels, metadata.properties.readBack⟩

theorem VertexPropertyValue.readBack_of_canonical {value : VertexPropertyValue}
    (h : value.Canonical) : value.readBack = value := by
  cases value with
  | signedInteger i =>
    have hlt : i < 0 := h i rfl
    rw [readBack, fromI64, if_neg (Int64.not_le.2 hlt)]
  | integer | bool | float | string => rfl

theorem VertexPropertyValue.canonical_readBack (value : VertexPropertyValue) :
    value.readBack.Canonical := by
  cases value with
  | signedInteger =>
    rw [readBack, fromI64]
    split
    · intro j hj; cases hj
    · next h => rintro j ⟨⟩; exact Int64.not_le.1 h
  | integer | bool | float | string => intro j hj; cases hj

variable {properties : Properties}

theorem Properties.canonical_iff :
    properties.Canonical ↔
      ∀ property value, properties.get property = some value → value.Canonical := by
  constructor
  · intro h property value hget
    exact h _ (mem_entries.2 hget)
  · rintro h ⟨property, value⟩ he
    exact h property value (mem_entries.1 he)

theorem Properties.readBack_of_canonical (h : properties.Canonical) :
    properties.readBack = properties := by
  refine ext_get fun property => ?_
  rw [readBack, get_mapValues]
  cases hget : properties.get property with
  | none => rfl
  | some =>
    rw [Option.map_some, VertexPropertyValue.readBack_of_canonical (canonical_iff.1 h _ _ hget)]

theorem Properties.canonical_readBack (properties : Properties) :
    properties.readBack.Canonical := by
  refine canonical_iff.2 fun property value hget => ?_
  rw [readBack, get_mapValues, Option.map_eq_some_iff] at hget
  obtain ⟨v, -, rfl⟩ := hget
  exact v.canonical_readBack

namespace Properties.Canonical

variable {properties : Properties}

section

variable (h : properties.Canonical)

include h

theorem put (hvalue : value.Canonical) : Canonical (put properties property value) :=
  canonical_iff.2 (forall_get_put (canonical_iff.1 h) hvalue)

theorem putAll (hes : ∀ e ∈ es, e.2.Canonical) : Canonical (putAll properties es) :=
  List.foldl_invariant h fun e he _ hc => hc.put (hes e he)

theorem extend (hother : other.Canonical) : (extend properties other).Canonical :=
  h.putAll hother

theorem delAll (ks : List String) : Canonical (delAll properties ks) := by
  refine canonical_iff.2 fun property value hget => ?_
  rw [get_delAll] at hget
  split at hget
  · cases hget
  · exact canonical_iff.1 h _ _ hget

end

end Properties.Canonical

/-! ## Fingerprints -/

/-- One step of the 64-bit FNV-1a hash. -/
def fnvByte (hash : UInt64) (byte : UInt8) : UInt64 :=
  (hash ^^^ byte.toUInt64) * 0x00000100000001b3

/-- The FNV-1a hash of a byte stream, from the standard offset basis. -/
def fnv1a (bytes : List UInt8) : UInt64 := bytes.foldl fnvByte 0xcbf29ce484222325

/-- `u64::to_be_bytes`. -/
def beBytes (value : UInt64) : List UInt8 :=
  [value >>> 56, value >>> 48, value >>> 40, value >>> 32, value >>> 24, value >>> 16,
    value >>> 8, value].map UInt64.toUInt8

/-- The properties of a payload, as the fingerprints hash them. -/
def propertyBytes (tag : String) (properties : Properties) : List UInt8 :=
  properties.entries.flatMap fun e =>
    utf8Bytes tag ++ utf8Bytes e.1 ++ utf8Bytes "=" ++
      utf8Bytes (encodeVertexPropertyValueRecord e.2) ++ [0]

/-- `bulk_import_fingerprint`. -/
def bulkImportFingerprint (cellId : CellId) (edgeType : EdgeType)
    (edges : List (VertexId × VertexId)) : UInt64 :=
  fnv1a <| utf8Bytes cellId ++ [0] ++ utf8Bytes edgeType ++ [0] ++
    edges.flatMap fun e => beBytes e.1 ++ beBytes e.2

/-- `relationship_import_fingerprint`. -/
def relationshipImportFingerprint (cellId : CellId) (edgeType : EdgeType)
    (relationships : List RelationshipMutation) : UInt64 :=
  fnv1a <| utf8Bytes cellId ++ [0] ++ utf8Bytes edgeType ++ [0] ++
    relationships.flatMap fun r =>
      beBytes r.src ++ beBytes r.dst ++ beBytes r.relationshipId ++
        propertyBytes "" r.metadata.properties

/-- `relationship_create_fingerprint`. -/
def relationshipCreateFingerprint (mutation : EdgeMutation)
    (metadataUpdates : List (VertexId × VertexMetadata)) (edgeMetadata : EdgeMetadata) : UInt64 :=
  fnv1a <| utf8Bytes mutation.cellId ++ [0] ++ utf8Bytes mutation.edgeType ++ [0] ++
    beBytes mutation.src ++ beBytes mutation.dst ++ [0] ++
    (metadataUpdates.flatMap fun u =>
      beBytes u.1 ++
        (u.2.labels.keys.flatMap fun label => utf8Bytes "label:" ++ utf8Bytes label ++ [0]) ++
        propertyBytes "vprop:" u.2.properties) ++
    propertyBytes "rprop:" edgeMetadata.properties

end HydraDb
