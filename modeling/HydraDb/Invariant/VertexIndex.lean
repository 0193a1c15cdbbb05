import HydraDb.Lib.SecondaryIndex
import HydraDb.Store.Records
import Mathlib.Logic.Relation

/-!
# The label and property indexes of vertices

A transaction changes the vertex tables by three kinds of writes: it gives a vertex new metadata,
it gives a vertex without a record an empty one, and it deletes a record. In each of them the index
keys that go are those of the stored record, and those that come are the keys of the metadata the
caller passed. The stored record has the values as they are read back, so the index stays exact for
labels in every case, and for properties when the values are in the form in which they are read
back.
-/

namespace HydraDb.VertexStore

/-! ## Writes -/

/-- One write of the vertex tables; `P` holds of the metadata it stores. -/
inductive Write (P : VertexMetadata → Prop) (s : VertexStore) : VertexStore → Prop where
  | put (vertex : VertexId) (next : VertexMetadata) (s' : VertexStore) (form : P next)
      (written : s.applyMetadataUpdate vertex ((s.records.get vertex).getD default) next = .ok s') :
      Write P s s'
  | ensure (vertex : VertexId) (absent : s.records.get vertex = none) :
      Write P s { s with records := s.records.put vertex default }
  | delete (vertex : VertexId) (previous : VertexMetadata)
      (present : s.records.get vertex = some previous) :
      Write P s (s.deleteRecord vertex previous)

/-- The writes of a transaction. -/
def Writes (P : VertexMetadata → Prop) : VertexStore → VertexStore → Prop :=
  Relation.ReflTransGen (Write P)

variable {P : VertexMetadata → Prop} {s s' : VertexStore}

theorem Writes.refl : Writes P s s := Relation.ReflTransGen.refl

theorem Writes.of_eq (h : s' = s) : Writes P s s' := h ▸ .refl

theorem Writes.tail (h : Writes P s s') (h' : Write P s' s'') : Writes P s s'' :=
  Relation.ReflTransGen.tail h h'

/-- What one write keeps, the writes of a transaction keep. -/
theorem Writes.invariant {I : VertexStore → Prop} (h : Writes P s s') (hs : I s)
    (step : ∀ s s', Write P s s' → I s → I s') : I s' := by
  induction h with
  | refl => exact hs
  | tail _ hwrite ih => exact step _ _ hwrite ih

/-! ## The indexes -/

/-- The label index. -/
def labelIndex : SecondaryIndex VertexId VertexMetadata VertexLabelKey where
  keys := labelKeys
  owner := VertexLabelKey.vertex
  owner_of_mem h := by
    obtain ⟨label, -, rfl⟩ := List.mem_map.1 h
    rfl

/-- The property index. -/
def propertyIndex : SecondaryIndex VertexId VertexMetadata VertexPropertyKey where
  keys := propertyKeys
  owner := VertexPropertyKey.vertex
  owner_of_mem h := by
    obtain ⟨e, -, rfl⟩ := List.mem_map.1 h
    rfl

/-- The label index holds exactly the labels of the records. -/
def LabelsExact (s : VertexStore) : Prop := labelIndex.Exact s.records s.labels

/-- The property index holds exactly the properties of the records. -/
def PropertiesExact (s : VertexStore) : Prop := propertyIndex.Exact s.records s.properties

theorem labelsExact_empty : LabelsExact Cell.empty.vertices := by
  rintro i
  exact iff_of_false Bool.false_ne_true fun ⟨_, _, h, _⟩ => by cases h

theorem propertiesExact_empty : PropertiesExact Cell.empty.vertices := by
  rintro i
  exact iff_of_false Bool.false_ne_true fun ⟨_, _, h, _⟩ => by cases h

/-- The keys that an update deletes are those of the record it finds. -/
theorem keys_getD_default {ix : SecondaryIndex VertexId VertexMetadata I}
    (h : s.records.get vertex = some metadata) :
    ix.keys vertex ((s.records.get vertex).getD default) = ix.keys vertex metadata := by
  rw [h, Option.getD_some]

/-- A write keeps the label index exact. -/
theorem LabelsExact.write (h : s.LabelsExact) (hwrite : Write P s s') : s'.LabelsExact := by
  cases hwrite with
  | put vertex next s' form written =>
    rw [applyMetadataUpdate_ok written]
    exact h.update (fun _ => keys_getD_default) rfl
  | ensure vertex absent => exact h.insert_bare absent rfl
  | delete vertex previous present =>
    exact h.delete fun metadata hmetadata => by rw [Option.some.inj (present.symm.trans hmetadata)]

/-- A write that stores values in canonical form keeps the property index exact. -/
theorem PropertiesExact.write (h : s.PropertiesExact) (hform : ∀ m, P m → m.properties.Canonical)
    (hwrite : Write P s s') : s'.PropertiesExact := by
  cases hwrite with
  | put vertex next s' form written =>
    rw [applyMetadataUpdate_ok written]
    refine h.update (fun _ => keys_getD_default) ?_
    change propertyKeys vertex next = propertyKeys vertex next.readBack
    rw [VertexMetadata.readBack, Properties.readBack_of_canonical (hform next form)]
  | ensure vertex absent => exact h.insert_bare absent rfl
  | delete vertex previous present =>
    exact h.delete fun metadata hmetadata => by rw [Option.some.inj (present.symm.trans hmetadata)]

/-- Records are stored as they are read back, so their values are in canonical form. -/
def RecordsCanonical (s : VertexStore) : Prop :=
  ∀ v metadata, s.records.get v = some metadata → metadata.properties.Canonical

theorem RecordsCanonical.write (h : s.RecordsCanonical) (hwrite : Write P s s') :
    s'.RecordsCanonical := by
  intro v metadata hget
  cases hwrite with
  | put vertex next s' form written =>
    rw [records_applyMetadataUpdate written] at hget
    exact OrdMap.forall_get_put h next.properties.canonical_readBack _ _ hget
  | ensure =>
    exact OrdMap.forall_get_put h (fun e he => absurd he List.not_mem_nil) _ _ hget
  | delete vertex =>
    change (s.records.del vertex).get v = some metadata at hget
    rw [OrdMap.get_del] at hget
    split at hget
    · cases hget
    · exact h v metadata hget

end HydraDb.VertexStore
