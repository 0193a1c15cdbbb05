import HydraDb.Lib.Lockstep
import HydraDb.Store.Transaction

/-!
# Cells that differ in how their edges are stored

A visible edge is a direct key or a position of a segment, and which of the two should not matter.
Two cells are `Alike` when their other tables are the same and their topologies are related by a
relation that implies the same visible edges and the same counters. Records of idempotency keys may
differ in the sequence that they report for an edge that existed already: it is the sequence of the
segment that shows the edge.

Two relations are used. `Agree` says no more than that, and every insert preserves it. A delete
takes an edge away in the form in which it is stored, which hides it only if it is not stored in the
other form as well: `Same` adds that no edge is. What the transactions need of a relation is said by
`Inserting` and `Deleting`.
-/

namespace HydraDb

open OrdMap

variable {α : Type}

/-- A relation between topologies with nothing newer than a sequence. -/
abbrev TopologyRel := StorageSequence → Topology → Topology → Prop

/-! ## Topologies -/

namespace Topology

/-- The same visible edges and the same degree counters, with nothing newer than `e`. -/
structure Agree (e : StorageSequence) (t t' : Topology) : Prop where
  left : t.Bounded e
  right : t'.Bounded e
  visible : ∀ k, t.Visible k ↔ t'.Visible k
  degreeOut : t.degreeOut = t'.degreeOut
  degreeIn : t.degreeIn = t'.degreeIn

/-- Topologies that agree, and that store no edge in both forms. -/
structure Same (e : StorageSequence) (t t' : Topology) : Prop extends Agree e t t' where
  disjoint_left : ∀ k, t.Direct k → ¬ t.SegVisible k
  disjoint_right : ∀ k, t'.Direct k → ¬ t'.SegVisible k

/-- The edge is hidden in the form in which it is stored. -/
inductive Hidden (e : StorageSequence) (k : EdgeKey) (t : Topology) : Topology → Prop where
  | direct (mirror : Bool) (h : t.Direct k) : Hidden e k t (t.removeDirect mirror k)
  | segment (h : ¬ t.Direct k) : Hidden e k t (t.putTombstone k e)

/-- What every transaction needs of a relation between topologies. -/
structure Counting (T : TopologyRel) : Prop where
  agree : ∀ {e t t'}, T e t t' → Agree e t t'
  mono : ∀ {e e' t t'}, T e t t' → e ≤ e' → T e' t t'
  setDegreeOut : ∀ {e t t'} (counters : OrdMap DegreeKey Nat), T e t t' →
    T e { t with degreeOut := counters } { t' with degreeOut := counters }

/-- What the inserts need. -/
structure Inserting (T : TopologyRel) : Prop
    extends Counting T where
  insertDirect : ∀ {e t t'} (mirror : Bool) (k : EdgeKey), T e t t' →
    T e (t.insertDirect mirror k) (t'.insertDirect mirror k)
  appendSegment : ∀ {e t t'} (s : SegmentKey) (destinations : List VertexId), T e t t' →
    e < s.sequence → T s.sequence (t.appendSegment s destinations) (t'.appendSegment s destinations)

/-- What the deletes need. -/
structure Deleting (T : TopologyRel) : Prop
    extends Counting T where
  hide : ∀ {e k t t' t₁ t₁'}, T e t t' → Hidden e k t t₁ → Hidden e k t' t₁' → T e t₁ t₁'

variable {e e' : StorageSequence} {t t' t₁ t₁' : Topology} {k : EdgeKey}

theorem Bounded.insertDirect (h : t.Bounded e) :
    (t.insertDirect mirror k).Bounded e := ⟨h.segment_le, h.tombstone_le⟩

theorem Bounded.appendSegment {destinations : List VertexId} (h : t.Bounded e)
    (hs : e < s.sequence) : (t.appendSegment s destinations).Bounded s.sequence where
  segment_le s' hs' := by
    rcases contains_put.1 hs' with rfl | hs'
    · exact le_rfl
    · exact (h.segment_le s' hs').trans hs.le
  tombstone_le k τ hk := by
    rw [Topology.appendSegment, get_delAll] at hk
    split at hk
    · cases hk
    · exact (h.tombstone_le k τ hk).trans hs.le

/-- A segment newer than everything is not there yet. -/
theorem Bounded.get_eq_none (h : t.Bounded e) (hs : e < s.sequence) :
    t.outSegments.get s = none := by
  rw [← Option.not_isSome_iff_eq_none, ← contains_iff]
  exact fun hc => absurd (h.segment_le s hc) (not_le.2 hs)

namespace Hidden

variable (hidden : Hidden e k t t₁)

include hidden

theorem bounded (h : t.Bounded e) : t₁.Bounded e := by
  cases hidden with
  | direct => exact ⟨h.segment_le, h.tombstone_le⟩
  | segment =>
    exact ⟨h.segment_le, forall_get_put h.tombstone_le le_rfl⟩

theorem direct_iff : t₁.Direct k' ↔ k' ≠ k ∧ t.Direct k' := by
  cases hidden with
  | direct => exact direct_removeDirect
  | segment hd =>
    rw [direct_putTombstone, iff_and_self]
    rintro hk' rfl
    exact hd hk'

theorem segVisible_imp (h : t.Bounded e) (hs : t₁.SegVisible k') : t.SegVisible k' := by
  cases hidden with
  | direct => exact hs
  | segment => exact ((segVisible_putTombstone h).1 hs).2

theorem segVisible_of_ne (h : t.Bounded e) (hk : k' ≠ k) : t₁.SegVisible k' ↔ t.SegVisible k' := by
  cases hidden with
  | direct => exact Iff.rfl
  | segment => rw [segVisible_putTombstone h, and_iff_right hk]

/-- Hiding an edge takes it away, unless it is stored in the other form too. -/
theorem visible_iff (h : t.Bounded e) (disjoint : t.Direct k → ¬ t.SegVisible k)
    : t₁.Visible k' ↔ k' ≠ k ∧ t.Visible k' := by
  cases hidden with
  | direct mirror hd => exact visible_removeDirect (disjoint hd)
  | segment hd => exact visible_putTombstone h hd

theorem degreeOut : t₁.degreeOut = t.degreeOut := by
  cases hidden <;> rfl

theorem degreeIn : t₁.degreeIn = t.degreeIn := by
  cases hidden <;> rfl

end Hidden

/-! ### The three relations -/

section

variable (h : t.Agree e t')

include h

/-- The edge read finds an edge in both. -/
theorem Agree.isSome_edgeEpochAt_eq (k : EdgeKey) :
    (t.edgeEpochAt k e).isSome = (t'.edgeEpochAt k e).isSome := by
  rw [Bool.eq_iff_iff, isSome_edgeEpochAt h.left, isSome_edgeEpochAt h.right, h.visible]

theorem Agree.edgeEpochAt_cases (k : EdgeKey) :
    (t.edgeEpochAt k e = none ∧ t'.edgeEpochAt k e = none) ∨
      ∃ epoch epoch', t.edgeEpochAt k e = some epoch ∧ t'.edgeEpochAt k e = some epoch' := by
  have hsome := h.isSome_edgeEpochAt_eq k
  cases hread : t.edgeEpochAt k e with
  | none =>
    rw [hread, Option.isSome_none] at hsome
    exact .inl ⟨rfl, Option.isSome_eq_false_iff.1 hsome.symm |> Option.isNone_iff_eq_none.1⟩
  | some epoch =>
    rw [hread] at hsome
    obtain ⟨epoch', hread'⟩ := Option.isSome_iff_exists.1 hsome.symm
    exact .inr ⟨epoch, epoch', rfl, hread'⟩

/-- The neighbour read finds the same destinations in both. -/
theorem Agree.contains_outNeighborsForSrc_eq : (t.outNeighborsForSrc edgeType src e).contains dst =
      (t'.outNeighborsForSrc edgeType src e).contains dst := by
  rw [Bool.eq_iff_iff, contains_outNeighborsForSrc h.left, contains_outNeighborsForSrc h.right,
    h.visible]

theorem Agree.mono (he : e ≤ e') : t.Agree e' t' :=
  ⟨h.left.mono he, h.right.mono he, h.visible, h.degreeOut, h.degreeIn⟩

theorem Agree.setDegreeOut (counters : OrdMap DegreeKey Nat) :
    Agree e { t with degreeOut := counters } { t' with degreeOut := counters } :=
  ⟨⟨h.left.segment_le, h.left.tombstone_le⟩, ⟨h.right.segment_le, h.right.tombstone_le⟩,
    h.visible, rfl, h.degreeIn⟩

theorem Agree.insertDirect (mirror : Bool) (k : EdgeKey) :
    (t.insertDirect mirror k).Agree e (t'.insertDirect mirror k) :=
  ⟨h.left.insertDirect, h.right.insertDirect,
    fun k' => by rw [visible_insertDirect, visible_insertDirect, h.visible],
    h.degreeOut, h.degreeIn⟩

theorem Agree.appendSegment (s : SegmentKey) (destinations : List VertexId) (hs : e < s.sequence) :
    (t.appendSegment s destinations).Agree s.sequence (t'.appendSegment s destinations) :=
  ⟨h.left.appendSegment hs, h.right.appendSegment hs,
    fun k' => by rw [visible_appendSegment (h.left.get_eq_none hs),
      visible_appendSegment (h.right.get_eq_none hs), h.visible],
    h.degreeOut, h.degreeIn⟩

end

theorem inserting_agree : Inserting Agree where
  agree h := h
  mono := Agree.mono
  setDegreeOut counters h := h.setDegreeOut counters
  insertDirect mirror k h := h.insertDirect mirror k
  appendSegment s destinations h := h.appendSegment s destinations

theorem deleting_same : Deleting Same where
  agree h := h.toAgree
  mono h he := ⟨h.toAgree.mono he, h.disjoint_left, h.disjoint_right⟩
  setDegreeOut counters h := ⟨h.toAgree.setDegreeOut counters, h.disjoint_left, h.disjoint_right⟩
  hide {e k t t' t₁ t₁'} h hidden hidden' := by
    refine ⟨⟨hidden.bounded h.left, hidden'.bounded h.right, fun k' => ?_, ?_, ?_⟩,
      fun k' hd hs => ?_, fun k' hd hs => ?_⟩
    · rw [hidden.visible_iff h.left (h.disjoint_left k),
        hidden'.visible_iff h.right (h.disjoint_right k), h.visible]
    · rw [hidden.degreeOut, hidden'.degreeOut, h.degreeOut]
    · rw [hidden.degreeIn, hidden'.degreeIn, h.degreeIn]
    · exact h.disjoint_left k' (hidden.direct_iff.1 hd).2 (hidden.segVisible_imp h.left hs)
    · exact h.disjoint_right k' (hidden'.direct_iff.1 hd).2 (hidden'.segVisible_imp h.right hs)

end Topology

/-! ## Idempotency records -/

/-- The operations under which edge, relationship and vertex requests are recorded. -/
def writeOperations : List String :=
  ["create", "delete", "bulk-import", "segment-import", "relationship-create",
    "relationship-delete", "relationship-import", "vertex-delete", "isolated-vertex-delete",
    "source-cleanup-vertex-delete"]

/-- A result without the sequence that it reports for an edge that existed already. -/
def CommitResult.outcome (result : CommitResult) : CommitResult :=
  if result.alreadyExisted then ⟨0, true⟩ else result

/-- The same result up to that sequence. -/
def CommitResult.Alike (r r' : CommitResult) : Prop := r.outcome = r'.outcome

/-- A record without that sequence. -/
def IdempotencyRecord.outcome : IdempotencyRecord → IdempotencyRecord
  | .commit result cellId edge => .commit result.outcome cellId edge
  | record => record

/-- The same record up to that sequence, or none. -/
def SameRecord (r r' : Option IdempotencyRecord) : Prop :=
  r.map IdempotencyRecord.outcome = r'.map IdempotencyRecord.outcome

theorem CommitResult.Alike.alreadyExisted_eq {r : CommitResult} (h : r.Alike r') :
    r.alreadyExisted = r'.alreadyExisted := by
  obtain ⟨epoch, _ | _⟩ := r <;> obtain ⟨epoch', _ | _⟩ := r' <;> first | rfl | cases h

/-- Records with the same outcome are equal, or report the insert of the same edge with the same
outcome. -/
theorem IdempotencyRecord.outcome_eq {r' : IdempotencyRecord} (h : r.outcome = r'.outcome) :
    r = r' ∨ ∃ result result' cellId edge, r = .commit result cellId edge ∧
      r' = .commit result' cellId edge ∧ result.Alike result' := by
  cases r with
  | commit result cellId edge =>
    cases r' with
    | commit result' =>
      injection h with hresult hcell hedge
      subst hcell hedge
      exact .inr ⟨result, result', cellId, edge, rfl, rfl, hresult⟩
    | _ => cases h
  | _ => cases r' <;> first | exact .inl h | cases h

/-! ## Cells -/

/-- The same cell, up to its edges: their tables are related by `T`. -/
structure Alike (T : TopologyRel) (e : StorageSequence) (c c' : Cell) : Prop where
  topology : T e c.topology c'.topology
  changelog : c.changelog = c'.changelog
  vertices : c.vertices = c'.vertices
  edgeMetadata : c.edgeMetadata = c'.edgeMetadata
  relationships : c.relationships = c'.relationships
  idempotency : ∀ operation ∈ writeOperations, ∀ key,
    SameRecord (c.idempotency.get ⟨operation, key⟩) (c'.idempotency.get ⟨operation, key⟩)
  dropped : c.dropped = c'.dropped
  dropPending : c.dropPending = c'.dropPending

/-- Outcomes of a transaction on two cells: both unchanged or both committed to cells that are
alike, with related results. -/
def Outcome.Alike {α : Type} (T : TopologyRel)
    (e : StorageSequence) (R : α → α → Prop) : Outcome α → Outcome α → Prop
  | .unchanged a, .unchanged a' => R a a'
  | .commit c a, .commit c' a' => HydraDb.Alike T e c c' ∧ R a a'
  | _, _ => False

namespace Alike

variable {T : TopologyRel} {e e' : StorageSequence}
  {c c' : Cell} {k : EdgeKey}

variable (h : Alike T e c c')

include h

theorem setTopology (ht : U e' t t') :
    Alike U e' { c with topology := t } { c' with topology := t' } := { h with topology := ht }

/-- Alike for another relation that holds between the same topologies. -/
theorem change (ht : U e' c.topology c'.topology) : Alike U e' c c' :=
  { h with topology := ht }

theorem mono (hT : Topology.Counting T) (he : e ≤ e') : Alike T e' c c' :=
  h.change (hT.mono h.topology he)

theorem setVertices {vertices : VertexStore} (hvertices : vertices = vertices') :
    Alike T e (c.setVertices vertices) (c'.setVertices vertices') :=
  { h with vertices := hvertices }

theorem setEdgeMetadata (edgeMetadata : EdgeMetadataStore) :
    Alike T e (c.setEdgeMetadata edgeMetadata) (c'.setEdgeMetadata edgeMetadata) :=
  { h with edgeMetadata := rfl }

theorem setRelationships {relationships : RelationshipStore}
    (hrelationships : relationships = relationships') :
    Alike T e (c.setRelationships relationships) (c'.setRelationships relationships') :=
  { h with relationships := hrelationships }

theorem setDegreeOut (hT : Topology.Counting T) (hcounters : counters = counters') :
    Alike T e (c.setDegreeOut counters) (c'.setDegreeOut counters') :=
  hcounters ▸ h.setTopology (hT.setDegreeOut counters h.topology)

theorem markTopologyChange (env : WriteEnv) (cellId : CellId)
    (edgeType : EdgeType) (epoch : StorageSequence) (changes : List (VertexId × VertexId × Bool)) :
    Alike T e (c.markTopologyChange env cellId edgeType epoch changes)
      (c'.markTopologyChange env cellId edgeType epoch changes) :=
  { h with changelog := by rw [Cell.markTopologyChange, Cell.markTopologyChange, h.changelog] }

theorem insertDirect (hT : Topology.Inserting T) (mirror : Bool)
    (k : EdgeKey) : Alike T e (c.insertDirect mirror k) (c'.insertDirect mirror k) :=
  h.setTopology (hT.insertDirect mirror k h.topology)

theorem putIdempotency (operation key : String) (hr : r.outcome = r'.outcome) :
    Alike T e (c.putIdempotency operation key r) (c'.putIdempotency operation key r') :=
  { h with
    idempotency := fun operation' ho key' => by
      rw [Cell.putIdempotency, Cell.putIdempotency, get_put, get_put]
      split
      · exact congrArg some hr
      · exact h.idempotency operation' ho key' }

theorem validateWriteFence_eq :
    c.validateWriteFence cellId operation = c'.validateWriteFence cellId operation := by
  rw [Cell.validateWriteFence, Cell.validateWriteFence, h.dropped, h.dropPending]

theorem degreeOut_eq (hT : Topology.Counting T) :
    c.topology.degreeOut = c'.topology.degreeOut := (hT.agree h.topology).degreeOut

/-- The record of a write is read the same from both, up to its sequence. -/
theorem get_idempotency (operation : String)
    (ho : operation ∈ writeOperations) (key : String) : (c.idempotency.get ⟨operation, key⟩ = none ∧
      c'.idempotency.get ⟨operation, key⟩ = none) ∨
    ∃ r r', c.idempotency.get ⟨operation, key⟩ = some r ∧
      c'.idempotency.get ⟨operation, key⟩ = some r' ∧ r.outcome = r'.outcome := by
  have hsame := h.idempotency operation ho key
  cases hr : c.idempotency.get ⟨operation, key⟩ with
  | none =>
    rw [hr] at hsame
    exact .inl ⟨rfl, Option.map_eq_none_iff.1 hsame.symm⟩
  | some r =>
    rw [hr] at hsame
    obtain ⟨r', hr', houtcome⟩ := Option.map_eq_some_iff.1 hsame.symm
    exact .inr ⟨r, r', rfl, hr', houtcome.symm⟩

/-- A recorded result is answered by both, and otherwise the bodies run. -/
theorem replayOr_of_fresh (ho : operation ∈ writeOperations)
    (hdecode : ∀ text r r', IdempotencyRecord.outcome r = r'.outcome →
      Except.Lockstep R (decode text r) (decode text r'))
    (hbody : c.idempotency.get ⟨operation, key⟩ = none →
      Except.Lockstep (Outcome.Alike U n R) body body') :
    Except.Lockstep (Outcome.Alike U n R) (c.replayOr cellId operation key decode body)
      (c'.replayOr cellId operation key decode body') := by
  unfold Cell.replayOr
  rcases h.get_idempotency operation ho key with ⟨hr, hr'⟩ | ⟨r, r', hr, hr', houtcome⟩
  · rw [hr, hr']
    exact hbody hr
  · rw [hr, hr']
    exact (hdecode _ r r' houtcome).bind fun a a' ha => ha

theorem replayOr (ho : operation ∈ writeOperations)
    (hdecode : ∀ text r r', IdempotencyRecord.outcome r = r'.outcome →
      Except.Lockstep R (decode text r) (decode text r'))
    (hbody : Except.Lockstep (Outcome.Alike U n R) body body') :
    Except.Lockstep (Outcome.Alike U n R) (c.replayOr cellId operation key decode body)
      (c'.replayOr cellId operation key decode body') :=
  h.replayOr_of_fresh ho hdecode fun _ => hbody

theorem commitTxn
    (ha : R a a') : Except.Lockstep (Outcome.Alike T e R) (commitTxn n c a) (commitTxn n c' a') :=
  .seq <| ⟨h, ha⟩

theorem commitTxnIf (ha : R a a') :
    Except.Lockstep (Outcome.Alike T e R) (commitTxnIf wrote n c a)
      (commitTxnIf wrote n c' a') := by
  refine .seq <| ?_
  cases wrote with
  | true => exact ⟨h, ha⟩
  | false => exact ha

end Alike

/-! ### Decoders -/

section

variable {r r' : IdempotencyRecord}

theorem lockstep_decodeCommitIdempotency (h : r.outcome = r'.outcome) :
    Except.Lockstep CommitResult.Alike (decodeCommitIdempotency text mutation r)
      (decodeCommitIdempotency text mutation r') := by
  rcases IdempotencyRecord.outcome_eq h with rfl | ⟨result, result', cellId, edge, rfl, rfl, hr⟩
  · exact .refl (R := CommitResult.Alike) (fun _ => rfl) _
  simp only [decodeCommitIdempotency]
  by_cases hsame : cellId ≠ mutation.cellId ∨ edge ≠ mutation.edge
  · rw [if_pos hsame, if_pos hsame]
    exact .error
  · rw [if_neg hsame, if_neg hsame]
    exact .ok hr

/-- The decoder of another operation does not tell the two records apart. -/
theorem lockstep_decode (decode : IdempotencyRecord → Except GraphError α)
    (hcommit : ∀ result result' cellId edge,
      decode (.commit result cellId edge) = decode (.commit result' cellId edge))
    (h : r.outcome = r'.outcome) : Except.Lockstep (· = ·) (decode r) (decode r') := by
  rcases IdempotencyRecord.outcome_eq h with rfl | ⟨result, result', cellId, edge, rfl, rfl, -⟩
  · exact .refl (fun _ => rfl) _
  · rw [hcommit result result' cellId edge]
    exact .refl (fun _ => rfl) _

end

end HydraDb
