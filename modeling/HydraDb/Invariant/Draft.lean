import HydraDb.Write.Relationship
import Mathlib.Logic.Relation

/-!
# Drafts

What a transaction can do to a cell, said once. A transaction changes its cell write by write, and
between two writes the cell need not be consistent: a batch inserts its edges first and adds to the
degree counters after its loop. A `Draft` is the cell in the middle of a transaction with a
`Ledger` of what is still owed: degrees not yet counted, relationships not yet counted, vertices
that have an edge and no record. A `Step` is one write, or one group of writes that belong
together, with the condition under which the code makes it, and it enters in the ledger what it
leaves to be done.

Every transaction body is shown to be a sequence of steps that ends with nothing owed
(`Committed`), and every invariant of a cell is shown to be kept by a step. No invariant is proved
over a transaction body.

Some invariants hold only of callers that keep a contract. A `Regime` says which contracts are
kept; a step asks for a condition that depends on a contract only when the regime has it.
-/

namespace HydraDb

/-- The index policy of a run, and which contracts are kept: `trusted`, an import that trusts its
caller is given only edges that do not exist; `canonical`, property values are in the form the
value parser produces; `uncapped`, no pass of garbage collection stops at its cap, so that the
changelog reaches back to every preparation that it is asked about. -/
structure Regime where
  reverseIndex : Bool
  trusted : Bool
  canonical : Bool
  uncapped : Bool

/-- What a transaction still owes. -/
@[ext] structure Ledger where
  /-- Visible destinations of a source not yet in its out-degree. -/
  out : DegreeKey → Int
  /-- Sources of a destination not yet in its in-degree. -/
  inn : DegreeKey → Int
  /-- Vertices that may have an edge and no record. -/
  lacking : VertexId → Prop
  /-- Relationships of an edge not yet in its count. -/
  uncounted : EdgeKey → Int

namespace Ledger

/-- Nothing is owed. -/
def zero : Ledger := ⟨fun _ => 0, fun _ => 0, fun _ => False, fun _ => 0⟩

def addOut (l : Ledger) (k : DegreeKey) (n : Int) : Ledger :=
  { l with out := fun k' => l.out k' + if k' = k then n else 0 }

def addIn (l : Ledger) (k : DegreeKey) (n : Int) : Ledger :=
  { l with inn := fun k' => l.inn k' + if k' = k then n else 0 }

def addLacking (l : Ledger) (vertices : List VertexId) : Ledger :=
  { l with lacking := fun v => l.lacking v ∨ v ∈ vertices }

def addUncounted (l : Ledger) (k : EdgeKey) (n : Int) : Ledger :=
  { l with uncounted := fun k' => l.uncounted k' + if k' = k then n else 0 }

/-- The counters of an edge inserted or removed: its out-degree, and its in-degree where there is
a reverse index. -/
def addEdge (l : Ledger) (reverseIndex : Bool) (k : EdgeKey) (n : Int) : Ledger :=
  (l.addOut ⟨k.edgeType, k.src⟩ n).addIn ⟨k.edgeType, k.dst⟩ (if reverseIndex then n else 0)

theorem addIn_zero (l : Ledger) (k : DegreeKey) : l.addIn k 0 = l := by
  simp [addIn]

end Ledger

/-- A cell in the middle of a transaction. -/
structure Draft where
  cell : Cell
  ledger : Ledger

/-- `mark_topology_change_txn`, whatever the cache of low-water marks answers. -/
def Cell.logChange (c : Cell) (ensured : Bool) (edgeType : EdgeType) (epoch : StorageSequence)
    (changes : List (VertexId × VertexId × Bool)) : Cell :=
  { c with changelog := c.changelog.markTopologyChange ensured edgeType epoch changes }

/-- No live relationship is on the edge. -/
def RelationshipStore.Bare (s : RelationshipStore) (k : EdgeKey) : Prop :=
  ∀ r : RelationshipKey, r.edge = k → s.records.get r = none

/-- The edge has the vertex at one of its ends. -/
def EdgeKey.Meets (k : EdgeKey) (v : VertexId) : Prop := k.src = v ∨ k.dst = v

/-- One write of a transaction that commits at `e`; `F` holds of the vertex metadata it stores. -/
inductive Step (F : VertexMetadata → Prop) (g : Regime) (e : StorageSequence) :
    Draft → Draft → Prop where
  /-- Insert a direct edge and log it. -/
  | insertEdge {d : Draft} (k : EdgeKey) (ensured : Bool)
      (absent : g.trusted = true → ¬ d.cell.topology.Visible k) :
      Step F g e d
        ⟨(d.cell.insertDirect g.reverseIndex k).logChange ensured k.edgeType e
          [(k.src, k.dst, true)],
        (d.ledger.addEdge g.reverseIndex k 1).addLacking [k.src, k.dst]⟩
  /-- Delete a direct edge without relationships and log it. Some paths delete the reverse key
  under both policies. -/
  | removeEdge {d : Draft} (k : EdgeKey) (ensured mirror : Bool)
      (direct : d.cell.topology.Direct k) (bare : d.cell.relationships.Bare k)
      (reverse : g.reverseIndex = true → mirror = true) :
      Step F g e d
        ⟨(d.cell.removeDirect mirror k).logChange ensured k.edgeType e [(k.src, k.dst, false)],
        d.ledger.addEdge g.reverseIndex k (-1)⟩
  /-- Hide an edge without relationships that a segment shows, and log it. -/
  | hideEdge {d : Draft} (k : EdgeKey) (ensured : Bool) (hidden : ¬ d.cell.topology.Direct k)
      (shown : d.cell.topology.SegVisible k) (bare : d.cell.relationships.Bare k) :
      Step F g e d
        ⟨(d.cell.putTombstone k e).logChange ensured k.edgeType e [(k.src, k.dst, false)],
        d.ledger.addOut ⟨k.edgeType, k.src⟩ (-1)⟩
  /-- Append a segment of edges that are not visible and log them. -/
  | appendSegment {d : Draft} (s : SegmentKey) (ds : List VertexId) (ensured : Bool)
      (policy : g.reverseIndex = false) (current : s.sequence = e)
      (fresh : d.cell.topology.outSegments.get s = none) (distinct : ds.Nodup)
      (nonempty : ds ≠ [])
      (absent : ∀ dst ∈ ds, ¬ d.cell.topology.Visible ⟨s.edgeType, s.src, dst⟩) :
      Step F g e d
        ⟨(d.cell.appendSegment s ds).logChange ensured s.edgeType e
          (ds.map fun dst => (s.src, dst, true)),
        (d.ledger.addOut ⟨s.edgeType, s.src⟩ ds.length).addLacking (s.src :: ds)⟩
  /-- Rewrite segments and tombstones without changing what they show. -/
  | resegment {d : Draft} (segments : OrdMap SegmentKey (List VertexId))
      (tombstones : OrdMap EdgeKey StorageSequence)
      (bounded : Topology.Bounded
        { d.cell.topology with outSegments := segments, tombstones := tombstones } e)
      (policy : g.reverseIndex = true → ∀ s, segments.get s = none)
      (same : ∀ k, Topology.SegVisible
          { d.cell.topology with outSegments := segments, tombstones := tombstones } k ↔
        d.cell.topology.SegVisible k)
      (earlier : ∀ k τ, d.cell.topology.tombstones.get k = some τ → τ < e) :
      Step F g e d
        ⟨{ d.cell with
          topology :=
            { d.cell.topology with outSegments := segments, tombstones := tombstones } },
        d.ledger⟩
  /-- Write out-degree counters. -/
  | countOut {d : Draft} (counters : OrdMap DegreeKey Nat) (out : DegreeKey → Int)
      (owed : g.trusted = true → ∀ k, counters.count k + out k =
        d.cell.topology.degreeOut.count k + d.ledger.out k) :
      Step F g e d ⟨d.cell.setDegreeOut counters, { d.ledger with out := out }⟩
  /-- Write in-degree counters. -/
  | countIn {d : Draft} (counters : OrdMap DegreeKey Nat) (inn : DegreeKey → Int)
      (owed : g.trusted = true → ∀ k, counters.count k + inn k =
        d.cell.topology.degreeIn.count k + d.ledger.inn k) :
      Step F g e d ⟨d.cell.setDegreeIn counters, { d.ledger with inn := inn }⟩
  /-- Mark an edge type dirty without a change. -/
  | touch {d : Draft} (edgeType : EdgeType) (ensured : Bool) :
      Step F g e d ⟨d.cell.logChange ensured edgeType e [], d.ledger⟩
  /-- Write the metadata of a vertex, which creates the vertex if there is none. -/
  | putVertex {d : Draft} (v : VertexId) (next : VertexMetadata) (vertices : VertexStore)
      (form : F next)
      (written : d.cell.vertices.applyMetadataUpdate v
        ((d.cell.vertices.records.get v).getD default) next = .ok vertices) :
      Step F g e d ⟨d.cell.setVertices vertices, d.ledger⟩
  /-- Give a vertex an empty record. -/
  | ensureVertex {d : Draft} (v : VertexId) (absent : d.cell.vertices.records.get v = none) :
      Step F g e d
        ⟨d.cell.setVertices
          { d.cell.vertices with records := d.cell.vertices.records.put v default },
        d.ledger⟩
  /-- Delete the record of a vertex without edges. -/
  | deleteVertex {d : Draft} (v : VertexId) (previous : VertexMetadata)
      (present : d.cell.vertices.records.get v = some previous)
      (isolated : g.trusted = true → g.uncapped = true →
        ∀ k, k.Meets v → ¬ d.cell.topology.Visible k) :
      Step F g e d ⟨d.cell.setVertices (d.cell.vertices.deleteRecord v previous), d.ledger⟩
  /-- A vertex that has a record is not lacking. -/
  | settle {d : Draft} (lacking : VertexId → Prop)
      (owed : g.trusted = true → ∀ v, d.ledger.lacking v →
        d.cell.vertices.records.contains v = true ∨ lacking v) :
      Step F g e d ⟨d.cell, { d.ledger with lacking := lacking }⟩
  /-- Write the metadata of an edge. -/
  | putEdgeMetadata {d : Draft} (k : EdgeKey) (next : EdgeMetadata)
      (edgeMetadata : EdgeMetadataStore)
      (written : d.cell.edgeMetadata.applyUpdate k (d.cell.edgeMetadata.read k) next =
        .ok edgeMetadata) :
      Step F g e d ⟨d.cell.setEdgeMetadata edgeMetadata, d.ledger⟩
  /-- Add a relationship to a visible edge, under an id that is not in use. -/
  | insertRelationship {d : Draft} (k : RelationshipKey) (metadata : EdgeMetadata)
      (unused : d.cell.relationships.ids.get k.relationshipId = none)
      (canonical : g.canonical = true → metadata.properties.Canonical)
      (visible : d.cell.topology.Visible k.edge) :
      Step F g e d ⟨d.cell.setRelationships (d.cell.relationships.insertRelationship k metadata),
        d.ledger.addUncounted k.edge 1⟩
  /-- Replace the metadata of a relationship. -/
  | replaceRelationship {d : Draft} (k : RelationshipKey) (previous next : EdgeMetadata)
      (present : d.cell.relationships.records.get k = some previous)
      (canonical : g.canonical = true → next.properties.Canonical) :
      Step F g e d
        ⟨d.cell.setRelationships (d.cell.relationships.replaceMetadata k previous next), d.ledger⟩
  /-- Delete a relationship. -/
  | deleteRelationship {d : Draft} (record : RelationshipRecord)
      (present : d.cell.relationships.records.get record.key = some record.metadata) :
      Step F g e d ⟨d.cell.setRelationships (d.cell.relationships.deleteRecord record),
        d.ledger.addUncounted record.key.edge (-1)⟩
  /-- Write relationship counts. -/
  | countRelationships {d : Draft} (counts : OrdMap EdgeKey Nat) (uncounted : EdgeKey → Int)
      (owed : ∀ k, counts.count k + uncounted k =
        d.cell.relationships.counts.count k + d.ledger.uncounted k) :
      Step F g e d ⟨d.cell.setRelationships { d.cell.relationships with counts := counts },
        { d.ledger with uncounted := uncounted }⟩
  /-- Write the last relationship id handed out. -/
  | putLastId {d : Draft} (lastId : Option RelationshipId) :
      Step F g e d
        ⟨d.cell.setRelationships { d.cell.relationships with lastId := lastId }, d.ledger⟩
  /-- Write unique-identity pointers. -/
  | putMerges {d : Draft} (merges : OrdMap EdgePropertyKey RelationshipId) :
      Step F g e d
        ⟨d.cell.setRelationships { d.cell.relationships with merges := merges }, d.ledger⟩
  /-- Record the result of a request. -/
  | putIdempotency {d : Draft} (operation key : String) (record : IdempotencyRecord) :
      Step F g e d ⟨d.cell.putIdempotency operation key record, d.ledger⟩

/-- The writes of a transaction up to some point. -/
abbrev Steps (F : VertexMetadata → Prop) (g : Regime) (e : StorageSequence) :
    Draft → Draft → Prop :=
  Relation.ReflTransGen (Step F g e)

/-- A transaction that commits at `e` can turn `c` into `c'`. -/
def Committed (F : VertexMetadata → Prop) (g : Regime) (e : StorageSequence) (c c' : Cell) : Prop :=
  Steps F g e ⟨c, .zero⟩ ⟨c', .zero⟩

/-- The invariant rule for the steps of a transaction. -/
theorem Steps.invariant {P : Draft → Prop} (h : Steps F g e d d') (init : P d)
    (step : ∀ {d d' : Draft}, Step F g e d d' → P d → P d') : P d' := by
  induction h with
  | refl => exact init
  | tail _ hs ih => exact step hs ih

end HydraDb
