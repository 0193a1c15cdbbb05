import Mathlib.Data.String.Basic
import HydraDb.Lib.Binary64
import HydraDb.Lib.KeyedMerge
import HydraDb.Lib.Loop
import HydraDb.Lib.StableSort

/-!
# Resolved scopes and how they are merged

An importer reads a snapshot of graph dumps, resolves every dump on its own into one fragment for
each scope (tenant and sub-tenant) it touches, and merges the fragments (`mergeScopes`). Vertices
that two fragments resolve to one id, and relationships that resolve to one variant id, are folded
together: the more recent of two records wins and the other fills its gaps (`mergeVertex`,
`mergeRelationship`). Orphan edges and anomalies are reports; they are collected and sorted. At the
end the relationships of a scope get their ids (`canonicalizeRelationshipIds`).

Identifiers and counters are natural numbers, and a 64-bit float is its bits.
-/

namespace HydraDb.Import

/-- A property value of a dump. The entries of a map are in key order. -/
inductive PropertyValue where
  | null
  | bool (value : Bool)
  | integer (value : Int)
  | float (value : UInt64)
  | string (value : String)
  | array (values : List PropertyValue)
  | point (latitude longitude : UInt64)
  | vectorF32 (values : List UInt32)
  | dateTime (value : Int)
  | date (value : Int)
  | time (value : Int)
  | duration (value : Int)
  | map (entries : List (String × PropertyValue))

abbrev Properties := OrdMap String PropertyValue

/-- A scope: a tenant and one of its sub-tenants. -/
structure Scope where
  tenantId : String
  subTenantId : String
  deriving DecidableEq

/-- Scopes are ordered by tenant, then by sub-tenant. -/
instance : LinearOrder Scope :=
  LinearOrder.lift' (fun s => toLex (s.tenantId, s.subTenantId)) fun a b h => by
    cases a; cases b; simpa using h

/-- The object of the dump a record comes from. -/
structure SourceObject where
  graph : String
  falkorId : Nat
  deriving DecidableEq

/-- Source objects are ordered by graph, then by the id there. -/
instance : LinearOrder SourceObject :=
  LinearOrder.lift' (fun s => toLex (s.graph, s.falkorId)) fun a b h => by
    cases a; cases b; simpa using h

structure ResolvedVertex where
  id : Nat
  labels : OrdMap String Unit
  properties : Properties
  sources : List SourceObject

structure ResolvedRelationship where
  id : Nat
  logicalId : Nat
  variantId : Nat
  edgeType : String
  src : Nat
  dst : Nat
  properties : Properties
  sources : List SourceObject

structure OrphanEdge where
  source : SourceObject
  properties : Properties

inductive RelationshipAnomalyDisposition where
  | importedWithoutEdgeRecord
  | importedWithoutAdjacencyPair
  | importedWithFallbackIdentity
  | importedWithDisambiguatedIdentity
  | quarantinedCrossScope
  | quarantinedMissingEndpoint
  deriving DecidableEq

/-- The place of a disposition in the order of its declaration. -/
def RelationshipAnomalyDisposition.rank : RelationshipAnomalyDisposition → Nat
  | .importedWithoutEdgeRecord => 0
  | .importedWithoutAdjacencyPair => 1
  | .importedWithFallbackIdentity => 2
  | .importedWithDisambiguatedIdentity => 3
  | .quarantinedCrossScope => 4
  | .quarantinedMissingEndpoint => 5

structure RelationshipAnomaly where
  source : SourceObject
  edgeType : String
  srcFalkorId : Nat
  dstFalkorId : Nat
  disposition : RelationshipAnomalyDisposition
  properties : Properties

structure ResolutionDiagnostics where
  mergedVertices : Nat := 0
  mergedRelationships : Nat := 0
  inheritedScopes : Nat := 0
  graphKeyScopes : Nat := 0
  reusedEdgeIdRelationships : Nat := 0
  relationshipAnomalies : Nat := 0
  deriving DecidableEq

/-- What is resolved of one scope: a fragment of it from one dump, or all of it. -/
@[ext]
structure ResolvedScope where
  scope : Scope
  vertices : OrdMap Nat ResolvedVertex
  relationships : OrdMap Nat ResolvedRelationship
  orphanEdges : List OrphanEdge
  relationshipAnomalies : List RelationshipAnomaly
  diagnostics : ResolutionDiagnostics

/-- The scope a merge starts from. -/
def ResolvedScope.empty (scope : Scope) : ResolvedScope where
  scope := scope
  vertices := ∅
  relationships := ∅
  orphanEdges := []
  relationshipAnomalies := []
  diagnostics := {}

/-- The error a merge raises. -/
inductive ResolveError where
  | scope (scope : Scope) (message : String)
  deriving DecidableEq

/-! ## Which of two records is more recent -/

/-- The digits of a number, with zeros in front up to the width. -/
def padded (width : Nat) (digits : String) : String :=
  String.ofList (List.replicate (width - digits.length) '0') ++ digits

/-- A signed integer with its sign and zeros, 20 characters wide. -/
def formatInteger (value : Int) : String :=
  (if value < 0 then "-" else "+") ++ padded 19 (toString value.natAbs)

/-- A float with its sign, zeros and nine decimals, 30 characters wide. A value that is no number
has no sign. -/
def formatFloat (bits : UInt64) : String :=
  if Binary64.isNan bits then padded 30 "NaN"
  else
    let sign := if Binary64.negative bits then "-" else "+"
    if Binary64.exponent bits = 2047 then sign ++ padded 29 "inf"
    else
      let scaled := Binary64.roundEven (Binary64.magnitude bits * 10 ^ 9) (2 ^ 1074)
      sign ++ padded 29 (toString (scaled / 10 ^ 9) ++ "." ++ padded 9 (toString (scaled % 10 ^ 9)))

/-- The text by which a time stamp is compared. -/
def sortableProperty : Option PropertyValue → String
  | some (.string value) => value
  | some (.integer value) => formatInteger value
  | some (.float value) => formatFloat value
  | _ => ""

/-- How recent a record is: when it was updated, then when it was created. -/
def recency (properties : Properties) : Lex (String × String) :=
  toLex (sortableProperty (properties.get "updated_at"),
    sortableProperty (properties.get "created_at"))

/-! ## Merging two records -/

/-- Whether a property is missing or null. -/
def isGap : Option PropertyValue → Bool
  | none | some .null => true
  | _ => false

/-- The properties of the newer record, with its gaps filled by the older one. -/
def fillGaps (newer older : Properties) : Properties :=
  older.entries.foldl (fun properties entry =>
    if isGap (properties.get entry.1) && !isGap (some entry.2) then
      properties.put entry.1 entry.2
    else properties) newer

/-- Folds a vertex into the one resolved before: the more recent of the two wins, the one that was
there if neither is more recent. -/
def mergeVertex (existing candidate : ResolvedVertex) : ResolvedVertex :=
  let candidateNewer := recency existing.properties < recency candidate.properties
  let newer := if candidateNewer then candidate else existing
  let older := if candidateNewer then existing else candidate
  { existing with
    labels := (existing.labels.addAll newer.labels.keys).addAll older.labels.keys
    properties := fillGaps newer.properties older.properties
    sources := OrdMap.sortDedup (existing.sources ++ newer.sources ++ older.sources) }

/-- Folds a relationship into the one of the same variant resolved before. -/
def mergeRelationship (existing candidate : ResolvedRelationship) : ResolvedRelationship :=
  let candidateNewer := recency existing.properties < recency candidate.properties
  let newer := if candidateNewer then candidate else existing
  let older := if candidateNewer then existing else candidate
  { existing with
    properties := fillGaps newer.properties older.properties
    sources := OrdMap.sortDedup (existing.sources ++ newer.sources ++ older.sources) }

/-! ## Merging fragments -/

/-- Adds a vertex of a fragment to the scope. -/
def addVertex (output : ResolvedScope) (entry : Nat × ResolvedVertex) : ResolvedScope :=
  match output.vertices.get entry.1 with
  | some existing =>
    { output with
      vertices := output.vertices.put entry.1 (mergeVertex existing entry.2)
      diagnostics :=
        { output.diagnostics with mergedVertices := output.diagnostics.mergedVertices + 1 } }
  | none => { output with vertices := output.vertices.put entry.1 entry.2 }

/-- Adds a relationship of a fragment to the scope, under its variant id. -/
def addRelationship (output : ResolvedScope) (candidate : ResolvedRelationship) :
    Except ResolveError ResolvedScope :=
  let variantId := candidate.variantId
  match output.relationships.get variantId with
  | some existing =>
    if existing.edgeType = candidate.edgeType ∧ existing.src = candidate.src ∧
        existing.dst = candidate.dst then
      .ok { output with
        relationships := output.relationships.put variantId (mergeRelationship existing candidate)
        diagnostics :=
          { output.diagnostics with
            mergedRelationships := output.diagnostics.mergedRelationships + 1 } }
    else
      .error (.scope output.scope
        (s!"relationship variant id {variantId} conflicts between {existing.edgeType} " ++
          s!"{existing.src} -> {existing.dst} and {candidate.edgeType} {candidate.src} -> " ++
          s!"{candidate.dst}"))
  | none => .ok { output with relationships := output.relationships.put variantId candidate }

/-- The relationships of a fragment, in the order of their ids. -/
def ResolvedScope.relationshipValues (fragment : ResolvedScope) : List ResolvedRelationship :=
  fragment.relationships.values

/-- Adds the reports of a fragment to the scope. What the fragment itself had merged is not
counted. -/
def addReports (output input : ResolvedScope) : ResolvedScope :=
  { output with
    orphanEdges := output.orphanEdges ++ input.orphanEdges
    relationshipAnomalies := output.relationshipAnomalies ++ input.relationshipAnomalies
    diagnostics :=
      { output.diagnostics with
        inheritedScopes := output.diagnostics.inheritedScopes + input.diagnostics.inheritedScopes
        graphKeyScopes := output.diagnostics.graphKeyScopes + input.diagnostics.graphKeyScopes
        reusedEdgeIdRelationships := output.diagnostics.reusedEdgeIdRelationships +
          input.diagnostics.reusedEdgeIdRelationships
        relationshipAnomalies := output.diagnostics.relationshipAnomalies +
          input.diagnostics.relationshipAnomalies } }

/-- Merges a fragment into its scope. -/
def mergeFragment (output input : ResolvedScope) : Except ResolveError ResolvedScope := do
  let output := input.vertices.entries.foldl addVertex output
  let output ← input.relationshipValues.foldlM addRelationship output
  return addReports output input

/-! ## Finishing a scope -/

/-- A u64 read as an i64. -/
def asI64 (n : Nat) : Int := if n < 2 ^ 63 then n else n - 2 ^ 64

/-- The relationship under its final id. -/
def ResolvedRelationship.withId (relationship : ResolvedRelationship) (id : Nat) :
    ResolvedRelationship :=
  { relationship with
    id := id, properties := relationship.properties.put "id" (.integer (asI64 id)) }

/-- Collects the relationships of each logical id. -/
def byLogicalId (relationships : List ResolvedRelationship) :
    OrdMap Nat (List ResolvedRelationship) :=
  relationships.foldl (fun groups relationship =>
    groups.put relationship.logicalId
      ((groups.get relationship.logicalId).getD [] ++ [relationship])) ∅

/-- The variants of one logical id: the first takes the logical id, the others keep their own. -/
def assignIds (logicalId : Nat) (variants : List ResolvedRelationship) :
    List ResolvedRelationship :=
  (variants.sortBy (·.variantId)).zipIdx.map fun entry =>
    entry.1.withId (if entry.2 = 0 then logicalId else entry.1.variantId)

/-- Adds a relationship under its final id, which must be free. -/
def insertCanonical (scope : Scope) (relationships : OrdMap Nat ResolvedRelationship)
    (relationship : ResolvedRelationship) : Except ResolveError (OrdMap Nat ResolvedRelationship) :=
  match relationships.get relationship.id with
  | some existing =>
    .error (.scope scope
      (s!"canonical relationship id {relationship.id} collides between {existing.edgeType} " ++
        s!"{existing.src} -> {existing.dst} and another relationship"))
  | none => .ok (relationships.put relationship.id relationship)

/-- Gives the relationships of a scope their final ids. -/
def canonicalizeRelationshipIds (scope : ResolvedScope) : Except ResolveError ResolvedScope := do
  let groups := byLogicalId scope.relationshipValues
  let relationships ← (groups.entries.flatMap fun group =>
    assignIds group.1 group.2).foldlM (insertCanonical scope.scope) ∅
  return { scope with relationships := relationships }

def sortOrphanEdges (orphanEdges : List OrphanEdge) : List OrphanEdge :=
  orphanEdges.sortBy (·.source)

/-- What anomalies are sorted by: everything but their properties. -/
def RelationshipAnomaly.key (anomaly : RelationshipAnomaly) :
    SourceObject ×ₗ String ×ₗ Nat ×ₗ Nat ×ₗ Nat :=
  toLex (anomaly.source, toLex (anomaly.edgeType, toLex (anomaly.srcFalkorId,
    toLex (anomaly.dstFalkorId, anomaly.disposition.rank))))

def sortRelationshipAnomalies (anomalies : List RelationshipAnomaly) : List RelationshipAnomaly :=
  anomalies.sortBy (·.key)

def ResolvedVertex.tidySources (vertex : ResolvedVertex) : ResolvedVertex :=
  { vertex with sources := OrdMap.sortDedup vertex.sources }

def ResolvedRelationship.tidySources (relationship : ResolvedRelationship) : ResolvedRelationship :=
  { relationship with sources := OrdMap.sortDedup relationship.sources }

/-- The scope with its reports and sources in order. -/
def ResolvedScope.tidy (output : ResolvedScope) : ResolvedScope :=
  { output with
    orphanEdges := sortOrphanEdges output.orphanEdges
    relationshipAnomalies := sortRelationshipAnomalies output.relationshipAnomalies
    vertices := output.vertices.mapValues (·.tidySources)
    relationships := output.relationships.mapValues (·.tidySources) }

/-- Finishes a scope once all its fragments are in. -/
def finishScope (output : ResolvedScope) : Except ResolveError ResolvedScope :=
  canonicalizeRelationshipIds output.tidy

/-- Merges a fragment into the scopes collected so far. -/
def collectFragment (outputs : OrdMap Scope ResolvedScope) (input : ResolvedScope) :
    Except ResolveError (OrdMap Scope ResolvedScope) := do
  let output := (outputs.get input.scope).getD (.empty input.scope)
  let output ← mergeFragment output input
  return outputs.put input.scope output

/-- Merges fragments, in the order in which they are given, into one result for each scope. -/
def mergeScopes (inputs : List ResolvedScope) : Except ResolveError (List ResolvedScope) := do
  let outputs ← inputs.foldlM collectFragment ∅
  outputs.entries.mapM fun entry => finishScope entry.2

/-! ## Building the plan of a snapshot -/

/-- The error of building or loading a snapshot plan. -/
inductive SnapshotError where
  | resolve (error : ResolveError)
  | manifest (message : String)
  deriving DecidableEq

/-- The scopes of a snapshot plan. Each worker appends what it decoded of an object when it is
done with it, so the objects come in the order in which they were finished. -/
def buildSnapshotPlan (finished : List (List ResolvedScope)) :
    Except SnapshotError (List ResolvedScope) :=
  (mergeScopes finished.flatten).mapError .resolve

variable (sha256Hex : Scope → String)

/-- Loads a spilled scope: its fragments, read in file order, make up one scope, the one of the
spill. The digest of a scope stands for the scope. -/
def loadSpilledScope (scope : Scope) (fragments : List ResolvedScope) :
    Except SnapshotError ResolvedScope := do
  let merged ← (mergeScopes fragments).mapError .resolve
  match merged with
  | [resolved] =>
    if resolved.scope = scope then .ok resolved
    else .error (.manifest s!"scope spill {sha256Hex scope} contains a different scope")
  | merged =>
    .error (.manifest s!"scope spill {sha256Hex scope} resolved to {merged.length} scopes")

/-- The fragments of one scope. -/
def fragmentsOf (scope : Scope) (fragments : List ResolvedScope) : List ResolvedScope :=
  fragments.filter fun fragment => fragment.scope = scope

/-- The scopes of a spilled snapshot, each loaded from its own fragments, in the order of their
objects in the manifest. -/
def loadSpilledScopes (objects : List (List ResolvedScope)) :
    Except SnapshotError (List ResolvedScope) :=
  (OrdMap.sortDedup (objects.flatten.map (·.scope))).mapM fun scope =>
    loadSpilledScope sha256Hex scope (fragmentsOf scope objects.flatten)

end HydraDb.Import
