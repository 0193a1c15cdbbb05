import HydraDb.Query.Value

/-!
# Rows of bindings

The expressions and projections of row queries (`query/opencypher.rs`) and the rows of variable
bindings the row engine evaluates them on (`shard/query.rs`). A row binds vertices and relationships
by name, remembers the names an `OPTIONAL MATCH` left null, and carries the records it has read so
far. Matching itself is not part of the model.
-/

namespace HydraDb

/-! ## Syntax -/

inductive RowExpression where
  | nodeId (binding : String)
  | property (binding property : String)
  | literal (value : VertexPropertyValue)
  | null
  deriving DecidableEq

inductive RowAggregateFunction where
  | count
  | sum
  | avg
  | collect
  deriving DecidableEq

inductive RowProjection where
  | nodeId (binding : String)
  | property (binding property : String)
  | countAll
  | aggregate (function : RowAggregateFunction) (expression : RowExpression)
  | literal (value : Option VertexPropertyValue)
  deriving DecidableEq

inductive RowSortExpression where
  | nodeId (binding : String)
  | property (binding property : String)
  | column (name : String)
  | countAll
  deriving DecidableEq

structure RowSort where
  expression : RowSortExpression
  ascending : Bool
  deriving DecidableEq

/-! ## Bound relationships -/

structure BoundRelationship where
  edgeType : EdgeType
  src : VertexId
  dst : VertexId
  relationshipId : Option RelationshipId

/-- The derived order of `BoundRelationship`. -/
def BoundRelationship.code (relationship : BoundRelationship) : List Nat :=
  PrefixFree.string relationship.edgeType ++ ([relationship.src.toNat] ++
    ([relationship.dst.toNat] ++
      PrefixFree.list (fun id : RelationshipId => [id.toNat]) relationship.relationshipId.toList))

theorem BoundRelationship.code_prefixFree : PrefixFree BoundRelationship.code := by
  rintro ⟨edgeType, src, dst, id⟩ ⟨edgeType', src', dst', id'⟩ r s h
  simp only [code, List.append_assoc] at h
  obtain ⟨rfl, h₁⟩ := PrefixFree.string_prefixFree h
  obtain ⟨rfl, h₂⟩ := PrefixFree.uint64 h₁
  obtain ⟨rfl, h₃⟩ := PrefixFree.uint64 h₂
  obtain ⟨hid, h₄⟩ := PrefixFree.list_prefixFree PrefixFree.uint64 h₃
  obtain rfl : id = id' := by
    cases id <;> cases id' <;> simp_all
  exact ⟨rfl, h₄⟩

instance : LinearOrder BoundRelationship :=
  LinearOrder.lift' BoundRelationship.code BoundRelationship.code_prefixFree.injective

/-! ## Binding rows -/

structure BindingRow where
  values : OrdMap String VertexId
  nullValues : OrdMap String Unit
  relationships : OrdMap String BoundRelationship
  nullRelationships : OrdMap String Unit
  relationshipMetadata : OrdMap BoundRelationship EdgeMetadata
  metadata : OrdMap String VertexMetadata
  deriving DecidableEq

instance : EmptyCollection BindingRow := ⟨⟨∅, ∅, ∅, ∅, ∅, ∅⟩⟩

namespace BindingRow

/-- `BindingRow::get`. -/
def get (row : BindingRow) (binding : String) : Except GraphError VertexId :=
  if row.nullValues.contains binding then
    .error (unsupported .other s!"variable {binding} is null")
  else
    match row.values.get binding with
    | some value => .ok value
    | none => .error (unsupported .other s!"unbound variable {binding}")

/-- `BindingRow::get_optional`. -/
def getOptional (row : BindingRow) (binding : String) : Except GraphError (Option VertexId) :=
  if row.nullValues.contains binding then .ok none
  else
    match row.values.get binding with
    | some value => .ok (some value)
    | none => .error (unsupported .other s!"unbound variable {binding}")

end BindingRow

/-! ## Expressions -/

/-- `binding_property`. -/
def bindingProperty (row : BindingRow) (binding property : String) :
    Except GraphError (Option VertexPropertyValue) :=
  if row.nullValues.contains binding || row.nullRelationships.contains binding then .ok none
  else if row.values.contains binding && property == "id" then do
    let value ← row.get binding
    return some (.integer value)
  else
    match row.relationships.get binding with
    | some relationship =>
      if property == "id" then
        .error (unsupported .other "relationship id properties are not executable in Query engine")
      else
        match row.relationshipMetadata.get relationship with
        | none =>
          .error (unsupported .other s!"metadata for relationship {binding} was not hydrated")
        | some metadata => .ok (metadata.properties.get property)
    | none =>
      match row.metadata.get binding with
      | none =>
        .error (unsupported .other s!"metadata for bound variable {binding} was not hydrated")
      | some metadata => .ok (metadata.properties.get property)

/-- `eval_row_expression`; a missing value is `none`. -/
def evalRowExpression (row : BindingRow) :
    RowExpression → Except GraphError (Option VertexPropertyValue)
  | .nodeId binding => do
    let value ← row.getOptional binding
    return value.map .integer
  | .property binding property => bindingProperty row binding property
  | .literal value => .ok (some value)
  | .null => .ok none

/-! ## Projections -/

/-- `is_aggregate_projection`. -/
def isAggregateProjection : RowProjection → Bool
  | .countAll | .aggregate _ _ => true
  | _ => false

/-- A constant column, a null if the literal is `NULL`. -/
def literalValue (value : Option VertexPropertyValue) : QueryValue :=
  match value with
  | some value => .property value
  | none => .null

/-- `project_single_binding_value`. -/
def projectSingleBindingValue (row : BindingRow) : RowProjection → Except GraphError QueryValue
  | .nodeId binding => do
    match ← row.getOptional binding with
    | some value => return .vertexId value
    | none => return .null
  | .property binding property => do
    match ← bindingProperty row binding property with
    | some value => return .property value
    | none => return .null
  | .literal value => .ok (literalValue value)
  | .countAll | .aggregate _ _ =>
    .error (unsupported .other "aggregate projection cannot be used as a group key")

/-- `expression_query_value`. -/
def expressionQueryValue (row : BindingRow) : RowExpression → Except GraphError (Option QueryValue)
  | .nodeId binding => do
    let value ← row.getOptional binding
    return value.map .vertexId
  | .property binding property => do
    let value ← bindingProperty row binding property
    return value.map .property
  | .literal value => .ok (some (.property value))
  | .null => .ok none

end HydraDb
