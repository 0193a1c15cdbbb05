import HydraDb.Store.Records
import Mathlib.Data.List.Sort

/-!
# Merge rows

The rows of a batched merge (`shard/write.rs`): how rows for one relationship fold into one before
the transaction, and how a row that carries an update guard is applied to the properties already
there. A guarded row lands only when its guard property is newer than the stored one; create-only
properties never override stored ones.
-/

namespace HydraDb

/-! ## Guards -/

/-- `guard_ordering`: guards of the same ordered scalar type compare, others are an error. A float
compares as `f64::total_cmp` does, which is the order of its sortable bits. -/
def guardOrdering (previous requested : VertexPropertyValue) (policy : QueryBatchMergePolicy)
    (key : String) : Except GraphError Ordering :=
  match previous, requested with
  | .integer left, .integer right => .ok (compare left right)
  | .signedInteger left, .signedInteger right => .ok (compare left right)
  | .float left, .float right => .ok (compare (sortableFloatBits left) (sortableFloatBits right))
  | .string left, .string right => .ok (compare left right)
  | _, _ => .error (.corruptValue key
      ("guarded merge property " ++ policy.updateIfNewerBy ++
        " must have matching ordered scalar types"))

/-- `guarded_metadata_patch`: the properties of a row that land on `previous`, or `none` when its
guard is not newer. -/
def guardedMetadataPatch (previous requested : Properties) (policy : QueryBatchMergePolicy)
    (key : String) : Except GraphError (Option Properties) := do
  policy.validate
  match requested.get policy.updateIfNewerBy with
  | none => .error (.unsupportedQuery "QueryBatch"
      ("guarded merge is missing incoming property " ++ policy.updateIfNewerBy) .mutation)
  | some requestedGuard =>
    let patch := requested.delAll policy.createOnlyProperties.keys
    match previous.get policy.updateIfNewerBy with
    | none => return some patch
    | some previousGuard => do
      let ordering ← guardOrdering previousGuard requestedGuard policy key
      return if ordering = .lt then some patch else none

/-- Set the properties of a row that are not create-only. -/
def setUpdatable (policy : QueryBatchMergePolicy) (properties row : Properties) : Properties :=
  properties.putAll (row.entries.filter fun e => !policy.createOnlyProperties.contains e.1)

/-! ## Relationship rows -/

/-- `validate_relationship_batch_entry`. -/
def validateRelationshipBatchEntry (cellId : CellId) (edgeType : EdgeType)
    (row : RelationshipMutation) : Except GraphError Unit := do
  validateComponent "cell_id" row.cellId
  validateComponent "edge_type" row.edgeType
  validateEdgeMetadata row.metadata
  if row.cellId ≠ cellId then
    .error (.corruptValue ("cell/" ++ cellId ++ "/relationship_import")
      ("batch contains relationship for different cell " ++ row.cellId))
  else if row.edgeType ≠ edgeType then
    .error (.corruptValue ("cell/" ++ cellId ++ "/relationship_import/" ++ edgeType)
      ("batch contains relationship for different edge type " ++ row.edgeType))
  else .ok ()

/-- The order in which the rows of an import are written. -/
def RelationshipMutation.sortKey (row : RelationshipMutation) :
    RelationshipId ×ₗ VertexId ×ₗ VertexId ×ₗ EdgeType :=
  toLex (row.relationshipId, toLex (row.src, toLex (row.dst, row.edgeType)))

/-- `sort_by_key` on the rows of an import, which keeps the order of rows with equal keys. -/
def sortRows (rows : List RelationshipMutation) : List RelationshipMutation :=
  rows.insertionSort fun a b => a.sortKey ≤ b.sortKey

/-- `mixed_guarded_relationship_rows`: the relationships whose rows do not all set the same
properties, with their rows in order. -/
def mixedGuardedRelationshipRows (rows : List RelationshipMutation)
    (policy : Option QueryBatchMergePolicy) (limit : Nat) :
    Except GraphError (OrdMap RelationshipId (List EdgeMetadata)) :=
  match policy with
  | none => return ∅
  | some _ => do
    let (_, mixed) ← rows.foldlM
      (fun (acc : OrdMap RelationshipId EdgeMetadata × OrdMap RelationshipId Unit) row =>
        match acc.1.get row.relationshipId with
        | some shape =>
          if shape.properties.keys ≠ row.metadata.properties.keys then do
            ensureLimit "import_relationships_batch" rows.length limit
            return (acc.1, acc.2.put row.relationshipId ())
          else return acc
        | none => do
          let first := acc.1.put row.relationshipId row.metadata
          ensureLimit "import_relationships_batch" first.entries.length limit
          return (first, acc.2)) (∅, ∅)
    return rows.foldl (fun groups row =>
      if mixed.contains row.relationshipId then
        groups.put row.relationshipId (((groups.get row.relationshipId).getD []) ++ [row.metadata])
      else groups) ∅

/-- One row of `apply_guarded_relationship_rows`. -/
def applyGuardedRelationshipRow (policy : QueryBatchMergePolicy) (externalId : RelationshipId)
    (key : String) (current : Option EdgeMetadata) (patch : EdgeMetadata) :
    Except GraphError (Option EdgeMetadata) :=
  if patch.properties.get relationshipIdentityProperty ≠ some (.integer externalId) then
    .error (.corruptValue key
      "relationship MERGE row identity metadata does not match the parsed id")
  else
    match current with
    | none => return some patch
    | some existing =>
      if existing = patch then return some existing
      else do
        match ← guardedMetadataPatch existing.properties patch.properties policy key with
        | some properties => return some ⟨Properties.extend existing.properties properties⟩
        | none => return some existing

/-- `apply_guarded_relationship_rows`: the rows of one relationship applied in order. -/
def applyGuardedRelationshipRows (previous : Option EdgeMetadata) (patches : List EdgeMetadata)
    (policy : QueryBatchMergePolicy) (externalId : RelationshipId) (key : String) :
    Except GraphError EdgeMetadata := do
  let current ← patches.foldlM (applyGuardedRelationshipRow policy externalId key) previous
  return current.getD default

/-- The error of two rows for one relationship id that do not fold. -/
def relationshipRowConflict (relationshipId : RelationshipId) (reason : String) : GraphError :=
  .idempotencyConflict "relationship-import" (padded20 relationshipId.toNat) reason

/-- Fold a row into the row kept for its relationship id. `fold` is `none` for an import that never
updates properties, `some none` for an unguarded merge and `some (some policy)` for a guarded
one. -/
def foldRelationshipRow (cellId : CellId) (fold : Option (Option QueryBatchMergePolicy))
    (kept row : RelationshipMutation) : Except GraphError RelationshipMutation :=
  match fold with
  | none => .error (relationshipRowConflict row.relationshipId
      ("the batch carries this relationship id twice with different " ++
        "endpoints or properties (key shown is the relationship id)"))
  | some mergePolicy =>
    if (kept.cellId, kept.edgeType, kept.src, kept.dst) ≠
        (row.cellId, row.edgeType, row.src, row.dst) then
      .error (relationshipRowConflict row.relationshipId
        ("the batch binds this relationship id to two different edges " ++
          "(key shown is the relationship id)"))
    else
      match mergePolicy with
      | none =>
        return { kept with
          metadata := ⟨Properties.extend kept.metadata.properties row.metadata.properties⟩ }
      | some policy =>
        match kept.metadata.properties.get policy.updateIfNewerBy,
          row.metadata.properties.get policy.updateIfNewerBy with
        | some keptGuard, some requestedGuard => do
          let ordering ← guardOrdering keptGuard requestedGuard policy
            (relationshipIdKeyText cellId row.relationshipId)
          return if ordering = .lt then
              { kept with
                metadata :=
                  ⟨setUpdatable policy kept.metadata.properties row.metadata.properties⟩ }
            else kept
        | _, _ => .error (relationshipRowConflict row.relationshipId
            ("the batch carries this relationship id twice without its update guard " ++
              "(key shown is the relationship id)"))

/-- `coalesce_relationship_imports`: one row a relationship id. -/
def coalesceRelationshipImports (cellId : CellId) (edgeType : EdgeType)
    (rows : List RelationshipMutation) (fold : Option (Option QueryBatchMergePolicy)) :
    Except GraphError (List RelationshipMutation) := do
  let byId ← rows.foldlM (fun (byId : OrdMap RelationshipId RelationshipMutation) row => do
    validateRelationshipBatchEntry cellId edgeType row
    match byId.get row.relationshipId with
    | none => return byId.put row.relationshipId row
    | some kept =>
      if kept = row then return byId
      else do
        let folded ← foldRelationshipRow cellId fold kept row
        return byId.put row.relationshipId folded) ∅
  return byId.entries.map Prod.snd

end HydraDb
