import HydraDb.Write.BulkImport
import HydraDb.Write.Merge
import HydraDb.Write.Relationship

/-!
# Relationship imports

The batched import of relationships (`import_relationships_batch_txn_locked`, `shard/write.rs`). It
serves three requests: a plain import under ids the caller chose, a batched `CREATE` that always
makes new relationships, and a batched `MERGE` that updates the relationships carrying the row's
identity or makes one. The transaction first settles which relationship each row means, then which
rows are new and which change a record, and writes at the end.
-/

namespace HydraDb

/-- `RelationshipImportOptions`. -/
structure RelationshipImportOptions where
  endpointLabels : Option (String × String)
  createAlways : Bool
  updateExistingMetadata : Bool
  mergePolicy : Option QueryBatchMergePolicy
  guardedRows : OrdMap RelationshipId (List EdgeMetadata)
  operation : String

/-- The relationship a row of an import names. -/
def RelationshipMutation.key (row : RelationshipMutation) : RelationshipKey :=
  ⟨row.edgeType, row.src, row.dst, row.relationshipId⟩

/-- The edge a row of an import names. -/
def RelationshipMutation.edge (row : RelationshipMutation) : EdgeKey :=
  ⟨row.edgeType, row.src, row.dst⟩

/-! ## Which relationship a row means -/

/-- Whether a vertex exists with a label. -/
def VertexStore.hasLabel (s : VertexStore) (vertex : VertexId) (label : String) : Bool :=
  match s.records.get vertex with
  | some metadata => metadata.labels.contains label
  | none => false

/-- A labelled import keeps the rows whose endpoints exist with their labels. -/
def retainMatched (s : VertexStore) (labels : Option (String × String))
    (rows : List RelationshipMutation) : List RelationshipMutation :=
  match labels with
  | none => rows
  | some (sourceLabel, destinationLabel) =>
    rows.filter fun row =>
      s.hasLabel row.src sourceLabel && s.hasLabel row.dst destinationLabel

/-- `relationship_records_for_edge_property_txn`: the relationships of an edge that the property
index lists under a value and that carry it. -/
def RelationshipStore.recordsForEdgeProperty (s : RelationshipStore) (cellId : CellId)
    (k : EdgeKey) (property : String) (value : VertexPropertyValue) :
    Except GraphError (List RelationshipRecord) :=
  let encoded := encodeVertexPropertyValueKey value
  let indexed := s.properties.scan fun p => p.edgeType = k.edgeType ∧ p.property = property ∧
    p.encoded = encoded ∧ p.src = k.src ∧ p.dst = k.dst
  indexed.foldlM (fun records e =>
    let relationshipId := e.1.relationshipId
    let r : RelationshipKey := ⟨k.edgeType, k.src, k.dst, relationshipId⟩
    match s.records.get r with
    | none => .error (.corruptValue
        (relationshipPropertyIndexText cellId k.edgeType property encoded k.src k.dst
          relationshipId)
        ("relationship property index points at missing " ++
          relationshipKeyText cellId k.edgeType k.src k.dst relationshipId))
    | some metadata =>
      return if metadata.properties.get property = some value then records ++ [⟨r, metadata⟩]
        else records) []

/-- `MergeIdentityLookup`: a row with the live relationships that carry its identity and the key of
the identity's pointer. -/
structure MergeIdentityLookup where
  row : RelationshipMutation
  existing : List RelationshipRecord
  pointerKey : EdgePropertyKey

/-- The relationship the identity pointer names, when it is live and carries the identity. -/
def RelationshipStore.pointedRecord (s : RelationshipStore) (k : EdgeKey)
    (identity : VertexPropertyValue) : Option RelationshipRecord := do
  let relationshipId ← s.merges.get (RelationshipStore.mergeKey k identity)
  let r : RelationshipKey := ⟨k.edgeType, k.src, k.dst, relationshipId⟩
  let metadata ← s.records.get r
  if metadata.properties.get relationshipIdentityProperty = some identity then
    some ⟨r, metadata⟩
  else none

/-- The identity resolution of one merge row: the pointer first, the property index when it does
not answer. -/
def RelationshipStore.lookupMergeIdentity (s : RelationshipStore) (cellId : CellId)
    (row : RelationshipMutation) : Except GraphError MergeIdentityLookup :=
  let identity := VertexPropertyValue.integer row.relationshipId
  if row.metadata.properties.get relationshipIdentityProperty ≠ some identity then
    .error (.corruptValue ("cell/" ++ cellId ++ "/relationship-merge/" ++ row.edgeType ++ "/" ++
        toString row.src ++ "/" ++ toString row.relationshipId)
      "relationship MERGE identity metadata does not match the parsed id")
  else
    let pointerKey := RelationshipStore.mergeKey row.edge identity
    match s.pointedRecord row.edge identity with
    | some record => return ⟨row, [record], pointerKey⟩
    | none => do
      let existing ← s.recordsForEdgeProperty cellId row.edge relationshipIdentityProperty identity
      return ⟨row, existing, pointerKey⟩

/-- `note_merge_pointer`: propose a relationship for an identity's pointer; a second, different
proposal leaves no pointer. -/
def noteMergePointer (updates : OrdMap EdgePropertyKey (Option RelationshipId))
    (pointerKey : EdgePropertyKey) (relationshipId : RelationshipId) :
    OrdMap EdgePropertyKey (Option RelationshipId) :=
  match updates.get pointerKey with
  | none => updates.put pointerKey (some relationshipId)
  | some (some existing) =>
    if existing = relationshipId then updates else updates.put pointerKey none
  | some none => updates.put pointerKey none

/-- The pointer proposals of the resolved rows. -/
def notePointers (lookups : List MergeIdentityLookup) :
    OrdMap EdgePropertyKey (Option RelationshipId) :=
  lookups.foldl (fun updates lookup =>
    match lookup.existing with
    | [record] => noteMergePointer updates lookup.pointerKey record.key.relationshipId
    | [] => updates
    | _ => updates.put lookup.pointerKey none) ∅

/-- The rows of an import once each names a relationship: the rows, the records read for them on
the way, and the pointer updates. -/
structure ResolvedRows where
  rows : List RelationshipMutation
  prefetched : OrdMap RelationshipId RelationshipRecord
  pointerUpdates : OrdMap EdgePropertyKey (Option RelationshipId)

/-- The metadata of a merge row on a relationship: with rows of mixed shapes, those rows applied in
order to what is stored. -/
def mergeRowMetadata (cellId : CellId) (options : RelationshipImportOptions)
    (row : RelationshipMutation) (previous : Option EdgeMetadata) (storedId : RelationshipId) :
    Except GraphError EdgeMetadata :=
  match options.guardedRows.get row.relationshipId, options.mergePolicy with
  | some patches, some policy =>
    applyGuardedRelationshipRows previous patches policy row.relationshipId
      (relationshipIdKeyText cellId storedId)
  | _, _ => return row.metadata

/-- One row of a merge: on its existing relationships, or on the next allocated id. -/
def resolveMergeRow (cellId : CellId) (options : RelationshipImportOptions)
    (acc : ResolvedRows × List RelationshipId) (lookup : MergeIdentityLookup) :
    Except GraphError (ResolvedRows × List RelationshipId) :=
  let (resolved, allocated) := acc
  let row := lookup.row
  match lookup.existing with
  | [] => do
    let metadata ← mergeRowMetadata cellId options row none row.relationshipId
    match allocated with
    | [] => .error (.corruptValue (lastRelationshipIdKeyText cellId)
        "relationship id allocation returned too few ids")
    | relationshipId :: allocated =>
      return ({ resolved with
        rows := resolved.rows ++ [{ row with relationshipId := relationshipId, metadata }]
        pointerUpdates :=
          noteMergePointer resolved.pointerUpdates lookup.pointerKey relationshipId }, allocated)
  | existing => do
    let resolved ← existing.foldlM (fun (resolved : ResolvedRows) record => do
      let metadata ← mergeRowMetadata cellId options row (some record.metadata)
        record.key.relationshipId
      return { resolved with
        rows := resolved.rows ++
          [{ row with relationshipId := record.key.relationshipId, metadata }]
        prefetched := resolved.prefetched.put record.key.relationshipId record }) resolved
    return (resolved, allocated)

/-- Settle which relationship each row means. -/
def resolveRows (s : RelationshipStore) (cellId : CellId) (options : RelationshipImportOptions)
    (rows : List RelationshipMutation) : Except GraphError ResolvedRows :=
  if options.createAlways then do
    let (allocated, _) ← s.allocateRelationshipIds cellId "CREATE" rows.length
    return ⟨(rows.zip allocated).map fun p => { p.1 with relationshipId := p.2 }, ∅, ∅⟩
  else if options.updateExistingMetadata then do
    let lookups ← rows.mapM (s.lookupMergeIdentity cellId)
    let missing := (lookups.filter fun lookup => lookup.existing.isEmpty).length
    let (allocated, _) ← s.allocateRelationshipIds cellId "MERGE" missing
    let (resolved, _) ← lookups.foldlM (resolveMergeRow cellId options)
      (⟨[], ∅, notePointers lookups⟩, allocated)
    return resolved
  else return ⟨rows, ∅, ∅⟩

/-! ## Which records exist -/

/-- The record keys to read: the target of the id pointer where there is one, which must exist, and
the row's own key otherwise. -/
def recordKeys (s : RelationshipStore) (resolved : ResolvedRows) :
    OrdMap RelationshipId (RelationshipKey × Bool) :=
  let disagreeing := resolved.prefetched.entries.foldl
    (fun (m : OrdMap RelationshipId (RelationshipKey × Bool)) e =>
      match s.ids.get e.1 with
      | some target => if target ≠ e.2.key then m.put e.1 (target, true) else m
      | none => m) ∅
  resolved.rows.foldl (fun m row =>
    if resolved.prefetched.contains row.relationshipId then m
    else
      match s.ids.get row.relationshipId with
      | some target => m.put row.relationshipId (target, true)
      | none => m.put row.relationshipId (row.key, false)) disagreeing

/-- The records of the rows, by relationship id. -/
def prefetchRecords (s : RelationshipStore) (cellId : CellId) (resolved : ResolvedRows) :
    Except GraphError (OrdMap RelationshipId RelationshipRecord) :=
  (recordKeys s resolved).entries.foldlM
    (fun (prefetched : OrdMap RelationshipId RelationshipRecord) e =>
      let (relationshipId, target, required) := e
      match s.records.get target with
      | some metadata => return prefetched.put relationshipId ⟨target, metadata⟩
      | none =>
        if required then
          .error (.corruptValue (relationshipIdKeyText cellId relationshipId)
            ("relationship id points at missing record " ++ relationshipKeyText cellId
              target.edgeType target.src target.dst target.relationshipId))
        else return prefetched) resolved.prefetched

/-- The rows of an import by what they do: new relationships, records whose metadata changes, and
the number of rows whose relationship existed. -/
structure ClassifiedRows where
  inserted : List RelationshipMutation
  updated : List (RelationshipRecord × EdgeMetadata)
  alreadyExisted : Nat

/-- The metadata a row leaves on an existing relationship, or `none` when its guard is not
newer. -/
def rowMetadataOn (cellId : CellId) (options : RelationshipImportOptions)
    (row : RelationshipMutation) (existing : EdgeMetadata) :
    Except GraphError (Option EdgeMetadata) :=
  match options.mergePolicy with
  | none => return some (mergeEdgeMetadata existing row.metadata)
  | some policy => do
    let patch ← guardedMetadataPatch existing.properties row.metadata.properties policy
      (relationshipKeyText cellId row.edgeType row.src row.dst row.relationshipId)
    return patch.map fun properties => mergeEdgeMetadata existing ⟨properties⟩

/-- One row of the classification. -/
def classifyRow (cellId : CellId) (idempotencyKey : String) (options : RelationshipImportOptions)
    (prefetched : OrdMap RelationshipId RelationshipRecord) (acc : ClassifiedRows)
    (row : RelationshipMutation) : Except GraphError ClassifiedRows :=
  match prefetched.get row.relationshipId with
  | none => return { acc with inserted := acc.inserted ++ [row] }
  | some existing =>
    let seen := { acc with alreadyExisted := acc.alreadyExisted + 1 }
    if existing.key ≠ row.key then
      .error (.idempotencyConflict "relationship-import" idempotencyKey
        "the relationship id in the payload is already bound to a different edge")
    else if existing.metadata = row.metadata then return seen
    else if !options.updateExistingMetadata then
      .error (.idempotencyConflict "relationship-import" idempotencyKey
        ("the relationship exists with different properties and this " ++
          "operation does not update them"))
    else do
      match ← rowMetadataOn cellId options row existing.metadata with
      | none => return seen
      | some next =>
        return if next ≠ existing.metadata then
            { seen with updated := seen.updated ++ [(⟨existing.key, next⟩, existing.metadata)] }
          else seen

/-! ## The writes -/

/-- How many of the new relationships are on each edge. -/
def relationshipIncrements (rows : List RelationshipMutation) : OrdMap EdgeKey Nat :=
  rows.foldl (fun counts row => counts.bump row.edge) ∅

/-- The relationship tables after an import. -/
def RelationshipStore.applyImport (s : RelationshipStore) (classified : ClassifiedRows)
    (rows : List RelationshipMutation)
    (pointerUpdates : OrdMap EdgePropertyKey (Option RelationshipId)) (fresh : Bool) :
    RelationshipStore :=
  let last := s.lastRelationshipId
  let s := classified.inserted.foldl
    (fun (s : RelationshipStore) row => s.insertRelationship row.key row.metadata) s
  let s := classified.updated.foldl
    (fun (s : RelationshipStore) u => s.replaceMetadata u.1.key u.2 u.1.metadata) s
  let s := { s with
    counts := addCounters fresh s.counts (relationshipIncrements classified.inserted) }
  let requested := (rows.map RelationshipMutation.relationshipId).foldl max 0
  let s := if requested > last then { s with lastId := some requested } else s
  -- these come last: the index writes above drop the pointers of the identities they touch
  pointerUpdates.entries.foldl (fun (s : RelationshipStore) e =>
    match e.2 with
    | some relationshipId => { s with merges := s.merges.put e.1 relationshipId }
    | none => { s with merges := s.merges.del e.1 }) s

/-- The edges of the new relationships, and those of them that are not there yet. A store nothing
was committed to has no edges and is not read. -/
def structuralEdges (rows : List RelationshipMutation) : List (VertexId × VertexId) :=
  sortDedupEdges (rows.map fun row => (row.src, row.dst))

/-- `import_relationships_batch_txn_locked`. -/
def importRelationshipsBatchTxn (env : WriteEnv) (cellId : CellId) (edgeType : EdgeType)
    (rows : List RelationshipMutation) (idempotencyKey : String) (fingerprint : UInt64)
    (options : RelationshipImportOptions) (sequence : StorageSequence) (c : Cell) :
    Except GraphError (Outcome RelationshipImportResult) := do
  c.validateWriteFence cellId options.operation
  c.replayOr cellId "relationship-import" idempotencyKey
    (decodeRelationshipImportIdempotency · idempotencyKey fingerprint) <| do
    let fresh : Bool := sequence = 0
    let matched := retainMatched c.vertices options.endpointLabels rows
    let resolved ← resolveRows c.relationships cellId options matched
    let prefetched ← prefetchRecords c.relationships cellId resolved
    let classified ← resolved.rows.foldlM
      (classifyRow cellId idempotencyKey options prefetched) ⟨[], [], 0⟩
    let structural := structuralEdges classified.inserted
    let toInsert := absentEdges c.topology edgeType structural .checkExisting sequence
    let changed := !classified.inserted.isEmpty || !toInsert.isEmpty || !classified.updated.isEmpty
    let epoch ← epochIf changed sequence "storage_sequence"
      "epoch overflow during relationship import"
    let result : RelationshipImportResult :=
      { startEpoch := epoch
        endEpoch := epoch
        relationshipsInserted := classified.inserted.length
        relationshipsAlreadyExisted := classified.alreadyExisted
        structuralEdgesInserted := toInsert.length
        structuralEdgesAlreadyExisted := structural.length - toInsert.length }
    let c := if toInsert.isEmpty then c
      else c.markTopologyChange env cellId edgeType epoch (toInsert.map fun e => (e.1, e.2, true))
    let c := toInsert.foldl
      (fun (c : Cell) e => c.insertDirect env.reverseIndex ⟨edgeType, e.1, e.2⟩) c
    let c := c.setDegreeOut (addCounters fresh c.topology.degreeOut
      (degreeIncrements edgeType (toInsert.map Prod.fst)))
    let c := if env.reverseIndex then
        c.setDegreeIn (addCounters fresh c.topology.degreeIn
          (degreeIncrements edgeType (toInsert.map Prod.snd)))
      else c
    let c := c.setRelationships
      (c.relationships.applyImport classified resolved.rows resolved.pointerUpdates fresh)
    let c := if options.endpointLabels.isSome then c
      else c.setVertices (c.vertices.ensureRecords
        (classified.inserted.flatMap fun row => [row.src, row.dst]) ∅ fresh)
    commitTxn sequence (c.putIdempotency "relationship-import" idempotencyKey
      (.relationshipImport result fingerprint idempotencyKey)) result

/-! ## Requests -/

/-- The rows an import works on: a batched create takes them as they are, the others take one row a
relationship id. -/
def requestedRows (cellId : CellId) (edgeType : EdgeType) (rows : List RelationshipMutation)
    (options : RelationshipImportOptions) : Except GraphError (List RelationshipMutation) :=
  if options.createAlways then do
    rows.forM (validateRelationshipBatchEntry cellId edgeType)
    return rows
  else
    coalesceRelationshipImports cellId edgeType rows
      (if options.updateExistingMetadata then some options.mergePolicy else none)

/-- `import_relationships_batch_with_endpoint_labels`. An empty request returns at once. -/
def importRelationshipsBatchWithEndpointLabels (env : WriteEnv) (cellId : CellId)
    (edgeType : EdgeType) (rows : List RelationshipMutation) (idempotencyKey : String)
    (options : RelationshipImportOptions) (sequence : StorageSequence) (c : Cell) :
    Except GraphError (Outcome RelationshipImportResult) := do
  validateComponent "cell_id" cellId
  validateComponent "edge_type" edgeType
  validateComponent "idempotency_key" idempotencyKey
  validateMergePolicy options.mergePolicy
  let guardedRows ← mixedGuardedRelationshipRows rows options.mergePolicy
    env.limits.maxBulkImportEdges
  let options := { options with guardedRows }
  let coalesced ← requestedRows cellId edgeType rows options
  if coalesced.isEmpty then return .unchanged ⟨sequence, sequence, 0, 0, 0, 0⟩
  else do
    ensureLimit "import_relationships_batch" coalesced.length env.limits.maxBulkImportEdges
    let sorted := sortRows coalesced
    -- rows of mixed shapes are hashed one by one: the folded rows do not tell them apart
    let fingerprint := relationshipImportFingerprint cellId edgeType
      (if guardedRows.entries.isEmpty then sorted else sortRows rows)
    importRelationshipsBatchTxn env cellId edgeType sorted idempotencyKey fingerprint options
      sequence c

/-- `import_relationships_batch`. -/
def importRelationshipsBatch (env : WriteEnv) (cellId : CellId) (edgeType : EdgeType)
    (rows : List RelationshipMutation) (idempotencyKey : String) (sequence : StorageSequence)
    (c : Cell) : Except GraphError (Outcome RelationshipImportResult) :=
  importRelationshipsBatchWithEndpointLabels env cellId edgeType rows idempotencyKey
    ⟨none, false, false, none, ∅, "import_relationships_batch"⟩ sequence c

/-- `create_relationships_batch_between_labeled_vertices`. -/
def createRelationshipsBatchBetweenLabeledVertices (env : WriteEnv) (cellId : CellId)
    (edgeType : EdgeType) (rows : List RelationshipMutation) (idempotencyKey : String)
    (sourceLabel destinationLabel : String) (sequence : StorageSequence) (c : Cell) :
    Except GraphError (Outcome RelationshipImportResult) := do
  validateComponent "source_label" sourceLabel
  validateComponent "destination_label" destinationLabel
  importRelationshipsBatchWithEndpointLabels env cellId edgeType rows idempotencyKey
    ⟨some (sourceLabel, destinationLabel), true, false, none, ∅,
      "create_relationships_batch_between_labeled_vertices"⟩ sequence c

/-- `merge_relationships_batch_between_labeled_vertices`. -/
def mergeRelationshipsBatchBetweenLabeledVertices (env : WriteEnv) (cellId : CellId)
    (edgeType : EdgeType) (rows : List RelationshipMutation) (idempotencyKey : String)
    (labels : String × String) (mergePolicy : Option QueryBatchMergePolicy)
    (sequence : StorageSequence) (c : Cell) :
    Except GraphError (Outcome RelationshipImportResult) := do
  validateComponent "source_label" labels.1
  validateComponent "destination_label" labels.2
  importRelationshipsBatchWithEndpointLabels env cellId edgeType rows idempotencyKey
    ⟨some labels, false, true, mergePolicy, ∅,
      "merge_relationships_batch_between_labeled_vertices"⟩ sequence c

end HydraDb
