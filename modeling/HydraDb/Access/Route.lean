import HydraDb.Access.Classify

/-!
# From an authorised request to the executor it reaches

The routes a query takes through a node: the client service (`client/service.rs`), the query
transport server and its TCP client, the scoped and the plain routed cluster
(`query/coordination.rs`, `engine/cluster.rs`) and the shard (`shard/query.rs`). Each layer is the
decision it takes, so a route is a function from a request to the executor it ends in, or to the
error that stops it: `Execution` names the executors with what they are called with, and
`Execution.run` is what such a call can do to the storage behind it.

What only refuses requests and looks at neither their access nor their text stands as an answer
of the environment: request limits, bookmarks and query registration (`admission`), the lookup of
a cell's shard and of a scope's cluster, and whether this node may write the cell.
-/

namespace HydraDb

/-! ## Scopes and grants -/

/-- `MAX_NAMESPACE_DEPTH`. -/
def maxNamespaceDepth : Nat := 8

/-- `NamespacePath`: the segments from the tenant down. -/
structure NamespacePath where
  segments : List String
  nonempty : segments ≠ []
  depth : segments.length ≤ maxNamespaceDepth
  deriving DecidableEq

/-- `NamespacePath::is_descendant_of`; a path is its own descendant. -/
def NamespacePath.isDescendantOf (path ancestor : NamespacePath) : Bool :=
  ancestor.segments.isPrefixOf path.segments

/-- `GraphScope`. -/
structure GraphScope where
  namespacePath : NamespacePath
  graphId : String
  deriving DecidableEq

/-- The default scope. -/
def GraphScope.default : GraphScope where
  namespacePath := ⟨["default"], by simp, by decide⟩
  graphId := "default"

/-- `Display for GraphScope`. -/
def GraphScope.display (scope : GraphScope) : String :=
  "/".intercalate scope.namespacePath.segments ++ "/graphs/" ++ scope.graphId

/-- `QueryTransportAction`. -/
inductive QueryTransportAction where
  | read
  | write
  | cancel
  | admin
  deriving DecidableEq

/-- `QueryTransportAction::as_str`. -/
def QueryTransportAction.asStr : QueryTransportAction → String
  | .read => "read"
  | .write => "write"
  | .cancel => "cancel queries in"
  | .admin => "administer"

/-- The action that an access needs. -/
def OpenCypherQueryAccess.action : OpenCypherQueryAccess → QueryTransportAction
  | .read => .read
  | .write => .write

/-- `QueryTransportScopeGrant`. -/
structure QueryTransportScopeGrant where
  namespacePath : NamespacePath
  graphId : Option String
  includeDescendants : Bool
  actions : List QueryTransportAction

/-- `QueryTransportScopeGrant::allows`. -/
def QueryTransportScopeGrant.allows (grant : QueryTransportScopeGrant) (scope : GraphScope)
    (action : QueryTransportAction) : Bool :=
  let namespaceAllowed :=
    if grant.includeDescendants then scope.namespacePath.isDescendantOf grant.namespacePath
    else scope.namespacePath == grant.namespacePath
  let graphAllowed :=
    match grant.graphId with
    | some graphId => graphId == scope.graphId
    | none => true
  namespaceAllowed && graphAllowed && grant.actions.contains action

/-- `QueryTransportPrincipal`: the text of a hashed credential. -/
abbrev Principal := String

/-- `QueryTransportPrincipal::error_label`. -/
def Principal.errorLabel (principal : Principal) : String :=
  if "bearer:".toList.isPrefixOf principal.toList then "bearer principal"
  else if "mtls:".toList.isPrefixOf principal.toList then "mTLS principal"
  else "unauthenticated principal"

/-- The scope authorizers: the grants of each principal (`StaticQueryTransportScopeAuthorizer`),
or the one of a server without grants, which opens the default scope to everyone
(`DefaultQueryTransportScopeAuthorizer`). -/
inductive ScopeAuthorizer where
  | granted (grants : Principal → List QueryTransportScopeGrant)
  | defaultScope

/-- `QueryTransportScopeAuthorizer::authorize`. -/
def ScopeAuthorizer.authorize (authorizer : ScopeAuthorizer) (principal : Principal)
    (scope : GraphScope) (action : QueryTransportAction) : Bool :=
  match authorizer with
  | .granted grants => (grants principal).any (·.allows scope action)
  | .defaultScope => scope == .default

/-- `authorize_any_action` for one action, and `authorize_query_transport_scope`: an admin grant
stands for every action. -/
def ScopeAuthorizer.authorizeScope (authorizer : ScopeAuthorizer) (principal : Principal)
    (scope : GraphScope) (action : QueryTransportAction) : Except GraphError Unit :=
  if authorizer.authorize principal scope action || authorizer.authorize principal scope .admin then
    .ok ()
  else
    .error (.graphScopeAccessDenied principal.errorLabel action.asStr scope.display)

/-! ## Batches -/

/-- The kinds of `QueryBatchOperation`. -/
inductive QueryBatchKind where
  | outNeighbors
  | createEdges
  | deleteEdges
  | deleteVertices
  | deleteIsolatedVertices
  | deleteVerticesAndIsolatedCandidates
  | deleteRelationshipsByProperty
  | createEdgesBetweenLabeledVertices
  | upsertVertices
  | guardedUpsertVertices
  | createRelationshipsBetweenLabeledVertices
  | mergeRelationshipsBetweenLabeledVertices
  | guardedMergeRelationshipsBetweenLabeledVertices
  deriving DecidableEq

/-- `QueryBatchOperation`, with the rows it carries. -/
structure QueryBatchOperation (Items : Type) where
  kind : QueryBatchKind
  items : Items

/-- `QueryBatchOperation::is_write`. -/
def QueryBatchOperation.isWrite {Items : Type} (operation : QueryBatchOperation Items) : Bool :=
  match operation.kind with
  | .createEdges | .createEdgesBetweenLabeledVertices | .deleteEdges | .deleteVertices
  | .deleteIsolatedVertices | .deleteVerticesAndIsolatedCandidates
  | .deleteRelationshipsByProperty | .upsertVertices | .guardedUpsertVertices
  | .createRelationshipsBetweenLabeledVertices | .mergeRelationshipsBetweenLabeledVertices
  | .guardedMergeRelationshipsBetweenLabeledVertices => true
  | .outNeighbors => false

/-- The access a batch needs. -/
def QueryBatchOperation.access {Items : Type} (operation : QueryBatchOperation Items) :
    OpenCypherQueryAccess :=
  if operation.isWrite then .write else .read

/-- The operation kind that a parsed batch resolves to; a guard turns an upsert or a merge into
its guarded form. -/
def ParsedUnwindBatch.operationKind {Template : Type} (batch : ParsedUnwindBatch Template) :
    QueryBatchKind :=
  match batch.kind with
  | .outNeighbors => .outNeighbors
  | .createEdges => .createEdges
  | .createEdgesBetweenLabeledVertices => .createEdgesBetweenLabeledVertices
  | .deleteEdges => .deleteEdges
  | .deleteVertices => .deleteVertices
  | .deleteIsolatedVertices => .deleteIsolatedVertices
  | .deleteVerticesAndIsolatedCandidates => .deleteVerticesAndIsolatedCandidates
  | .deleteRelationshipsByProperty => .deleteRelationshipsByProperty
  | .upsertVertices =>
    if batch.updateIfNewerBy.isSome then .guardedUpsertVertices else .upsertVertices
  | .createRelationshipsBetweenLabeledVertices => .createRelationshipsBetweenLabeledVertices
  | .mergeRelationshipsBetweenLabeledVertices =>
    if batch.updateIfNewerBy.isSome then .guardedMergeRelationshipsBetweenLabeledVertices
    else .mergeRelationshipsBetweenLabeledVertices

variable (F : Frontend)

/-- `resolve_unwind_batch`. -/
def resolveUnwindBatch (batch : ParsedUnwindBatch F.BatchTemplate)
    (parameters : F.RequestParameters) : Except GraphError (QueryBatchOperation F.BatchItems) := do
  return ⟨batch.operationKind, ← F.batchItems batch parameters⟩

/-- `parse_opencypher_unwind_batch`. -/
def parseOpencypherUnwindBatch (query : QueryText) :
    Except GraphError (Option (ParsedUnwindBatch F.BatchTemplate)) :=
  if startsWithNonUnwindClause query then .ok none
  else
    match F.parse query >>= F.lowerUnwindBatch with
    | .ok batch => .ok batch
    | .error error =>
      if F.experimentalEngine && isCypher25ReadQuery F query then .ok none else .error error

/-! ## Executors -/

/-- `CypherEngineMode`. -/
inductive CypherEngineMode where
  | legacy
  | experimental
  deriving DecidableEq

/-- `QueryContext`, as far as the routes read it. -/
structure QueryContext where
  scope : GraphScope
  cellId : CellId
  cypherEngine : CypherEngineMode
  parameters : F.Parameters

/-- Whether an executor is asked for all rows or for one page. -/
inductive ResultShape where
  | rows
  | page (cursor : Option Nat) (pageSize : Nat)

/-- The executors a route can end in. -/
inductive Execution where
  /-- `execute_native_procedure_rows`, `execute_native_path_rows_page`. -/
  | nativeProcedure (context : QueryContext F) (shape : ResultShape) (procedure : F.Procedure)
  /-- `execute_parsed_opencypher_mutation`. -/
  | mutation (context : QueryContext F) (mutation : F.Mutation)
  /-- `execute_parsed_opencypher_rows` and its paged form. -/
  | rows (context : QueryContext F) (shape : ResultShape) (query : F.RowQuery)
  /-- `execute_experimental_cypher_rows`. -/
  | experimental (context : QueryContext F) (query : QueryText)
  /-- `execute_batch`. -/
  | batch (context : QueryContext F) (operation : QueryBatchOperation F.BatchItems)
  /-- `continue_server_cursor`: the next page of a result that is already buffered. -/
  | serverCursor (context : QueryContext F) (cursor pageSize : Nat)

/-- The context an executor is called with. -/
def Execution.context {F : Frontend} : Execution F → QueryContext F
  | .nativeProcedure context .. | .mutation context _ | .rows context .. | .experimental context _
  | .batch context _ | .serverCursor context .. => context

/-- The executors behind the routes, over a storage state: those that read answer from a snapshot
of it, mutations and writing batches may commit. -/
structure Backend (Store Answer : Type) where
  read : Execution F → Store → Except GraphError Answer
  mutate : QueryContext F → F.Mutation → Store → Except GraphError Answer × Store
  writeBatch : QueryContext F → QueryBatchOperation F.BatchItems → Store →
    Except GraphError Answer × Store

/-- One call of an executor. The arms of a batch are those of `execute_batch`: only the
out-neighbour batch reads, every other kind takes the cell's writer. -/
def Execution.run {F : Frontend} {Store Answer : Type} (backend : Backend F Store Answer)
    (execution : Execution F) (store : Store) : Except GraphError Answer × Store :=
  match execution with
  | .mutation context parsed => backend.mutate context parsed store
  | .batch context operation =>
    match operation.kind with
    | .outNeighbors => (backend.read execution store, store)
    | _ => backend.writeBatch context operation store
  | _ => (backend.read execution store, store)

/-! ## The shard -/

/-- `parse_native_procedure`. -/
def parseNativeProcedure (query : QueryText) (parameters : F.Parameters) :
    Except GraphError (Option F.Procedure) :=
  if isNativePathProcedure query then F.parseNativeCall query parameters else .ok none

/-- `parse_experimental_route_mutation`. -/
def parseExperimentalRouteMutation (query : QueryText) (parameters : F.Parameters) :
    Except GraphError (Option F.Mutation) :=
  match classifyOpencypherQueryAccess F query with
  | .ok .read => .ok none
  | _ => parseOpencypherMutationQuery F query parameters

/-- The error of an engine that is not built in. -/
def experimentalEngineNotCompiled : GraphError :=
  .unsupportedQuery "Cypher25" "the experimental-cypher-engine Cargo feature is not enabled" .other

variable {F}

/-- `execute_opencypher_rows` and `execute_opencypher_rows_page`. -/
def executeOpencypherRows (context : QueryContext F) (query : QueryText) (shape : ResultShape) :
    Except GraphError (Execution F) := do
  match ← parseNativeProcedure F query context.parameters with
  | some procedure => return .nativeProcedure context shape procedure
  | none => return .rows context shape (← parseOpencypherRowQuery F query context.parameters)

/-- `execute_opencypher`. -/
def executeOpencypher (context : QueryContext F) (query : QueryText) :
    Except GraphError (Execution F) := do
  match ← parseNativeProcedure F query context.parameters with
  | some procedure => return .nativeProcedure context .rows procedure
  | none =>
    match ← parseOpencypherMutationQuery F query context.parameters with
    | some mutation => return .mutation context mutation
    | none => return .rows context .rows (← parseOpencypherRowQuery F query context.parameters)

/-- The experimental branch of `execute_cypher` and `execute_cypher_rows`. -/
def executeExperimental (context : QueryContext F) (query : QueryText) :
    Except GraphError (Execution F) := do
  match ← parseNativeProcedure F query context.parameters with
  | some procedure => return .nativeProcedure context .rows procedure
  | none =>
    match ← parseExperimentalRouteMutation F query context.parameters with
    | some mutation => return .mutation context mutation
    | none =>
      if F.experimentalEngine then return .experimental context query
      else throw experimentalEngineNotCompiled

/-- `GraphShard::execute_cypher`. -/
def shardExecuteCypher (context : QueryContext F) (query : QueryText) :
    Except GraphError (Execution F) :=
  match context.cypherEngine with
  | .experimental => executeExperimental context query
  | .legacy => executeOpencypher context query

/-- `GraphShard::execute_cypher_rows`. -/
def shardExecuteCypherRows (context : QueryContext F) (query : QueryText) :
    Except GraphError (Execution F) :=
  match context.cypherEngine with
  | .experimental => executeExperimental context query
  | .legacy => executeOpencypherRows context query .rows

/-- The refusal at the end of the experimental branch of `execute_cypher_rows_page`. -/
def experimentalPageError (cursor : Option Nat) : GraphError :=
  .unsupportedQuery "Cypher25"
    (if cursor.isSome then "experimental mutations cannot continue from a cursor"
    else
      "direct experimental read pages are not implemented; use the client server cursor")
    .invalidRequest

/-- `GraphShard::execute_cypher_rows_page`. -/
def shardExecuteCypherRowsPage (context : QueryContext F) (query : QueryText)
    (cursor : Option Nat) (pageSize : Nat) : Except GraphError (Execution F) :=
  match context.cypherEngine with
  | .legacy => executeOpencypherRows context query (.page cursor pageSize)
  | .experimental => do
    match ← parseNativeProcedure F query context.parameters with
    | some procedure => return .nativeProcedure context (.page cursor pageSize) procedure
    | none =>
      refuseIf cursor.isSome (experimentalPageError cursor)
      match ← parseExperimentalRouteMutation F query context.parameters with
      | some mutation => return .mutation context mutation
      | none => throw (experimentalPageError cursor)

/-! ## The routed cluster -/

/-- `RoutedGraphCluster`: the scope it serves, and what the environment answers about a cell. -/
structure RoutedGraphCluster where
  scope : GraphScope
  shard : CellId → Except GraphError Unit
  ensureLocalWriter : CellId → Except GraphError Unit

/-- `ensure_query_scope`. -/
def RoutedGraphCluster.ensureQueryScope (cluster : RoutedGraphCluster) (scope : GraphScope) :
    Except GraphError Unit :=
  if scope = cluster.scope then .ok ()
  else .error (.graphScopeMismatch cluster.scope.display scope.display)

/-- `RoutedGraphCluster::execute_cypher`. -/
def RoutedGraphCluster.executeCypher (cluster : RoutedGraphCluster) (context : QueryContext F)
    (query : QueryText) : Except GraphError (Execution F) := do
  cluster.ensureQueryScope context.scope
  cluster.shard context.cellId
  match ← classifyOpencypherQueryAccess F query with
  | .write =>
    cluster.ensureLocalWriter context.cellId
    shardExecuteCypher context query
  | .read => shardExecuteCypher context query

/-- `RoutedGraphCluster::execute_cypher_rows`. -/
def RoutedGraphCluster.executeCypherRows (cluster : RoutedGraphCluster)
    (context : QueryContext F) (query : QueryText) : Except GraphError (Execution F) := do
  cluster.ensureQueryScope context.scope
  cluster.shard context.cellId
  shardExecuteCypherRows context query

/-- `RoutedGraphCluster::execute_cypher_rows_page`. -/
def RoutedGraphCluster.executeCypherRowsPage (cluster : RoutedGraphCluster)
    (context : QueryContext F) (query : QueryText) (cursor : Option Nat) (pageSize : Nat) :
    Except GraphError (Execution F) := do
  cluster.ensureQueryScope context.scope
  cluster.shard context.cellId
  shardExecuteCypherRowsPage context query cursor pageSize

/-- `execute_batch` of the routed cluster. -/
def RoutedGraphCluster.executeBatch (cluster : RoutedGraphCluster) (context : QueryContext F)
    (operation : QueryBatchOperation F.BatchItems) : Except GraphError (Execution F) := do
  cluster.ensureQueryScope context.scope
  cluster.shard context.cellId
  match operation.kind with
  | .outNeighbors => return .batch context operation
  | _ =>
    cluster.ensureLocalWriter context.cellId
    return .batch context operation

variable (F) in
/-- `routed_client_query_is_mutation`. -/
def routedClientQueryIsMutation (query : QueryText) : Except GraphError Bool := do
  return (← classifyOpencypherQueryAccess F query) = .write

/-- The refusal of a mutation that continues from a cursor. -/
def mutationCursorError (dialect feature : String) : GraphError :=
  .unsupportedQuery dialect feature .invalidRequest

/-- `QueryCellClient::execute_cypher_rows` of the routed cluster. -/
def RoutedGraphCluster.clientRows (cluster : RoutedGraphCluster) (context : QueryContext F)
    (query : QueryText) : Except GraphError (Execution F) := do
  if ← routedClientQueryIsMutation F query then cluster.executeCypher context query
  else cluster.executeCypherRows context query

/-- `QueryCellClient::execute_cypher_rows_page` of the routed cluster. -/
def RoutedGraphCluster.clientPage (cluster : RoutedGraphCluster) (context : QueryContext F)
    (query : QueryText) (cursor : Option Nat) (pageSize : Nat) :
    Except GraphError (Execution F) := do
  if ← routedClientQueryIsMutation F query then
    refuseIf cursor.isSome
      (mutationCursorError "ClientProtocol" "mutation queries cannot continue from a result cursor")
    cluster.executeCypher context query
  else cluster.executeCypherRowsPage context query cursor pageSize

end HydraDb
