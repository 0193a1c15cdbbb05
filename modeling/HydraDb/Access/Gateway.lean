import HydraDb.Access.Route

/-!
# The layers that authorise

A request enters a node through the client service or through the query transport server; both
classify it, ask their authorizer, and hand it to a `QueryCellClient`. The client is the routed
cluster itself, the scoped cluster in front of it, or a TCP client whose requests the transport
server of another node serves, which authorises them again: a chain of any length.
`Gateway.route` is the whole way of a request, from its entry to the executor it reaches.
-/

namespace HydraDb

variable {F : Frontend}

/-! ## The transport server -/

/-- `QUERY_TRANSPORT_VERSION`. -/
def queryTransportVersion : Nat := 1

/-- `transport_version_error`. -/
def transportVersionError (version : Nat) : GraphError :=
  .unsupportedQuery "QueryTransport"
    s!"unsupported query transport version {version}; expected {queryTransportVersion}"
    .invalidRequest

/-- What a transport request says about its sender: the protocol version, and the principal that
`authenticate_query_transport` finds for its credentials. -/
structure TransportSender where
  version : Nat
  principal : Except GraphError Principal

/-- `classify_query_transport_action`. -/
def classifyQueryTransportAction (F : Frontend) (query : QueryText) :
    Except GraphError QueryTransportAction := do
  return (← classifyOpencypherQueryAccess F query).action

/-- The checks that every arm of `execute_query_transport_request_inner` starts with. -/
def TransportSender.authenticate (sender : TransportSender) : Except GraphError Principal :=
  if sender.version = queryTransportVersion then sender.principal
  else .error (transportVersionError sender.version)

/-- The `Rows` arm, in front of the executor `execute` of the served client. -/
def serveRows (authorizer : ScopeAuthorizer) (sender : TransportSender)
    (execute : QueryContext F → QueryText → Except GraphError (Execution F))
    (context : QueryContext F) (query : QueryText) : Except GraphError (Execution F) := do
  let principal ← sender.authenticate
  let action ← classifyQueryTransportAction F query
  authorizer.authorizeScope principal context.scope action
  execute context query

/-- The `Page` arm. -/
def servePage (authorizer : ScopeAuthorizer) (sender : TransportSender)
    (execute : QueryContext F → QueryText → Option Nat → Nat → Except GraphError (Execution F))
    (context : QueryContext F) (query : QueryText) (cursor : Option Nat) (pageSize : Nat) :
    Except GraphError (Execution F) := do
  let principal ← sender.authenticate
  let action ← classifyQueryTransportAction F query
  authorizer.authorizeScope principal context.scope action
  refuseIf (action = .write)
    (.unsupportedQuery "QueryTransport" "mutation queries cannot use paged row execution"
      .invalidRequest)
  execute context query cursor pageSize

/-- The `Batch` arm. -/
def serveBatch (authorizer : ScopeAuthorizer) (sender : TransportSender)
    (execute : QueryContext F → QueryBatchOperation F.BatchItems → Except GraphError (Execution F))
    (context : QueryContext F) (operation : QueryBatchOperation F.BatchItems) :
    Except GraphError (Execution F) := do
  let principal ← sender.authenticate
  authorizer.authorizeScope principal context.scope operation.access.action
  execute context operation

/-- The `BatchPage` arm. Both of its ways on run the batch once and cut a page from the result. -/
def serveBatchPage (authorizer : ScopeAuthorizer) (sender : TransportSender)
    (execute : QueryContext F → QueryBatchOperation F.BatchItems → Except GraphError (Execution F))
    (context : QueryContext F) (operation : QueryBatchOperation F.BatchItems) (cursor : Option Nat)
    : Except GraphError (Execution F) := do
  let principal ← sender.authenticate
  refuseIf (operation.isWrite ∧ cursor.isSome)
    (mutationCursorError "QueryTransport" "mutation batches cannot continue from a result cursor")
  authorizer.authorizeScope principal context.scope operation.access.action
  execute context operation

/-! ## Clients of a cell -/

/-- The implementations of `QueryCellClient`. A TCP client is known by the server it reaches: that
server's authorizer, how it sees the client, and the client it serves with. -/
inductive QueryCellClient where
  | routed (cluster : RoutedGraphCluster)
  | scopedRouted (clusterForScope : GraphScope → Except GraphError RoutedGraphCluster)
      (clusterForScopeWrite : GraphScope → CellId → Except GraphError RoutedGraphCluster)
  | tcp (authorizer : ScopeAuthorizer) (sender : TransportSender) (served : QueryCellClient)

/-- The cluster a scoped client goes to: the one with the cell's writer for a mutation. -/
def clusterFor (clusterForScope : GraphScope → Except GraphError RoutedGraphCluster)
    (clusterForScopeWrite : GraphScope → CellId → Except GraphError RoutedGraphCluster)
    (isMutation : Bool) (context : QueryContext F) : Except GraphError RoutedGraphCluster :=
  if isMutation then clusterForScopeWrite context.scope context.cellId
  else clusterForScope context.scope

/-- `QueryCellClient::execute_cypher_rows`. -/
def QueryCellClient.executeCypherRows :
    QueryCellClient → QueryContext F → QueryText → Except GraphError (Execution F)
  | .routed cluster, context, query => cluster.clientRows context query
  | .scopedRouted clusterForScope clusterForScopeWrite, context, query => do
    let isMutation ← routedClientQueryIsMutation F query
    let cluster ← clusterFor clusterForScope clusterForScopeWrite isMutation context
    cluster.clientRows context query
  | .tcp authorizer sender served, context, query =>
    serveRows authorizer sender served.executeCypherRows context query

/-- `QueryCellClient::execute_cypher_rows_page`. -/
def QueryCellClient.executeCypherRowsPage :
    QueryCellClient → QueryContext F → QueryText → Option Nat → Nat →
      Except GraphError (Execution F)
  | .routed cluster, context, query, cursor, pageSize =>
    cluster.clientPage context query cursor pageSize
  | .scopedRouted clusterForScope clusterForScopeWrite, context, query, cursor, pageSize => do
    let isMutation ← routedClientQueryIsMutation F query
    let cluster ← clusterFor clusterForScope clusterForScopeWrite isMutation context
    if isMutation then
      refuseIf cursor.isSome
        (mutationCursorError "ClientProtocol"
          "mutation queries cannot continue from a result cursor")
      cluster.executeCypher context query
    else cluster.clientPage context query cursor pageSize
  | .tcp authorizer sender served, context, query, cursor, pageSize =>
    servePage authorizer sender served.executeCypherRowsPage context query cursor pageSize

/-- `QueryCellClient::execute_batch`, which `execute_batch_page` runs too. -/
def QueryCellClient.executeBatch :
    QueryCellClient → QueryContext F → QueryBatchOperation F.BatchItems →
      Except GraphError (Execution F)
  | .routed cluster, context, operation => cluster.executeBatch context operation
  | .scopedRouted clusterForScope clusterForScopeWrite, context, operation => do
    let cluster ← clusterFor clusterForScope clusterForScopeWrite operation.isWrite context
    cluster.executeBatch context operation
  | .tcp authorizer sender served, context, operation =>
    serveBatch authorizer sender served.executeBatch context operation

/-! ## The client service -/

variable (F) in
/-- `ClientQueryRequest`, as far as the routes read it. `admission` is what request validation,
limits, bookmarks and query registration answer. -/
structure ClientQueryRequest where
  scope : GraphScope
  cellId : CellId
  query : QueryText
  parameters : F.RequestParameters
  admission : Except GraphError Unit

variable (F) in
/-- `parse_native_procedure_columns`. -/
def parseNativeProcedureColumns (query : QueryText) : Except GraphError (Option (List String)) :=
  if isNativePathProcedure query then F.nativeCallColumns query else .ok none

variable (F) in
/-- `experimental_query_columns`, which plans the query as `prepare_experimental_cypher` does. -/
def experimentalQueryColumns (query : QueryText) (parameters : F.Parameters) :
    Except GraphError (List String) := do
  let (explain, query) ← splitExplain query
  let columns ← F.planTemplate (← F.loweredTemplate query) parameters
  return if explain then ["plan"] else columns

/-- `refusal_stands` in `authorize_query`: a read that the planner refuses may still be a batch. -/
def refusalStands (query : QueryText) (error : GraphError) : Except GraphError Unit := do
  match ← parseOpencypherUnwindBatch F query with
  | some _ => return ()
  | none => throw error

/-- The check `authorize_query` makes of a read that the experimental engine is to run. -/
def admitRead (request : ClientQueryRequest F) (cypherEngine : CypherEngineMode)
    (access : OpenCypherQueryAccess) : Except GraphError Unit :=
  if cypherEngine = .legacy ∨ access = .write then .ok ()
  else match F.splitQueryParameters request.parameters with
  | .error error => refusalStands (F := F) request.query error
  | .ok parameters => do
    if (← parseNativeProcedureColumns F request.query).isNone then
      match experimentalQueryColumns F request.query parameters with
      | .error error => refusalStands (F := F) request.query error
      | .ok _ => return ()

/-- `authorize_query`. -/
def authorizeQuery (authorizer : ScopeAuthorizer) (principal : Principal)
    (request : ClientQueryRequest F) (cypherEngine : CypherEngineMode) :
    Except GraphError QueryTransportAction := do
  refuseIf (cypherEngine = .experimental ∧ F.experimentalEngine = false)
    experimentalEngineNotCompiled
  let access ← classifyOpencypherQueryAccess F request.query
  admitRead request cypherEngine access
  authorizer.authorizeScope principal request.scope access.action
  return access.action

/-- `prepare_transport_parameters`. -/
def prepareTransportParameters (request : ClientQueryRequest F) :
    Except GraphError (Option (QueryBatchOperation F.BatchItems) × F.Parameters) := do
  match ← parseOpencypherUnwindBatch F request.query with
  | some parsed => return (some (← resolveUnwindBatch F parsed request.parameters), F.noParameters)
  | none => return (none, ← F.splitQueryParameters request.parameters)

/-- The comparison of a batch with the action it was authorised for. -/
def checkBatchAccess (batch : Option (QueryBatchOperation F.BatchItems))
    (action : QueryTransportAction) : Except GraphError Unit :=
  refuseIf (batch.any fun operation => operation.isWrite != (action == .write))
    (.corruptValue "client/query/unwind_access"
      "UNWIND batch access classification does not match its operation")

/-- `query_context`. -/
def queryContext (request : ClientQueryRequest F) (parameters : F.Parameters)
    (cypherEngine : CypherEngineMode) : QueryContext F where
  scope := request.scope
  cellId := request.cellId
  cypherEngine := cypherEngine
  parameters := parameters

/-- `execute_rows_body`. -/
def executeRows (authorizer : ScopeAuthorizer) (client : QueryCellClient) (principal : Principal)
    (request : ClientQueryRequest F) (cypherEngine : CypherEngineMode) :
    Except GraphError (Execution F) := do
  request.admission
  let action ← authorizeQuery authorizer principal request cypherEngine
  let (batch, parameters) ← prepareTransportParameters request
  checkBatchAccess batch action
  let context := queryContext request parameters cypherEngine
  match batch with
  | some operation => client.executeBatch context operation
  | none => client.executeCypherRows context request.query

/-- The columns that `prepare_page_request_body` announces; those of a batch are known, those of a
statement come out of its parser. -/
def announceColumns (query : QueryText) (parameters : F.Parameters)
    (cypherEngine : CypherEngineMode) (action : QueryTransportAction)
    (batch : Option (QueryBatchOperation F.BatchItems)) : Except GraphError Unit := do
  if batch.isSome then
    return ()
  else if action = .write then
    refuseIf (← parseOpencypherMutationQuery F query parameters).isNone
      (.unsupportedQuery "ClientProtocol"
        "write query is not executable by the mutation engine" .mutation)
  else if (← parseNativeProcedureColumns F query).isNone then
    match cypherEngine with
    | .experimental => let _ ← experimentalQueryColumns F query parameters
    | .legacy => let _ ← parseOpencypherRowQuery F query parameters

/-- `prepare_page_request_body`: the action, the batch and the parameters of a prepared
statement. -/
def preparePageRequest (authorizer : ScopeAuthorizer) (principal : Principal)
    (request : ClientQueryRequest F) (cypherEngine : CypherEngineMode) :
    Except GraphError
      (QueryTransportAction × Option (QueryBatchOperation F.BatchItems) × F.Parameters) := do
  request.admission
  let action ← authorizeQuery authorizer principal request cypherEngine
  let (batch, parameters) ← prepareTransportParameters request
  announceColumns request.query parameters cypherEngine action batch
  checkBatchAccess batch action
  return (action, batch, parameters)

/-- `execute_prepared_page_body`, which authorises again as grants can change between pages:
`authorizer` is the one in force now. -/
def executePreparedPage (authorizer : ScopeAuthorizer) (client : QueryCellClient)
    (principal : Principal) (request : ClientQueryRequest F) (cypherEngine : CypherEngineMode)
    (prepared : QueryTransportAction × Option (QueryBatchOperation F.BatchItems) × F.Parameters)
    (cursor : Option Nat) (pageSize : Nat) : Except GraphError (Execution F) := do
  let (action, batch, parameters) := prepared
  authorizer.authorizeScope principal request.scope action
  refuseIf (action = .write ∧ cursor.isSome)
    (mutationCursorError "ClientProtocol" "mutation queries cannot continue from a result cursor")
  let context := queryContext request parameters cypherEngine
  match cursor with
  | some cursor => return .serverCursor context cursor pageSize
  | none =>
    match batch with
    | some operation => client.executeBatch context operation
    | none =>
      if action = .read then client.executeCypherRows context request.query
      else client.executeCypherRowsPage context request.query none pageSize

/-! ## Requests and their way through a node -/

variable (F) in
/-- The ways a request enters a node. A client page is prepared under one authorizer and executed
under the one in force when it is pulled. -/
inductive QueryRequest where
  | clientRows (principal : Principal) (request : ClientQueryRequest F)
      (cypherEngine : CypherEngineMode)
  | clientPage (principal : Principal) (request : ClientQueryRequest F)
      (cypherEngine : CypherEngineMode) (preparedUnder : ScopeAuthorizer) (cursor : Option Nat)
      (pageSize : Nat)
  | transportRows (sender : TransportSender) (context : QueryContext F) (query : QueryText)
  | transportPage (sender : TransportSender) (context : QueryContext F) (query : QueryText)
      (cursor : Option Nat) (pageSize : Nat)
  | transportBatch (sender : TransportSender) (context : QueryContext F)
      (operation : QueryBatchOperation F.BatchItems)
  | transportBatchPage (sender : TransportSender) (context : QueryContext F)
      (operation : QueryBatchOperation F.BatchItems) (cursor : Option Nat)

/-- The access a request is authorised for: its text is classified, a bare batch says whether it
writes. -/
def QueryRequest.access : QueryRequest F → Except GraphError OpenCypherQueryAccess
  | .clientRows _ request _ | .clientPage _ request .. =>
    classifyOpencypherQueryAccess F request.query
  | .transportRows _ _ query | .transportPage _ _ query .. =>
    classifyOpencypherQueryAccess F query
  | .transportBatch _ _ operation | .transportBatchPage _ _ operation _ =>
    .ok operation.access

/-- The scope a request names. -/
def QueryRequest.scope : QueryRequest F → GraphScope
  | .clientRows _ request _ | .clientPage _ request .. => request.scope
  | .transportRows _ context _ | .transportPage _ context .. | .transportBatch _ context _
  | .transportBatchPage _ context .. => context.scope

/-- The caller of a request, as far as authentication finds one. -/
def QueryRequest.principal : QueryRequest F → Except GraphError Principal
  | .clientRows principal .. | .clientPage principal .. => .ok principal
  | .transportRows sender .. | .transportPage sender .. | .transportBatch sender ..
  | .transportBatchPage sender .. => sender.principal

/-- What a node serves requests with: its authorizer and the client behind it. -/
structure Gateway where
  authorizer : ScopeAuthorizer
  client : QueryCellClient

/-- The executor a request reaches on a node, or the error that stops it. -/
def Gateway.route (gateway : Gateway) : QueryRequest F → Except GraphError (Execution F)
  | .clientRows principal request cypherEngine =>
    executeRows gateway.authorizer gateway.client principal request cypherEngine
  | .clientPage principal request cypherEngine preparedUnder cursor pageSize => do
    let prepared ← preparePageRequest preparedUnder principal request cypherEngine
    executePreparedPage gateway.authorizer gateway.client principal request cypherEngine prepared
      cursor pageSize
  | .transportRows sender context query =>
    serveRows gateway.authorizer sender gateway.client.executeCypherRows context query
  | .transportPage sender context query cursor pageSize =>
    servePage gateway.authorizer sender gateway.client.executeCypherRowsPage context query cursor
      pageSize
  | .transportBatch sender context operation =>
    serveBatch gateway.authorizer sender gateway.client.executeBatch context operation
  | .transportBatchPage sender context operation cursor =>
    serveBatchPage gateway.authorizer sender gateway.client.executeBatch context operation cursor

end HydraDb
