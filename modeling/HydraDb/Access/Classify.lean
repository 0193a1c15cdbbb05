import HydraDb.Access.Text

/-!
# Whether a query reads or writes

`classify_opencypher_query_access` (`query/opencypher.rs`) is the question every layer that routes
a query asks first. It is answered by a text test for native procedures, a union splitter, a walk
over the clauses libcypher-parser returned (`query_access`), and, when libcypher cannot answer, by
whether the Cypher 25 adapter lowers the text to a typed read plan.

Execution is decided later by other functions over the same texts: `lower_mutation_query_body`
walks the clauses for a mutation, `lower_unwind_batch` for a batch. A `Frontend` holds what the
parsers return for a text, so that everything below is said about all of them at once: the
libcypher parse of a text, the lowering of single clauses, and the Cypher 25 lowering are
arbitrary functions.
-/

namespace HydraDb

/-- `OpenCypherQueryAccess`. -/
inductive OpenCypherQueryAccess where
  | read
  | write
  deriving DecidableEq

/-! ## Parsed statements -/

/-- The clause kinds that the walks tell apart (`AstKind`). -/
inductive AstKind where
  | create
  | merge
  | delete
  | set
  | remove
  | unwind
  | matchClause
  | withClause
  | returnClause
  | union
  | other
  deriving DecidableEq

/-- The kinds `query_access` counts as write clauses. -/
def AstKind.isWrite : AstKind → Bool
  | .create | .merge | .delete | .set | .remove => true
  | _ => false

/-- A clause of a query, with libcypher's node for it. -/
structure Clause (Node : Type) where
  kind : AstKind
  node : Node

/-- The body of a statement: a query with its clauses, or something else with its type name. -/
inductive StatementBody (Node : Type) where
  | query (clauses : List (Clause Node))
  | other (typeName : String)

/-- A directive of a parsed text: a statement, or something else with its type name. -/
inductive Directive (Node : Type) where
  | statement (body : StatementBody Node)
  | other (typeName : String)

/-- `ParsedCypher`: what libcypher returned for a text it accepted. -/
structure ParsedCypher (Node : Type) where
  directives : List (Directive Node)

/-- `ParsedUnwindBatchKind`, without the fields, which `ParsedUnwindBatch.template` carries. -/
inductive ParsedUnwindBatchKind where
  | outNeighbors
  | createEdges
  | createEdgesBetweenLabeledVertices
  | deleteEdges
  | deleteVertices
  | deleteIsolatedVertices
  | deleteVerticesAndIsolatedCandidates
  | deleteRelationshipsByProperty
  | upsertVertices
  | createRelationshipsBetweenLabeledVertices
  | mergeRelationshipsBetweenLabeledVertices
  deriving DecidableEq

/-- The kinds that `query_access` counts as writing batches. -/
def ParsedUnwindBatchKind.isWrite : ParsedUnwindBatchKind → Bool
  | .createEdges | .createEdgesBetweenLabeledVertices | .deleteEdges | .deleteVertices
  | .deleteIsolatedVertices | .deleteVerticesAndIsolatedCandidates
  | .deleteRelationshipsByProperty | .upsertVertices
  | .createRelationshipsBetweenLabeledVertices
  | .mergeRelationshipsBetweenLabeledVertices => true
  | .outNeighbors => false

/-- `ParsedUnwindBatch`. `updateIfNewerBy` is the guard of an upsert or a merge. -/
structure ParsedUnwindBatch (Template : Type) where
  parameter : String
  kind : ParsedUnwindBatchKind
  updateIfNewerBy : Option String
  template : Template

/-- The parsers and the lowering of single clauses, as functions of what they are given. -/
structure Frontend where
  /-- libcypher's clause nodes. -/
  Node : Type
  /-- A request's parameters, before they are split. -/
  RequestParameters : Type
  /-- Scalar parameters and the list sidecar. -/
  Parameters : Type
  /-- A lowered mutation action. -/
  Action : Type
  /-- `ParsedMutationQuery`. -/
  Mutation : Type
  /-- `ParsedRowQuery`. -/
  RowQuery : Type
  /-- The fields of a `ParsedUnwindBatchKind`. -/
  BatchTemplate : Type
  /-- The rows of a batch operation. -/
  BatchItems : Type
  /-- `NativeProcedure`. -/
  Procedure : Type
  /-- `LoweredTemplate`. -/
  Template : Type
  /-- Whether the `client-api` feature is built in. -/
  clientApi : Bool
  /-- Whether the `experimental-cypher-engine` feature is built in. -/
  experimentalEngine : Bool
  /-- `ParsedCypher::parse`. -/
  parse : QueryText → Except GraphError (ParsedCypher Node)
  /-- `lower_create_mutations`. -/
  lowerCreateMutations : Node → Parameters → Except GraphError Mutation
  /-- `lower_simple_merge`. -/
  lowerSimpleMerge : Node → Parameters → Except GraphError Mutation
  /-- `lower_delete_actions`. -/
  lowerDeleteActions : Node → Except GraphError (List Action)
  /-- `lower_set_actions`. -/
  lowerSetActions : Node → Parameters → Except GraphError (List Action)
  /-- `lower_remove_actions`. -/
  lowerRemoveActions : Node → Except GraphError (List Action)
  /-- The lowering of the patterns, the barrier and the `RETURN` at the end of
  `lower_mutation_query_body`. -/
  lowerMatchMutation : List Node → Option Node → List Action → Option Node → Parameters →
    Except GraphError Mutation
  /-- `lower_row_query`. -/
  lowerRowQuery : ParsedCypher Node → Parameters → Except GraphError RowQuery
  /-- `lower_independently_parsed_union_arms`. -/
  lowerUnionArms : List (ParsedCypher Node) → Bool → Parameters → Except GraphError RowQuery
  /-- `lower_unwind_batch`. -/
  lowerUnwindBatch : ParsedCypher Node →
    Except GraphError (Option (ParsedUnwindBatch BatchTemplate))
  /-- `split_query_parameters`. -/
  splitQueryParameters : RequestParameters → Except GraphError Parameters
  /-- The parameters an `UNWIND` batch leaves for the statement: none. -/
  noParameters : Parameters
  /-- The rows of a batch, read from the parameter it names. -/
  batchItems : ParsedUnwindBatch BatchTemplate → RequestParameters → Except GraphError BatchItems
  /-- The native procedure parser, on a text that opens with `CALL algo.`. -/
  parseNativeCall : QueryText → Parameters → Except GraphError (Option Procedure)
  /-- The column part of the native procedure parser. -/
  nativeCallColumns : QueryText → Except GraphError (Option (List String))
  /-- `lowered_template`: a function of the text, as its cache is keyed by the text. -/
  loweredTemplate : QueryText → Except GraphError Template
  /-- The planning of a lowered template with its parameters bound. -/
  planTemplate : Template → Parameters → Except GraphError (List String)

variable (F : Frontend)

/-! ## The clause walk of `query_access` -/

/-- The query clauses of a parse result that holds exactly one statement. -/
def ParsedCypher.soleQuery {Node : Type} (parsed : ParsedCypher Node) (feature : String) :
    Except GraphError (List (Clause Node)) :=
  match parsed.directives with
  | [.statement (.query clauses)] => .ok clauses
  | [.statement (.other typeName)] => .error (parseError s!"expected query, got {typeName}")
  | [.other typeName] => .error (parseError s!"expected statement, got {typeName}")
  | _ => .error (unsupported .other feature)

/-- The end of `query_access` for a query with an `UNWIND` clause. -/
def unwindAccess (parsed : ParsedCypher F.Node) (hasWriteClause : Bool) :
    Except GraphError OpenCypherQueryAccess :=
  if F.clientApi then do
    match ← F.lowerUnwindBatch parsed with
    | none =>
      throw (unsupported .unwind "query transport cannot authorize an unsupported UNWIND query")
    | some batch =>
      refuseIf (batch.kind.isWrite ≠ hasWriteClause)
        (.corruptValue "opencypher/unwind_access"
          "UNWIND access classification disagrees with its clauses")
      return if batch.kind.isWrite then .write else .read
  else
    .error (unsupported .unwind "UNWIND execution requires the client-api feature")

/-- `query_access`. -/
def queryAccess (parsed : ParsedCypher F.Node) : Except GraphError OpenCypherQueryAccess := do
  let clauses ← parsed.soleQuery "query transport requires exactly one Cypher statement"
  refuseIf clauses.isEmpty
    (unsupported .other "query transport requires at least one Cypher clause")
  let hasWriteClause := clauses.any (·.kind.isWrite)
  refuseIf (clauses.any (·.kind == .other))
    (unsupported .other "query transport cannot authorize an unsupported Cypher clause")
  if clauses.any (·.kind == .unwind) then
    unwindAccess F parsed hasWriteClause
  else
    return if hasWriteClause then .write else .read

/-! ## Cypher 25 texts -/

/-- `experimental_query_error` for a parse failure. -/
def experimentalParseError (message : String) : GraphError :=
  .unsupportedQuery "Cypher25" message .parseError

/-- `is_experimental_explain`: the first word is `EXPLAIN`. -/
def isExperimentalExplain (query : QueryText) : Bool :=
  eqIgnoreAsciiCase ((trimStart query).takeWhile (!isWhitespace ·)) "EXPLAIN".toList

/-- `split_explain`. -/
def splitExplain (query : QueryText) : Except GraphError (Bool × QueryText) :=
  let query := trim query
  if query.isEmpty then .error (experimentalParseError "query is empty")
  else if !isExperimentalExplain query then .ok (false, query)
  else
    let rest := trimStart (query.dropWhile (!isWhitespace ·))
    if rest.isEmpty then
      .error (experimentalParseError "EXPLAIN must be followed by a Cypher query")
    else .ok (true, rest)

/-- `is_cypher25_read_query`: the Cypher 25 adapter lowers the text to a typed read plan. -/
def isCypher25ReadQuery (query : QueryText) : Bool :=
  match splitExplain query with
  | .ok (_, query) => (F.loweredTemplate query).isOk
  | .error _ => false

/-! ## Classification -/

/-- The top-level union of a text, if it has one. -/
def topLevelUnion (query : QueryText) : Except GraphError (Option TopLevelUnion) :=
  if queryMightContainUnion query then splitTopLevelUnion query else .ok none

/-- `classify_with_libcypher`. -/
def classifyWithLibcypher (query : QueryText) : Except GraphError OpenCypherQueryAccess := do
  if isNativePathProcedure query then
    return .read
  else
    match ← topLevelUnion query with
    | some union =>
      let arms ← union.arms.mapM F.parse
      for arm in arms do
        refuseIf ((← queryAccess F arm) ≠ .read)
          (unsupported .union "UNION only supports read queries")
      return .read
    | none => queryAccess F (← F.parse query)

/-- The errors of libcypher after which the Cypher 25 adapter is asked. -/
def GraphError.asksCypher25 : GraphError → Bool
  | .queryParse .. | .unsupportedQuery .. => true
  | _ => false

/-- `classify_opencypher_query_access`. -/
def classifyOpencypherQueryAccess (query : QueryText) : Except GraphError OpenCypherQueryAccess :=
  match classifyWithLibcypher F query with
  | .ok access => .ok access
  | .error error =>
    if F.experimentalEngine && error.asksCypher25 && isCypher25ReadQuery F query then .ok .read
    else .error error

/-! ## Lowering a mutation -/

/-- What the clause loop of `lower_mutation_query_body` has collected. -/
structure MutationBody where
  matchClauses : List F.Node
  actions : List F.Action
  barrier : Option F.Node
  returnClause : Option F.Node
  sawMutation : Bool

/-- The loop's state at its start. -/
def MutationBody.empty : MutationBody F := ⟨[], [], none, none, false⟩

/-- The loop's state after a write clause with its actions. -/
def MutationBody.act {F : Frontend} (body : MutationBody F) (actions : List F.Action) :
    MutationBody F :=
  { body with actions := body.actions ++ actions, sawMutation := true }

/-- One round of the clause loop of `lower_mutation_query_body`: the state it goes on with, or
`none` where the source leaves the query to the row path. -/
def mutationClause (parameters : F.Parameters) (body : MutationBody F) (clause : Clause F.Node) :
    Except GraphError (Option (MutationBody F)) :=
  if !body.sawMutation && clause.kind == .matchClause then
    if body.barrier.isSome then
      .error (unsupported .mutation
        "MATCH after a mutation WITH barrier is not executable in Query engine")
    else .ok (some { body with matchClauses := body.matchClauses ++ [clause.node] })
  else if !body.sawMutation && clause.kind == .withClause then
    if body.barrier.isSome then
      .error (unsupported .mutation "a mutation accepts at most one WITH barrier in Query engine")
    else if body.matchClauses.isEmpty then .ok none
    else .ok (some { body with barrier := some clause.node })
  else if body.returnClause.isSome then
    .error (unsupported .mutation "mutation queries cannot continue after RETURN")
  else if clause.kind == .delete then do
    return some (body.act (← F.lowerDeleteActions clause.node))
  else if clause.kind == .set then do
    return some (body.act (← F.lowerSetActions clause.node parameters))
  else if clause.kind == .remove then do
    return some (body.act (← F.lowerRemoveActions clause.node))
  else if body.sawMutation && clause.kind == .returnClause then
    .ok (some { body with returnClause := some clause.node })
  else if body.sawMutation then
    .error (unsupported .mutation
      "mutation queries cannot continue with MATCH, RETURN, or WITH after writes")
  else .ok none

/-- The clause loop of `lower_mutation_query_body`. -/
def mutationClauses (parameters : F.Parameters) :
    MutationBody F → List (Clause F.Node) → Except GraphError (Option (MutationBody F))
  | body, [] => .ok (some body)
  | body, clause :: clauses => do
    match ← mutationClause F parameters body clause with
    | none => return none
    | some body => mutationClauses parameters body clauses

/-- What `lower_mutation_query_body` does after its clause loop. -/
def finishMutation (parameters : F.Parameters) (body : MutationBody F) :
    Except GraphError (Option F.Mutation) := do
  if !body.sawMutation then
    return none
  else
    refuseIf body.matchClauses.isEmpty
      (unsupported .mutation "DELETE, SET, and REMOVE require a preceding MATCH")
    refuseIf body.actions.isEmpty (unsupported .mutation "mutation query has no executable actions")
    return some (← F.lowerMatchMutation body.matchClauses body.barrier body.actions
      body.returnClause parameters)

/-- `lower_mutation_query_body`. -/
def lowerMutationQueryBody (parameters : F.Parameters) (clauses : List (Clause F.Node)) :
    Except GraphError (Option F.Mutation) :=
  match clauses with
  | [] => .ok none
  | first :: rest =>
    if first.kind == .create then
      if rest.isEmpty then do
        return some (← F.lowerCreateMutations first.node parameters)
      else .error (unsupported .mutation
        "CREATE with following clauses is not executable in Query engine")
    else if first.kind == .merge then
      if rest.isEmpty then do
        return some (← F.lowerSimpleMerge first.node parameters)
      else .error (unsupported .mutation
        "MERGE with following clauses is not executable in Query engine")
    else do
      match ← mutationClauses F parameters (.empty F) (first :: rest) with
      | none => return none
      | some body => finishMutation F parameters body

/-- `lower_mutation_query`. -/
def lowerMutationQuery (parameters : F.Parameters) (parsed : ParsedCypher F.Node) :
    Except GraphError (Option F.Mutation) := do
  let clauses ← parsed.soleQuery "only a single Cypher statement is supported in Query engine"
  lowerMutationQueryBody F parameters clauses

/-- `parse_opencypher_mutation_query_with_list_parameters`. -/
def parseOpencypherMutationQuery (query : QueryText) (parameters : F.Parameters) :
    Except GraphError (Option F.Mutation) := do
  lowerMutationQuery F parameters (← F.parse query)

/-- `parse_opencypher_row_query_with_list_parameters`. -/
def parseOpencypherRowQuery (query : QueryText) (parameters : F.Parameters) :
    Except GraphError F.RowQuery := do
  match ← topLevelUnion query with
  | some union => F.lowerUnionArms (← union.arms.mapM F.parse) union.unionAll parameters
  | none => F.lowerRowQuery (← F.parse query) parameters

end HydraDb
