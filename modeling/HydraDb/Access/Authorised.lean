import HydraDb.Access.Gateway

/-!
# A request authorised as a read never writes

Every layer that decides where a query goes asks `classify_opencypher_query_access`, and the
mutation executor stands behind that answer on every route: the routed cluster calls
`execute_cypher` only for a text classified as a write, the row routes of the shard's legacy engine
never ask the mutation parser, and the experimental ones ask it only about a text that is not
classified as a read. So a read stays a read whatever the parsers make of its text, and a write is
behind the authorizer of the entry it came through.

`Execution.ReadsOnly` says that an executor leaves the storage as it is, over every backend;
`ScopeAuthorizer.Covers` what a grant for a write has to cover. Both are proved layer by layer, from
the shard up, and for the chain of TCP clients by induction on it.
-/

namespace HydraDb

open QueryCellClient RoutedGraphCluster

variable {F : Frontend} {parameters : F.Parameters} {access : OpenCypherQueryAccess}
  {mutation : F.Mutation} {context : QueryContext F} {query : QueryText}
  {execution : Execution F} {operation : QueryBatchOperation F.BatchItems}
  {cluster : RoutedGraphCluster} {client : QueryCellClient}
  {authorizer : ScopeAuthorizer} {principal : Principal} {scope : GraphScope}

/-! ## What the mutation parser accepts is a write -/

/-- One round of the mutation walk accepts no clause of an unknown kind and no `UNWIND`, and has
seen a mutation afterwards exactly if it had before or the clause is a write. -/
theorem mutationClause_some (h : mutationClause F parameters body clause = .ok (some body')) :
    clause.kind ≠ .other ∧ clause.kind ≠ .unwind ∧
      body'.sawMutation = (body.sawMutation || clause.kind.isWrite) := by
  unfold mutationClause at h
  split at h
  · -- a leading `MATCH`
    split at h
    · cases h
    · cases h; simp_all [AstKind.isWrite]
  split at h
  · -- the barrier
    replace h := rest_of_ne h nofun
    split at h
    · cases h
    · cases h; simp_all [AstKind.isWrite]
  split at h
  · cases h
  -- the three write clauses
  split at h
  · obtain ⟨actions, -, hbody⟩ := bind_ok h
    cases hbody
    simp_all [MutationBody.act, AstKind.isWrite]
  split at h
  · obtain ⟨actions, -, hbody⟩ := bind_ok h
    cases hbody
    simp_all [MutationBody.act, AstKind.isWrite]
  split at h
  · obtain ⟨actions, -, hbody⟩ := bind_ok h
    cases hbody
    simp_all [MutationBody.act, AstKind.isWrite]
  split at h
  · -- `RETURN` after a write
    cases h; simp_all
  · split at h <;> cases h

/-- What the mutation walk accepts has no clause that `query_access` cannot place, and a write
clause if it has seen a mutation. -/
theorem mutationClauses_some (h : mutationClauses F parameters body clauses = .ok (some body')) :
    (∀ clause ∈ clauses, clause.kind ≠ .other ∧ clause.kind ≠ .unwind) ∧
      body'.sawMutation = (body.sawMutation || clauses.any (·.kind.isWrite)) := by
  induction clauses generalizing body with
  | nil => cases h; simp
  | cons clause clauses ih =>
    obtain ⟨next, hnext, hrest⟩ := bind_ok h
    cases next with
    | none => cases hrest
    | some =>
      obtain ⟨hother, hunwind, hsaw⟩ := mutationClause_some hnext
      obtain ⟨hkinds, hsaw'⟩ := ih hrest
      refine ⟨?_, by simp [hsaw', hsaw, Bool.or_assoc]⟩
      rintro other (_ | ⟨_, hmem⟩)
      · exact ⟨hother, hunwind⟩
      · exact hkinds other hmem

/-- A mutation is finished only after a write clause was seen. -/
theorem sawMutation_of_finishMutation (h : finishMutation F parameters body = .ok (some mutation)) :
    body.sawMutation = true := by
  cases hsaw : body.sawMutation with
  | true => rfl
  | false =>
    rw [finishMutation, hsaw] at h
    cases h

/-- A clause list that the mutation lowering accepts has a write clause, and no clause that
`query_access` cannot place. -/
theorem lowerMutationQueryBody_some
    (h : lowerMutationQueryBody F parameters clauses = .ok (some mutation)) :
    clauses.any (·.kind.isWrite) ∧
      ∀ clause ∈ clauses, clause.kind ≠ .other ∧ clause.kind ≠ .unwind := by
  cases clauses with
  | nil => cases h
  | cons =>
    unfold lowerMutationQueryBody at h
    dsimp only at h
    split at h
    · rename_i hcreate
      split at h <;> simp_all [AstKind.isWrite]
    split at h
    · rename_i hmerge
      split at h <;> simp_all [AstKind.isWrite]
    obtain ⟨body, hbody, hfinish⟩ := bind_ok h
    cases body with
    | none => cases hfinish
    | some body =>
      obtain ⟨hkinds, hsaw⟩ := mutationClauses_some hbody
      refine ⟨?_, hkinds⟩
      have hseen : body.sawMutation = true := sawMutation_of_finishMutation hfinish
      simpa [hseen, MutationBody.empty] using hsaw.symm

/-- The parse result holds one query whatever the refusal would have said. -/
theorem ParsedCypher.soleQuery_ok {parsed : ParsedCypher Node}
    (h : parsed.soleQuery feature = .ok clauses) :
    parsed.soleQuery feature' = .ok clauses := by
  unfold soleQuery at h ⊢
  split at h <;> simp_all

/-- Whatever the mutation lowering accepts, the clause walk of `query_access` calls a write. -/
theorem queryAccess_eq_write (h : lowerMutationQuery F parameters parsed = .ok (some mutation)) :
    queryAccess F parsed = .ok .write := by
  obtain ⟨clauses, hclauses, hbody⟩ := bind_ok h
  obtain ⟨hwrite, hkinds⟩ := lowerMutationQueryBody_some hbody
  have hne : clauses ≠ [] := by rintro rfl; simp at hwrite
  have hother : ¬ clauses.any (·.kind == .other) := by
    simpa using fun clause hmem => (hkinds clause hmem).1
  have hunwind : ¬ clauses.any (·.kind == .unwind) := by
    simpa using fun clause hmem => (hkinds clause hmem).2
  refine Except.bind_eq_ok_iff.2 ⟨clauses, ParsedCypher.soleQuery_ok hclauses, ?_⟩
  refine Except.bind_eq_ok_iff.2 ⟨(), refuseIf_eq_ok.2 (by simpa using hne), ?_⟩
  refine Except.bind_eq_ok_iff.2 ⟨(), refuseIf_eq_ok.2 hother, ?_⟩
  rw [if_neg hunwind, if_pos hwrite]
  rfl

/-! ## Executors that leave the storage alone -/

/-- The executor leaves every storage state as it is, whatever runs behind it. -/
def Execution.ReadsOnly (execution : Execution F) : Prop :=
  ∀ (Store Answer : Type) (backend : Backend F Store Answer) (store : Store),
    (execution.run backend store).2 = store

/-- A batch that does not say it writes is the out-neighbour batch. -/
theorem QueryBatchOperation.kind_of_not_isWrite (h : operation.isWrite = false) :
    operation.kind = .outNeighbors := by
  unfold isWrite at h
  split at h <;> first | assumption | cases h

theorem readsOnly_batch (h : operation.isWrite = false) :
    (Execution.batch context operation).ReadsOnly := by
  intro Store Answer backend store
  simp [Execution.run, operation.kind_of_not_isWrite h]

/-- What every route has to show of the executor it ends in: it runs in the scope asked for, does
not write for a read, and a batch agrees with the access it was routed by. -/
structure Execution.Respects (execution : Execution F) (scope : GraphScope)
    (access : OpenCypherQueryAccess) : Prop where
  scope : execution.context.scope = scope
  readsOnly : access = .read → execution.ReadsOnly
  batch : ∀ context operation, execution = .batch context operation →
    (operation.isWrite = true ↔ access = .write)

/-! ## The shard -/

theorem executeOpencypherRows_respects
    (h : executeOpencypherRows context query shape = .ok execution) :
    execution.Respects context.scope access := by
  obtain ⟨procedure, -, hrest⟩ := bind_ok h
  cases procedure with
  | some => cases hrest; exact ⟨rfl, fun _ _ _ _ _ => rfl, nofun⟩
  | none =>
    obtain ⟨parsed, -, hrows⟩ := bind_ok hrest
    cases hrows
    exact ⟨rfl, fun _ _ _ _ _ => rfl, nofun⟩

/-- The experimental route asks the mutation parser only about texts that are not reads. -/
theorem parseExperimentalRouteMutation_some
    (h : parseExperimentalRouteMutation F query parameters = .ok (some mutation)) :
    classifyOpencypherQueryAccess F query ≠ .ok .read := by
  intro hread
  rw [parseExperimentalRouteMutation, hread] at h
  cases h

section

variable (haccess : classifyOpencypherQueryAccess F query = .ok access)

include haccess

theorem respects_mutation
    (h : parseExperimentalRouteMutation F query parameters = .ok (some mutation)) :
    (Execution.mutation context mutation).Respects context.scope access := by
  refine ⟨rfl, ?_, nofun⟩
  rintro rfl
  exact absurd haccess (parseExperimentalRouteMutation_some h)

theorem executeExperimental_respects (h : executeExperimental context query = .ok execution) :
    execution.Respects context.scope access := by
  obtain ⟨procedure, -, hrest⟩ := bind_ok h
  cases procedure with
  | some => cases hrest; exact ⟨rfl, fun _ _ _ _ _ => rfl, nofun⟩
  | none =>
    obtain ⟨mutation, hmutation, hrest⟩ := bind_ok hrest
    cases mutation with
    | some =>
      cases hrest
      exact respects_mutation haccess hmutation
    | none =>
      dsimp only at hrest
      split at hrest
      · cases hrest; exact ⟨rfl, fun _ _ _ _ _ => rfl, nofun⟩
      · cases hrest

theorem shardExecuteCypherRows_respects (h : shardExecuteCypherRows context query = .ok execution) :
    execution.Respects context.scope access := by
  unfold shardExecuteCypherRows at h
  split at h
  · exact executeExperimental_respects haccess h
  · exact executeOpencypherRows_respects h

theorem shardExecuteCypherRowsPage_respects
    (h : shardExecuteCypherRowsPage context query cursor pageSize = .ok execution) :
    execution.Respects context.scope access := by
  unfold shardExecuteCypherRowsPage at h
  split at h
  · exact executeOpencypherRows_respects h
  obtain ⟨procedure, -, hrest⟩ := bind_ok h
  cases procedure with
  | some => cases hrest; exact ⟨rfl, fun _ _ _ _ _ => rfl, nofun⟩
  | none =>
    replace hrest := seq_ok hrest
    obtain ⟨mutation, hmutation, hrest⟩ := bind_ok hrest
    cases mutation with
    | some =>
      cases hrest
      exact respects_mutation haccess hmutation
    | none => cases hrest

omit haccess in
/-- The unguarded entry of the shard, which only texts classified as writes reach. -/
theorem shardExecuteCypher_respects (haccess : classifyOpencypherQueryAccess F query = .ok .write)
    (h : shardExecuteCypher context query = .ok execution) :
    execution.Respects context.scope .write := by
  unfold shardExecuteCypher at h
  split at h
  · exact executeExperimental_respects haccess h
  obtain ⟨procedure, -, hrest⟩ := bind_ok h
  cases procedure with
  | some => cases hrest; exact ⟨rfl, nofun, nofun⟩
  | none =>
    obtain ⟨mutation, -, hrest⟩ := bind_ok hrest
    cases mutation with
    | some => cases hrest; exact ⟨rfl, nofun, nofun⟩
    | none =>
      obtain ⟨parsed, -, hrows⟩ := bind_ok hrest
      cases hrows
      exact ⟨rfl, nofun, nofun⟩

/-! ## The routed cluster -/

theorem routedClientQueryIsMutation_ok :
    routedClientQueryIsMutation F query = .ok (decide (access = .write)) := by
  rw [routedClientQueryIsMutation, haccess]
  rfl

omit haccess in
theorem RoutedGraphCluster.executeCypher_respects
    (haccess : classifyOpencypherQueryAccess F query = .ok .write)
    (h : cluster.executeCypher context query = .ok execution) :
    execution.Respects context.scope .write := by
  replace h := seq_ok₂ h
  rw [haccess, Except.ok_bind] at h
  replace h := seq_ok h
  exact shardExecuteCypher_respects haccess h

theorem RoutedGraphCluster.clientRows_respects
    (h : cluster.clientRows context query = .ok execution) :
    execution.Respects context.scope access := by
  rw [clientRows, routedClientQueryIsMutation_ok haccess, Except.ok_bind] at h
  cases access with
  | write => exact executeCypher_respects haccess h
  | read =>
    replace h := seq_ok₂ h
    exact shardExecuteCypherRows_respects haccess h

theorem RoutedGraphCluster.clientPage_respects
    (h : cluster.clientPage context query cursor pageSize = .ok execution) :
    execution.Respects context.scope access := by
  rw [clientPage, routedClientQueryIsMutation_ok haccess, Except.ok_bind] at h
  cases access with
  | write =>
    replace h := seq_ok h
    exact executeCypher_respects haccess h
  | read =>
    replace h := seq_ok₂ h
    exact shardExecuteCypherRowsPage_respects haccess h

/-! ## Chains of clients -/

theorem QueryCellClient.executeCypherRows_respects
    (h : client.executeCypherRows context query = .ok execution) :
    execution.Respects context.scope access := by
  induction client with
  | routed => exact clientRows_respects haccess h
  | scopedRouted =>
    rw [executeCypherRows, routedClientQueryIsMutation_ok haccess, Except.ok_bind] at h
    obtain ⟨cluster, -, h⟩ := bind_ok h
    exact clientRows_respects haccess h
  | tcp authorizer sender served ih =>
    rw [executeCypherRows, serveRows] at h
    obtain ⟨principal, -, h⟩ := bind_ok h
    obtain ⟨action, -, h⟩ := bind_ok h
    replace h := seq_ok h
    exact ih h

theorem QueryCellClient.executeCypherRowsPage_respects
    (h : client.executeCypherRowsPage context query cursor pageSize = .ok execution) :
    execution.Respects context.scope access := by
  induction client with
  | routed => exact clientPage_respects haccess h
  | scopedRouted =>
    rw [executeCypherRowsPage, routedClientQueryIsMutation_ok haccess, Except.ok_bind] at h
    obtain ⟨cluster, -, h⟩ := bind_ok h
    cases access with
    | write =>
      replace h := seq_ok h
      exact executeCypher_respects haccess h
    | read => exact clientPage_respects haccess h
  | tcp authorizer sender served ih =>
    rw [executeCypherRowsPage, servePage] at h
    obtain ⟨principal, -, h⟩ := bind_ok h
    obtain ⟨action, -, h⟩ := bind_ok h
    replace h := seq_ok₂ h
    exact ih h

end

theorem respects_batch :
    (Execution.batch context operation).Respects context.scope operation.access where
  scope := rfl
  readsOnly hread := readsOnly_batch (by simpa [QueryBatchOperation.access] using hread)
  batch := by
    rintro _ _ ⟨⟩
    simp [QueryBatchOperation.access]

theorem RoutedGraphCluster.executeBatch_respects
    (h : cluster.executeBatch context operation = .ok execution) :
    execution.Respects context.scope operation.access := by
  replace h := seq_ok₂ h
  split at h
  · cases h; exact respects_batch
  · replace h := seq_ok h
    cases h; exact respects_batch

theorem QueryCellClient.executeBatch_respects
    (h : client.executeBatch context operation = .ok execution) :
    execution.Respects context.scope operation.access := by
  induction client with
  | routed => exact RoutedGraphCluster.executeBatch_respects h
  | scopedRouted =>
    rw [executeBatch] at h
    obtain ⟨cluster, -, h⟩ := bind_ok h
    exact RoutedGraphCluster.executeBatch_respects h
  | tcp authorizer sender served ih =>
    rw [executeBatch, serveBatch] at h
    obtain ⟨principal, -, h⟩ := bind_ok h
    replace h := seq_ok h
    exact ih h

/-! ## Grants -/

/-- Some grant of the caller covers the scope for a write: it names the namespace itself, or one
above it with its descendants, the graph or every graph, and holds the write or the admin action.
A server without grants opens the default scope alone. -/
def ScopeAuthorizer.Covers (authorizer : ScopeAuthorizer) (principal : Principal)
    (scope : GraphScope) : Prop :=
  match authorizer with
  | .granted grants => ∃ grant ∈ grants principal,
      (grant.namespacePath = scope.namespacePath ∨ grant.includeDescendants = true ∧
        grant.namespacePath.segments <+: scope.namespacePath.segments) ∧
      (grant.graphId = none ∨ grant.graphId = some scope.graphId) ∧
      (.write ∈ grant.actions ∨ .admin ∈ grant.actions)
  | .defaultScope => scope = .default

/-- What a grant that allows an action covers. -/
theorem QueryTransportScopeGrant.covers_of_allows {grant : QueryTransportScopeGrant}
    (h : grant.allows scope action = true) :
    (grant.namespacePath = scope.namespacePath ∨ grant.includeDescendants = true ∧
        grant.namespacePath.segments <+: scope.namespacePath.segments) ∧
      (grant.graphId = none ∨ grant.graphId = some scope.graphId) ∧ action ∈ grant.actions := by
  unfold allows at h
  simp only [Bool.and_eq_true] at h
  obtain ⟨⟨hnamespace, hgraph⟩, haction⟩ := h
  refine ⟨?_, ?_, by simpa using haction⟩
  · split at hnamespace
    · rename_i hdescendants
      exact .inr ⟨hdescendants, List.isPrefixOf_iff_prefix.1 hnamespace⟩
    · exact .inl (by simpa using Eq.symm (by simpa using hnamespace))
  · cases hid : grant.graphId with
    | none => exact .inl rfl
    | some => exact .inr (by simpa [hid] using hgraph)

theorem ScopeAuthorizer.covers_of_authorizeScope
    (h : authorizer.authorizeScope principal scope .write = .ok u) :
    authorizer.Covers principal scope := by
  have hauthorized : authorizer.authorize principal scope .write = true ∨
      authorizer.authorize principal scope .admin = true := by
    unfold authorizeScope at h
    split at h
    · rename_i hor
      simpa using hor
    · cases h
  cases authorizer with
  | defaultScope => simpa [authorize, ScopeAuthorizer.Covers] using hauthorized
  | granted =>
    simp only [authorize, List.any_eq_true] at hauthorized
    obtain ⟨grant, hmem, hallows⟩ | ⟨grant, hmem, hallows⟩ := hauthorized
    · obtain ⟨hnamespace, hgraph, haction⟩ := grant.covers_of_allows hallows
      exact ⟨grant, hmem, hnamespace, hgraph, .inl haction⟩
    · obtain ⟨hnamespace, hgraph, haction⟩ := grant.covers_of_allows hallows
      exact ⟨grant, hmem, hnamespace, hgraph, .inr haction⟩

/-! ## Entries -/

theorem TransportSender.principal_of_authenticate (sender : TransportSender)
    (h : sender.authenticate = .ok principal) : sender.principal = .ok principal := by
  unfold authenticate at h
  split at h
  · exact h
  · cases h

/-- A write that a transport server lets through is covered by a grant of the sender. -/
theorem TransportSender.covers (sender : TransportSender)
    (hsender : sender.authenticate = .ok principal)
    (hscope : authorizer.authorizeScope principal scope access.action = .ok u)
    (hwrite : access = .write) :
    ∃ principal, sender.principal = .ok principal ∧ authorizer.Covers principal scope := by
  subst hwrite
  exact ⟨principal, sender.principal_of_authenticate hsender,
    ScopeAuthorizer.covers_of_authorizeScope hscope⟩

section Entry

variable {request : ClientQueryRequest F} {cypherEngine : CypherEngineMode}
  {action : QueryTransportAction}

/-- The client service authorises the action of the classification, and for a write only a caller
that a grant covers. -/
theorem authorizeQuery_ok
    (h : authorizeQuery authorizer principal request cypherEngine = .ok action) :
    ∃ access, classifyOpencypherQueryAccess F request.query = .ok access ∧
      action = access.action ∧ (access = .write → authorizer.Covers principal request.scope) := by
  replace h := seq_ok h
  obtain ⟨access, haccess, h⟩ := bind_ok h
  replace h := seq_ok h
  obtain ⟨u, hscope, h⟩ := bind_ok h
  cases h
  refine ⟨access, haccess, rfl, ?_⟩
  rintro rfl
  exact ScopeAuthorizer.covers_of_authorizeScope hscope

/-- A batch that passed the comparison with its action has the access of that action. -/
theorem access_of_checkBatchAccess
    (h : checkBatchAccess (some operation) access.action = .ok u) : operation.access = access := by
  have hagree := refuseIf_eq_ok.1 h
  cases access <;> simp_all [QueryBatchOperation.access, OpenCypherQueryAccess.action]

theorem executeRows_respects
    (h : executeRows authorizer client principal request cypherEngine = .ok execution) :
    ∃ access, classifyOpencypherQueryAccess F request.query = .ok access ∧
      execution.Respects request.scope access ∧
      (access = .write → authorizer.Covers principal request.scope) := by
  replace h := seq_ok h
  obtain ⟨action, haction, h⟩ := bind_ok h
  obtain ⟨⟨batch, parameters⟩, -, h⟩ := bind_ok h
  obtain ⟨u, hbatch, hexecution⟩ := bind_ok h
  obtain ⟨access, haccess, rfl, hcovers⟩ := authorizeQuery_ok haction
  refine ⟨access, haccess, ?_, hcovers⟩
  cases batch with
  | some =>
    rw [← access_of_checkBatchAccess hbatch]
    exact executeBatch_respects hexecution
  | none => exact executeCypherRows_respects haccess hexecution

/-- A prepared statement carries the action of its classification, and a batch that agrees with
it. -/
theorem preparePageRequest_ok
    (h : preparePageRequest authorizer principal request cypherEngine = .ok prepared) :
    ∃ access, classifyOpencypherQueryAccess F request.query = .ok access ∧
      prepared.1 = access.action ∧
      ∀ operation, prepared.2.1 = some operation → operation.access = access := by
  replace h := seq_ok h
  obtain ⟨action, haction, h⟩ := bind_ok h
  obtain ⟨⟨batch, parameters⟩, -, h⟩ := bind_ok h
  replace h := seq_ok h
  obtain ⟨u, hbatch, h⟩ := bind_ok h
  cases h
  obtain ⟨access, haccess, rfl, -⟩ := authorizeQuery_ok haction
  refine ⟨access, haccess, rfl, ?_⟩
  rintro operation rfl
  exact access_of_checkBatchAccess hbatch

theorem executePreparedPage_respects
    (haccess : classifyOpencypherQueryAccess F request.query = .ok access)
    (hbatch : ∀ operation, batch = some operation → operation.access = access)
    (h : executePreparedPage authorizer client principal request cypherEngine
      (access.action, batch, parameters) cursor pageSize = .ok execution) :
    execution.Respects request.scope access ∧
      (access = .write → authorizer.Covers principal request.scope) := by
  obtain ⟨u, hscope, h⟩ := bind_ok h
  replace h := seq_ok h
  constructor
  · cases cursor with
    | some => cases h; exact ⟨rfl, fun _ _ _ _ _ => rfl, nofun⟩
    | none =>
      cases batch with
      | some operation =>
        rw [← hbatch operation rfl]
        exact executeBatch_respects h
      | none =>
        dsimp only at h
        split at h
        · exact executeCypherRows_respects haccess h
        · exact executeCypherRowsPage_respects haccess h
  · rintro rfl
    exact ScopeAuthorizer.covers_of_authorizeScope hscope

end Entry

/-- Every request that reaches an executor has an access: the executor runs in the scope the request
names and respects that access, and a write is covered by a grant of the caller. -/
theorem Gateway.route_respects {gateway : Gateway} (h : gateway.route request = .ok execution) :
    ∃ access, request.access = .ok access ∧ execution.Respects request.scope access ∧
      (access = .write → ∃ principal, request.principal = .ok principal ∧
        gateway.authorizer.Covers principal request.scope) := by
  cases request with
  | clientRows principal =>
    obtain ⟨access, haccess, hrespects, hcovers⟩ := executeRows_respects h
    exact ⟨access, haccess, hrespects, fun hwrite => ⟨principal, rfl, hcovers hwrite⟩⟩
  | clientPage principal =>
    obtain ⟨⟨action, batch, parameters⟩, hprepared, h⟩ := bind_ok h
    obtain ⟨access, haccess, haction, hbatch⟩ := preparePageRequest_ok hprepared
    cases haction
    obtain ⟨hrespects, hcovers⟩ := executePreparedPage_respects haccess hbatch h
    exact ⟨access, haccess, hrespects, fun hwrite => ⟨principal, rfl, hcovers hwrite⟩⟩
  | transportRows sender =>
    obtain ⟨principal, hprincipal, h⟩ := bind_ok h
    obtain ⟨action, haction, h⟩ := bind_ok h
    obtain ⟨u, hscope, hexecution⟩ := bind_ok h
    obtain ⟨access, haccess, haction⟩ := bind_ok haction
    cases haction
    exact ⟨access, haccess, executeCypherRows_respects haccess hexecution,
      sender.covers hprincipal hscope⟩
  | transportPage sender =>
    obtain ⟨principal, hprincipal, h⟩ := bind_ok h
    obtain ⟨action, haction, h⟩ := bind_ok h
    obtain ⟨u, hscope, h⟩ := bind_ok h
    obtain ⟨-, -, hexecution⟩ := bind_ok h
    obtain ⟨access, haccess, haction⟩ := bind_ok haction
    cases haction
    exact ⟨access, haccess, executeCypherRowsPage_respects haccess hexecution,
      sender.covers hprincipal hscope⟩
  | transportBatch sender context operation =>
    obtain ⟨principal, hprincipal, h⟩ := bind_ok h
    obtain ⟨u, hscope, h⟩ := bind_ok h
    exact ⟨operation.access, rfl, executeBatch_respects h, sender.covers hprincipal hscope⟩
  | transportBatchPage sender context operation =>
    obtain ⟨principal, hprincipal, h⟩ := bind_ok h
    replace h := seq_ok h
    obtain ⟨u, hscope, h⟩ := bind_ok h
    exact ⟨operation.access, rfl, executeBatch_respects h, sender.covers hprincipal hscope⟩

/-! ## The layers agree -/

/-- The answer every layer acts on is the one classification of the text: the transport server's
action, the routed cluster's `is_mutation`, the client service's action, and the experimental
route's question whether the text is a read. A text that cannot be classified is refused by each
with the same error. -/
def LayersAgree (F : Frontend) (query : QueryText) : Prop :=
  match classifyOpencypherQueryAccess F query with
  | .ok access =>
    classifyQueryTransportAction F query = .ok access.action ∧
    routedClientQueryIsMutation F query = .ok (decide (access = .write)) ∧
    (∀ authorizer principal (request : ClientQueryRequest F) cypherEngine action,
      request.query = query →
      authorizeQuery authorizer principal request cypherEngine = .ok action →
      action = access.action) ∧
    ∀ parameters mutation,
      parseExperimentalRouteMutation F query parameters = .ok (some mutation) → access = .write
  | .error error =>
    classifyQueryTransportAction F query = .error error ∧
    routedClientQueryIsMutation F query = .error error ∧
    ∀ authorizer principal (request : ClientQueryRequest F) cypherEngine action,
      request.query = query →
      authorizeQuery authorizer principal request cypherEngine ≠ .ok action

theorem layersAgree (query : QueryText) : LayersAgree F query := by
  unfold LayersAgree
  split
  · rename_i access haccess
    refine ⟨?_, routedClientQueryIsMutation_ok haccess, ?_, ?_⟩
    · rw [classifyQueryTransportAction, haccess]
      rfl
    · rintro authorizer principal request cypherEngine action rfl haction
      obtain ⟨access', haccess', rfl, -⟩ := authorizeQuery_ok haction
      rw [haccess] at haccess'
      cases haccess'
      rfl
    · intro parameters mutation hmutation
      cases access with
      | write => rfl
      | read => exact absurd haccess (parseExperimentalRouteMutation_some hmutation)
  · rename_i error herror
    refine ⟨?_, ?_, ?_⟩
    · rw [classifyQueryTransportAction, herror]
      rfl
    · rw [routedClientQueryIsMutation, herror]
      rfl
    rintro authorizer principal request cypherEngine action rfl haction
    obtain ⟨access, haccess, -⟩ := authorizeQuery_ok haction
    rw [herror] at haccess
    cases haccess

/-- Whatever is executed was authorised as what it is. For every parser behaviour, every node and
every request (client rows or pages, transport rows, pages or batches, through any chain of nodes,
on either engine): an executor is reached only for a request with an access; it runs in the scope
asked for; if the access is a read it leaves every storage state as it is, over any backend; if it
is a write, a grant of the caller covers the scope. All layers act on one classification of a text,
and whatever the mutation parser accepts the clause walk calls a write. -/
theorem authorised_reads_never_write (F : Frontend) (gateway : Gateway) :
    (∀ (request : QueryRequest F) execution, gateway.route request = .ok execution →
      ∃ access, request.access = .ok access ∧ execution.context.scope = request.scope ∧
        (access = .read → execution.ReadsOnly) ∧
        (access = .write → ∃ principal, request.principal = .ok principal ∧
          gateway.authorizer.Covers principal request.scope) ∧
        ∀ context operation, execution = .batch context operation →
          (operation.isWrite = true ↔ access = .write)) ∧
    (∀ query, LayersAgree F query) ∧
    ∀ query parameters mutation,
      parseOpencypherMutationQuery F query parameters = .ok (some mutation) →
      F.parse query >>= queryAccess F = .ok .write := by
  refine ⟨?_, layersAgree, ?_⟩
  · intro request execution h
    obtain ⟨access, haccess, hrespects, hcovers⟩ := Gateway.route_respects h
    exact ⟨access, haccess, hrespects.scope, hrespects.readsOnly, hcovers, hrespects.batch⟩
  · intro query parameters mutation h
    obtain ⟨parsed, hparsed, hlowered⟩ := bind_ok h
    exact Except.bind_eq_ok_iff.2 ⟨parsed, hparsed, queryAccess_eq_write hlowered⟩

/-! ## A node with one writer and one reader -/

/-- A front end on which every text opens with `MATCH`: a text that ends in `1` goes on with `SET`,
every other with `RETURN`. -/
def smallFrontend : Frontend where
  Node := Unit
  RequestParameters := Unit
  Parameters := Unit
  Action := Unit
  Mutation := Unit
  RowQuery := Unit
  BatchTemplate := Unit
  BatchItems := Unit
  Procedure := Unit
  Template := Unit
  clientApi := true
  experimentalEngine := true
  parse query :=
    let second := if query.getLast? = some '1' then AstKind.set else .returnClause
    .ok ⟨[.statement (.query [⟨.matchClause, ()⟩, ⟨second, ()⟩])]⟩
  lowerCreateMutations _ _ := .ok ()
  lowerSimpleMerge _ _ := .ok ()
  lowerDeleteActions _ := .ok [()]
  lowerSetActions _ _ := .ok [()]
  lowerRemoveActions _ := .ok [()]
  lowerMatchMutation _ _ _ _ _ := .ok ()
  lowerRowQuery _ _ := .ok ()
  lowerUnionArms _ _ _ := .ok ()
  lowerUnwindBatch _ := .ok none
  splitQueryParameters _ := .ok ()
  noParameters := ()
  batchItems _ _ := .ok ()
  parseNativeCall _ _ := .ok none
  nativeCallColumns _ := .ok none
  loweredTemplate _ := .ok ()
  planTemplate _ _ := .ok []

/-- A node of the default scope, on which `writer` may write and `reader` may only read. -/
def smallGateway : Gateway where
  authorizer := .granted fun principal =>
    if principal = "writer" then [⟨GraphScope.default.namespacePath, none, true, [.read, .write]⟩]
    else [⟨GraphScope.default.namespacePath, some "default", false, [.read]⟩]
  client := .routed ⟨.default, fun _ => .ok (), fun _ => .ok ()⟩

/-- A request for all rows of `query` on the legacy engine. -/
def smallRequest (principal : Principal) (query : QueryText) : QueryRequest smallFrontend :=
  .clientRows principal ⟨.default, "cell", query, (), .ok ()⟩ .legacy

/-- The texts `MATCH 0`, a read, and `MATCH 1`, a write. -/
def smallText (last : Char) : QueryText := ['M', 'A', 'T', 'C', 'H', ' ', last]

/-- The context a small request is executed in. -/
def smallContext : QueryContext smallFrontend := ⟨.default, "cell", .legacy, ()⟩

/-- On the small node the writer's write reaches the mutation executor and is covered by a grant,
the reader's read leaves the storage as it is, and the reader's write is refused. -/
theorem authorised_reads_never_write_smallGateway :
    smallGateway.route (smallRequest "writer" (smallText '1')) = .ok (.mutation smallContext ()) ∧
      smallGateway.authorizer.Covers "writer" .default ∧
      smallGateway.route (smallRequest "reader" (smallText '0')) =
        .ok (.rows smallContext .rows ()) ∧
      (Execution.rows smallContext .rows ()).ReadsOnly ∧
      smallGateway.route (smallRequest "reader" (smallText '1')) =
        .error (.graphScopeAccessDenied "unauthenticated principal" "write"
          "default/graphs/default") := by
  have hwrite : smallGateway.route (smallRequest "writer" (smallText '1')) =
      .ok (.mutation smallContext ()) := rfl
  have hread : smallGateway.route (smallRequest "reader" (smallText '0')) =
      .ok (.rows smallContext .rows ()) := rfl
  obtain ⟨hroutes, -, -⟩ := authorised_reads_never_write smallFrontend smallGateway
  obtain ⟨access, haccess, -, -, hcovers, -⟩ := hroutes _ _ hwrite
  obtain ⟨access', haccess', -, hreads, -, -⟩ := hroutes _ _ hread
  cases haccess
  cases haccess'
  obtain ⟨principal, hprincipal, hcovers⟩ := hcovers rfl
  cases hprincipal
  exact ⟨hwrite, hcovers, hread, hreads rfl, rfl⟩

end HydraDb
