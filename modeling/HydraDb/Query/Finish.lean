import HydraDb.Query.Row
import HydraDb.Lib.Loop

/-!
# Finishing rows

What happens to the rows after matching: `DISTINCT`, sorting and the window
(`finish_projected_rows`), the groups of an aggregation (`aggregate_projected_rows`, both
`shard/query.rs`) and the coordinator's join of the results of two legs
(`merge_distributed_inner_join`, `query/coordination.rs`). The deadline and the cancellation token a
query checks between rows are not part of the model.
-/

namespace HydraDb

/-- A projected row with its sort keys. -/
structure ProjectedQueryRow where
  row : QueryRow
  sortKeys : List QueryValue

structure QueryWindow where
  skip : Nat
  limit : Option Nat

structure QueryResultSet where
  columns : List String
  rows : List QueryRow

/-- The limits on the rows of a query (`GraphLimits`). -/
structure RowLimits where
  maxQueryResultVertices : Nat
  maxQueryIntermediateRows : Nat

/-! ## DISTINCT, sorting and the window -/

/-- One row of the `DISTINCT` loop: `BTreeSet::insert` says whether the values are new. -/
def distinctStep (state : OrdMap QueryRow Unit × List ProjectedQueryRow)
    (projected : ProjectedQueryRow) : OrdMap QueryRow Unit × List ProjectedQueryRow :=
  if state.1.contains projected.row then state
  else (state.1.put projected.row (), state.2 ++ [projected])

/-- The `DISTINCT` loop of `finish_projected_rows`. -/
def distinctRows (projected : List ProjectedQueryRow) : List ProjectedQueryRow :=
  (projected.foldl distinctStep (∅, [])).2

/-- `vertex_property_rank`. -/
def vertexPropertyRank : VertexPropertyValue → Nat
  | .bool _ => 0
  | .integer _ | .signedInteger _ | .float _ => 1
  | .string _ => 2

/-- `compare_vertex_property_order`. -/
def compareVertexPropertyOrder (left right : VertexPropertyValue) : Ordering :=
  match numericPropertyOrder left right with
  | some ordering => ordering
  | none =>
    match left, right with
    | .bool left, .bool right => compare left right
    | .string left, .string right => compare left right
    | left, right => compare (vertexPropertyRank left) (vertexPropertyRank right)

/-- `query_value_rank`. -/
def queryValueRank : QueryValue → Nat
  | .bool _ => 1
  | .vertexId _ | .count _ => 2
  | .float _ => 3
  | .property value => 4 + vertexPropertyRank value
  | .list _ => 8
  | .path _ => 9
  | .null => 255

mutual
/-- `compare_query_values`. -/
def compareQueryValues : QueryValue → QueryValue → Ordering
  | .null, .null => .eq
  | .vertexId left, .vertexId right => compare left.toNat right.toNat
  | .vertexId left, .count right => compare left.toNat right.toNat
  | .count left, .vertexId right => compare left.toNat right.toNat
  | .count left, .count right => compare left.toNat right.toNat
  | .float left, .float right => Binary64.totalCmp left right
  | .property left, .property right => compareVertexPropertyOrder left right
  | .list left, .list right => compareQueryLists left right
  | .path left, .path right => compare left.code right.code
  | .bool left, .bool right => compare left right
  | left, right => compare (queryValueRank left) (queryValueRank right)

/-- Two lists, element by element; then the shorter one first. -/
def compareQueryLists : List QueryValue → List QueryValue → Ordering
  | [], [] => .eq
  | [], _ :: _ => .lt
  | _ :: _, [] => .gt
  | left :: lefts, right :: rights =>
    match compareQueryValues left right with
    | .eq => compareQueryLists lefts rights
    | ordering => ordering
end

/-- `compare_projected_rows`: the first sort key that differs decides. -/
def compareProjectedRows (left right : List QueryValue) : List RowSort → Ordering
  | [] => .eq
  | sort :: sorts =>
    let ordering := compareQueryValues (left.headD .null) (right.headD .null)
    match if sort.ascending then ordering else ordering.swap with
    | .eq => compareProjectedRows left.tail right.tail sorts
    | ordering => ordering

/-- The stable sort of `finish_projected_rows`. -/
def sortProjectedRows (orderBy : List RowSort) (projected : List ProjectedQueryRow) :
    List ProjectedQueryRow :=
  if orderBy.isEmpty then projected
  else projected.mergeSort fun left right =>
    compareProjectedRows left.sortKeys right.sortKeys orderBy != .gt

/-- The `DISTINCT` part of `finish_projected_rows`. -/
def dedupRows (limits : RowLimits) (distinct : Bool) (projected : List ProjectedQueryRow) :
    Except GraphError (List ProjectedQueryRow) :=
  if distinct then do
    ensureLimit "cypher_distinct_rows" (distinctRows projected).length
      limits.maxQueryIntermediateRows
    return distinctRows projected
  else .ok projected

/-- `finish_projected_rows`. -/
def finishProjectedRows (limits : RowLimits) (columns : List String)
    (projected : List ProjectedQueryRow) (orderBy : List RowSort) (distinct : Bool)
    (window : QueryWindow) : Except GraphError QueryResultSet := do
  let projected ← dedupRows limits distinct projected
  let rows := ((sortProjectedRows orderBy projected).drop window.skip).map ProjectedQueryRow.row
  match window.limit with
  | some limit =>
    ensureLimit "query_result_limit" limit limits.maxQueryResultVertices
    return ⟨columns, rows.take limit⟩
  | none =>
    ensureLimit "query_result_rows" rows.length limits.maxQueryResultVertices
    return ⟨columns, rows⟩

/-! ## Aggregation -/

inductive AggregateAccumulator where
  | countAll (count : Nat)
  | countExpression (count : Nat)
  | sum (sum : Nat)
  | avg (sum count : Nat)
  | collect (values : List QueryValue)

/-- `new_aggregate_accumulator`. -/
def newAggregateAccumulator : RowProjection → Except GraphError AggregateAccumulator
  | .countAll => .ok (.countAll 0)
  | .aggregate .count _ => .ok (.countExpression 0)
  | .aggregate .sum _ => .ok (.sum 0)
  | .aggregate .avg _ => .ok (.avg 0 0)
  | .aggregate .collect _ => .ok (.collect [])
  | _ => .error (unsupported .other "non-aggregate projection cannot create aggregate state")

/-- `aggregate_integer_value`. -/
def aggregateIntegerValue (row : BindingRow) (expression : RowExpression) (function : String) :
    Except GraphError (Option UInt64) := do
  match ← evalRowExpression row expression with
  | none => return none
  | some (.integer value) => return some value
  | some _ => .error (unsupported .evaluation s!"{function} aggregate requires integer values")

/-- `u128::checked_add`, an error named by the aggregate on overflow. -/
def checkedSum (sum : Nat) (value : UInt64) (function : String) : Except GraphError Nat :=
  if sum + value.toNat < 2 ^ 128 then .ok (sum + value.toNat)
  else .error (unsupported .evaluation s!"{function} aggregate overflowed")

/-- `apply_aggregate_projection`. -/
def applyAggregateProjection (row : BindingRow) (state : AggregateAccumulator)
    (projection : RowProjection) : Except GraphError AggregateAccumulator :=
  match state, projection with
  | .countAll count, .countAll => .ok (.countAll (saturatingSucc count))
  | .countExpression count, .aggregate .count expression => do
    match ← expressionQueryValue row expression with
    | some _ => return .countExpression (saturatingSucc count)
    | none => return .countExpression count
  | .sum sum, .aggregate .sum expression => do
    match ← aggregateIntegerValue row expression "sum" with
    | some value => return .sum (← checkedSum sum value "sum")
    | none => return .sum sum
  | .avg sum count, .aggregate .avg expression => do
    match ← aggregateIntegerValue row expression "avg" with
    | some value => return .avg (← checkedSum sum value "avg") (saturatingSucc count)
    | none => return .avg sum count
  | .collect values, .aggregate .collect expression => do
    match ← expressionQueryValue row expression with
    | some value => return .collect (values ++ [value])
    | none => return .collect values
  | _, _ => .error (unsupported .other "aggregate projection state mismatch")

/-- The key of the group a binding belongs to: the columns that are not aggregates. -/
def groupKey (projections : List RowProjection) (binding : BindingRow) :
    Except GraphError QueryRow :=
  (projections.filter (!isAggregateProjection ·)).mapM (projectSingleBindingValue binding)

/-- The accumulators a new group starts with. -/
def newAccumulators (projections : List RowProjection) :
    Except GraphError (List AggregateAccumulator) :=
  (projections.filter isAggregateProjection).mapM newAggregateAccumulator

/-- The accumulators after one more binding of the group. -/
def applyAggregates (projections : List RowProjection) (states : List AggregateAccumulator)
    (binding : BindingRow) : Except GraphError (List AggregateAccumulator) :=
  (states.zip (projections.filter isAggregateProjection)).mapM fun entry =>
    applyAggregateProjection binding entry.1 entry.2

abbrev AggregateGroups := OrdMap QueryRow (List AggregateAccumulator)

/-- The accumulators `groups.entry(group_key)` holds, new ones if the entry is vacant. -/
def groupStates (projections : List RowProjection) (groups : AggregateGroups) (key : QueryRow) :
    Except GraphError (List AggregateAccumulator) :=
  match groups.get key with
  | some states => .ok states
  | none => newAccumulators projections

/-- One binding of the grouping loop. -/
def aggregateStep (projections : List RowProjection) (groups : AggregateGroups)
    (binding : BindingRow) : Except GraphError AggregateGroups := do
  let key ← groupKey projections binding
  let states ← groupStates projections groups key
  let states ← applyAggregates projections states binding
  return groups.put key states

/-- The groups before the first row: without rows and without key columns there is one empty
group. -/
def initialGroups (bindings : List BindingRow) (projections : List RowProjection) :
    Except GraphError AggregateGroups :=
  if bindings.isEmpty && (projections.filter (!isAggregateProjection ·)).isEmpty then do
    let states ← newAccumulators projections
    return (∅ : AggregateGroups).put [] states
  else .ok ∅

/-- The groups of `aggregate_projected_rows`. -/
def aggregateGroups (bindings : List BindingRow) (projections : List RowProjection) :
    Except GraphError AggregateGroups := do
  let groups ← initialGroups bindings projections
  bindings.foldlM (aggregateStep projections) groups

/-! ## The join of two legs -/

structure DistributedQueryJoin where
  leftLeg : String
  rightLeg : String
  leftColumn : String
  rightColumn : String

/-- `missing_distributed_leg`. -/
def missingDistributedLeg (legName : String) : GraphError :=
  .corruptValue s!"query/leg/{legName}" "distributed query join references a missing leg"

/-- `column_index`. -/
def columnIndex (result : QueryResultSet) (column : String) : Except GraphError Nat :=
  match result.columns.findIdx? (· = column) with
  | some index => .ok index
  | none => .error (.unsupportedQuery "DistributedQuery"
      s!"join column {column} is not present in result set" .other)

def QueryValue.isNull : QueryValue → Bool
  | .null => true
  | _ => false

/-- The join key of a row; `side` is `left` or `right`. -/
def joinKey (leg side : String) (index : Nat) (row : QueryRow) : Except GraphError QueryValue :=
  match row[index]? with
  | some key => .ok key
  | none => .error (.corruptValue s!"query/leg/{leg}" s!"{side} row is missing join column")

/-- The rows of one side by their key; a null key satisfies no join and is left out. -/
def rowsByKey (key : QueryRow → Except GraphError QueryValue) (rows : List QueryRow) :
    Except GraphError (OrdMap QueryValue (List QueryRow)) :=
  rows.foldlM (fun table row => do
    let key ← key row
    return if key.isNull then table else table.put key ((table.get key).getD [] ++ [row])) ∅

/-- The other side looks its key up in the table and joins with every row found. -/
def probeRows (key : QueryRow → Except GraphError QueryValue)
    (table : OrdMap QueryValue (List QueryRow)) (join : QueryRow → QueryRow → QueryRow)
    (rows : List QueryRow) : Except GraphError (List QueryRow) :=
  rows.foldlM (fun joined row => do
    let key ← key row
    return if key.isNull then joined else joined ++ ((table.get key).getD []).map (join row)) []

/-- The join that hashes the right side. -/
def joinHashingRight (leftKey rightKey : QueryRow → Except GraphError QueryValue)
    (left right : List QueryRow) : Except GraphError (List QueryRow) := do
  let table ← rowsByKey rightKey right
  probeRows leftKey table (fun leftRow rightRow => leftRow ++ rightRow) left

/-- The join that hashes the left side. -/
def joinHashingLeft (leftKey rightKey : QueryRow → Except GraphError QueryValue)
    (left right : List QueryRow) : Except GraphError (List QueryRow) := do
  let table ← rowsByKey leftKey left
  probeRows rightKey table (fun rightRow leftRow => leftRow ++ rightRow) right

/-- The smaller side is hashed, the right one on a tie. -/
def joinRows (leftKey rightKey : QueryRow → Except GraphError QueryValue)
    (left right : List QueryRow) : Except GraphError (List QueryRow) :=
  if right.length ≤ left.length then joinHashingRight leftKey rightKey left right
  else joinHashingLeft leftKey rightKey left right

/-- `merge_distributed_inner_join`. -/
def mergeDistributedInnerJoin (legResults : OrdMap String QueryResultSet)
    (join : DistributedQueryJoin) : Except GraphError QueryResultSet := do
  let left ← (legResults.get join.leftLeg).elim (.error (missingDistributedLeg join.leftLeg)) .ok
  let right ← (legResults.get join.rightLeg).elim (.error (missingDistributedLeg join.rightLeg)) .ok
  let leftIdx ← columnIndex left join.leftColumn
  let rightIdx ← columnIndex right join.rightColumn
  let columns := left.columns.map (fun name => s!"{join.leftLeg}.{name}") ++
    right.columns.map (fun name => s!"{join.rightLeg}.{name}")
  let leftKey := joinKey join.leftLeg "left" leftIdx
  let rightKey := joinKey join.rightLeg "right" rightIdx
  let rows ← joinRows leftKey rightKey left.rows right.rows
  return ⟨columns, rows⟩

end HydraDb
