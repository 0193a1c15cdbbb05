import HydraDb.Core.Codec
import HydraDb.Lib.StableSort

/-!
# Placement

Which node writes a cell is not stored anywhere (`crates/placement`). Every node scores the nodes
that it takes for live, and the one with the highest score owns the cell (`hash.rs`). A node is live
for another one if it is configured and has a fresh heartbeat, and every node is live for itself
(`liveness.rs`).

The owner is the least node of the list in one linear order of all nodes (`owner_eq_some_iff`), so
it depends on the set of the live nodes only. Two nodes that read the same heartbeats differ in
their live sets at most by themselves, and so they agree unless one of them takes itself for the
owner (`placement_agrees`).
-/

namespace HydraDb

open OrdMap

namespace Placement

/-! ## Scores -/

/-- `fnv1a64`. -/
def fnv1a64 (chunks : List (List UInt8)) : UInt64 :=
  chunks.foldl (fun h chunk => chunk.foldl (fun h b => (h ^^^ b.toUInt64) * 0x100000001b3) h)
    0xcbf29ce484222325

/-- `mix64`, the splitmix64 finalizer. -/
def mix64 (z : UInt64) : UInt64 :=
  let z := z + 0x9e3779b97f4a7c15
  let z := (z ^^^ (z >>> 30)) * 0xbf58476d1ce4e5b9
  let z := (z ^^^ (z >>> 27)) * 0x94d049bb133111eb
  z ^^^ (z >>> 31)

/-- `score`. -/
def score (scope cellId nodeId : String) : UInt64 :=
  mix64 (fnv1a64 [utf8Bytes scope, [0], utf8Bytes cellId, [0], utf8Bytes nodeId])

/-- The order of the ranking: descending by score, ties broken by node id. -/
def rankKey (candidate : UInt64 × String) : ℕᵒᵈ ×ₗ String :=
  toLex (OrderDual.toDual candidate.1.toNat, candidate.2)

/-- `rank`. -/
def rank (scope cellId : String) (live : List String) : List String :=
  ((live.map fun n => (score scope cellId n, n)).sortBy rankKey).map Prod.snd

/-- `owner`. -/
def owner (scope cellId : String) (live : List String) : Option String :=
  (rank scope cellId live).head?

/-! ## Liveness -/

/-- `HeartbeatEntry`, with its age in nanoseconds. -/
structure HeartbeatEntry where
  nodeId : String
  age : Nat

/-- `NodeView`. -/
structure NodeView where
  nodeId : String

/-- `youngest_per_node`. -/
def youngestPerNode (entries : List HeartbeatEntry) : OrdMap String HeartbeatEntry :=
  entries.foldl (fun byId entry =>
    if (byId.get entry.nodeId).any (·.age ≤ entry.age) then byId
    else byId.put entry.nodeId entry) ∅

/-- `live_nodes`. -/
def liveNodes (entries : List HeartbeatEntry) (timeout : Nat) : List NodeView :=
  (((youngestPerNode entries).entries.map Prod.snd).filter (·.age < timeout)).map fun entry =>
    ⟨entry.nodeId⟩

/-- `LiveView`. -/
inductive LiveView where
  | fresh (nodes : List NodeView)
  | grace (nodes : List NodeView)
  | shed

/-- `LiveView::candidates`. -/
def LiveView.candidates : LiveView → Option (List String)
  | .fresh nodes | .grace nodes => some (nodes.map (·.nodeId))
  | .shed => none

/-- `LiveNodeSet`. A node is always one of the configured members. -/
structure LiveNodeSet where
  localNodeId : String
  members : OrdMap String Unit
  heartbeatTimeout : Nat
  local_mem : members.contains localNodeId = true

namespace LiveNodeSet

/-- `LiveNodeSet::new`. -/
def new (localNodeId : String) (members : List String) (heartbeatTimeout : Nat) : LiveNodeSet where
  localNodeId := localNodeId
  members := (OrdMap.addAll ∅ members).put localNodeId ()
  heartbeatTimeout := heartbeatTimeout
  local_mem := contains_put.2 (.inl rfl)

/-- The table of the live nodes of `observe_list`. -/
def liveTable (set : LiveNodeSet) (entries : List HeartbeatEntry) (sinceStart : Nat) :
    OrdMap String NodeView :=
  let youngest := youngestPerNode entries
  let live := (liveNodes entries set.heartbeatTimeout).foldl
    (fun (live : OrdMap String NodeView) view =>
      if set.members.contains view.nodeId then live.put view.nodeId view else live) ∅
  -- a member that has never published counts as live in the startup window
  let live := if sinceStart < set.heartbeatTimeout then
      set.members.keys.foldl (fun live member =>
        if youngest.contains member || live.contains member then live
        else live.put member ⟨member⟩) live
    else live
  live.put set.localNodeId ⟨set.localNodeId⟩

/-- `LiveNodeSet::observe_list`. The list it keeps for when a listing fails is left out. -/
def observeList (set : LiveNodeSet) (entries : List HeartbeatEntry) (sinceStart : Nat) : LiveView :=
  .fresh ((set.liveTable entries sinceStart).entries.map Prod.snd)

/-- The owner that a node computes from a listing. -/
def ownerOf (set : LiveNodeSet) (entries : List HeartbeatEntry) (sinceStart : Nat)
    (scope cellId : String) : Option String :=
  (set.observeList entries sinceStart).candidates.bind (owner scope cellId)

end LiveNodeSet

/-! ## The owner of a set of nodes -/

variable {scope cellId : String} {live live' : List String} {n m : String}

/-- The node comes before another one in the ranking, or is the same. -/
def Before (scope cellId n m : String) : Prop :=
  rankKey (score scope cellId n, n) ≤ rankKey (score scope cellId m, m)

theorem Before.antisymm (h : Before scope cellId n m) (h' : Before scope cellId m n) : n = m :=
  congrArg (fun k => (ofLex k).2) (le_antisymm h h')

/-- The owner comes before every other live node. -/
theorem owner_eq_some_iff : owner scope cellId live = some n ↔
    n ∈ live ∧ ∀ m ∈ live, Before scope cellId n m := by
  have hsorted := List.pairwise_sortBy rankKey (live.map fun n => (score scope cellId n, n))
  have hmem c :
      c ∈ (live.map fun n => (score scope cellId n, n)).sortBy rankKey ↔
        ∃ m ∈ live, (score scope cellId m, m) = c :=
    (List.sortBy_perm ..).mem_iff.trans List.mem_map
  unfold owner rank
  cases hrank : (live.map fun n => (score scope cellId n, n)).sortBy rankKey with
  | nil =>
    refine ⟨nofun, fun h => ?_⟩
    have hn := (hmem (score scope cellId n, n)).2 ⟨n, h.1, rfl⟩
    rw [hrank] at hn
    cases hn
  | cons c =>
    rw [hrank] at hsorted hmem
    obtain ⟨first, hfirst, rfl⟩ := (hmem c).1 List.mem_cons_self
    have hbefore m (hm : m ∈ live) : Before scope cellId first m := by
      rcases List.mem_cons.1 ((hmem _).2 ⟨m, hm, rfl⟩) with heq | hrest
      · exact (congrArg rankKey heq).ge
      · exact (List.pairwise_cons.1 hsorted).1 _ hrest
    refine ⟨?_, fun h => ?_⟩
    · rintro ⟨⟩
      exact ⟨hfirst, hbefore⟩
    · exact congrArg some ((hbefore n h.1).antisymm (h.2 first hfirst))

/-- Lists of the same nodes have the same owner. -/
theorem owner_congr (h : ∀ n, n ∈ live ↔ n ∈ live') :
    owner scope cellId live = owner scope cellId live' :=
  Option.ext fun n => by simp [owner_eq_some_iff, h]

theorem owner_eq_none_iff : owner scope cellId live = none ↔ live = [] := by
  have hlength : (rank scope cellId live).length = live.length := by
    simp [rank, (List.sortBy_perm ..).length_eq]
  rw [owner, List.head?_eq_none_iff, ← List.length_eq_zero_iff, hlength, List.length_eq_zero_iff]

/-- A node that is added takes the cell over or leaves it to its owner. -/
theorem owner_cons : owner scope cellId (n :: live) = owner scope cellId live ∨
    owner scope cellId (n :: live) = some n := by
  cases howner : owner scope cellId (n :: live) with
  | none => cases owner_eq_none_iff.1 howner
  | some =>
    obtain ⟨hm, hbefore⟩ := owner_eq_some_iff.1 howner
    rcases List.mem_cons.1 hm with rfl | hm
    · exact .inr rfl
    · exact .inl (owner_eq_some_iff.2 ⟨hm, fun x hx => hbefore x (.tail _ hx)⟩).symm

/-- A node that does not own the cell can go. -/
theorem owner_filter (h : owner scope cellId live ≠ some n) :
    owner scope cellId (live.filter (· ≠ n)) = owner scope cellId live := by
  cases howner : owner scope cellId live with
  | none =>
    rw [owner_eq_none_iff.1 howner]
    rfl
  | some m =>
    obtain ⟨hm, hbefore⟩ := owner_eq_some_iff.1 howner
    have hne : m ≠ n := fun hmn => h (hmn ▸ howner)
    exact owner_eq_some_iff.2
      ⟨List.mem_filter.2 ⟨hm, by simpa using hne⟩,
        fun x hx => hbefore x (List.mem_of_mem_filter hx)⟩

/-! ## The live nodes of two nodes -/

variable {table : OrdMap String NodeView} {entries : List HeartbeatEntry}

/-- The table has the nodes under their ids. -/
def Keyed (table : OrdMap String NodeView) : Prop :=
  ∀ id view, table.get id = some view → view.nodeId = id

theorem Keyed.put (h : Keyed table) (view : NodeView) : Keyed (table.put view.nodeId view) :=
  forall_get_put h rfl

theorem Keyed.mem_ids (h : Keyed table) :
    n ∈ (table.entries.map Prod.snd).map (·.nodeId) ↔ table.contains n = true := by
  simp only [List.map_map, List.mem_map, Prod.exists, mem_entries, contains_iff,
    Option.isSome_iff_exists]
  constructor
  · rintro ⟨id, view, hget, rfl⟩
    exact ⟨view, h id view hget ▸ hget⟩
  · rintro ⟨view, hget⟩
    exact ⟨n, view, hget, h n view hget⟩

/-- The loop of `observe_list` adds the members among the nodes. -/
theorem keyed_foldl (members : OrdMap String Unit) (views : List NodeView) (h : Keyed table) :
    let table' := views.foldl (fun live view =>
      if members.contains view.nodeId then live.put view.nodeId view else live) table
    Keyed table' ∧ ∀ n, table'.contains n = true ↔
      table.contains n = true ∨ n ∈ (views.map (·.nodeId)).filter members.contains := by
  induction views generalizing table with
  | nil => simpa using h
  | cons view views ih =>
    by_cases hmember : members.contains view.nodeId = true
    · obtain ⟨hkeyed, hcontains⟩ := ih (h.put view)
      refine ⟨by simpa [hmember] using hkeyed, fun n => ?_⟩
      simp [hmember, hcontains, contains_put, or_assoc, or_left_comm]
    · simpa [hmember] using ih h

/-- Past its startup window a node takes the fresh members and itself for live. -/
theorem LiveNodeSet.ownerOf_eq (set : LiveNodeSet) (h : set.heartbeatTimeout ≤ sinceStart) :
    set.ownerOf entries sinceStart scope cellId = owner scope cellId (set.localNodeId ::
      ((liveNodes entries set.heartbeatTimeout).map (·.nodeId)).filter set.members.contains) := by
  have hempty : Keyed ∅ := nofun
  obtain ⟨hkeyed, hcontains⟩ :=
    keyed_foldl set.members (liveNodes entries set.heartbeatTimeout) hempty
  refine owner_congr fun n => ?_
  simp only [LiveNodeSet.liveTable, if_neg h.not_gt]
  refine (hkeyed.put ⟨set.localNodeId⟩).mem_ids.trans ?_
  rw [contains_put, hcontains]
  simp

/-- For every scope and cell: the owner does not depend on the order or repetition of the live
nodes; removing another node than the owner leaves it, and adding a node leaves it or makes the new
node the owner; and two members past their startup window that read the same heartbeats compute the
same owner, unless one of them computes itself. -/
theorem placement_agrees (scope cellId : String) :
    (∀ live live' : List String, (∀ n, n ∈ live ↔ n ∈ live') →
      owner scope cellId live = owner scope cellId live') ∧
    (∀ live node, owner scope cellId live ≠ some node →
      owner scope cellId (live.filter (· ≠ node)) = owner scope cellId live) ∧
    (∀ live node, owner scope cellId (node :: live) = owner scope cellId live ∨
      owner scope cellId (node :: live) = some node) ∧
    ∀ (a b : LiveNodeSet) (entries : List HeartbeatEntry) (sinceStart sinceStart' : Nat),
      a.members = b.members → a.heartbeatTimeout = b.heartbeatTimeout →
      a.heartbeatTimeout ≤ sinceStart → b.heartbeatTimeout ≤ sinceStart' →
      a.ownerOf entries sinceStart scope cellId = b.ownerOf entries sinceStart' scope cellId ∨
        a.ownerOf entries sinceStart scope cellId = some a.localNodeId ∨
        b.ownerOf entries sinceStart' scope cellId = some b.localNodeId := by
  refine ⟨fun _ _ => owner_congr, fun _ _ => owner_filter, fun _ _ => owner_cons, ?_⟩
  intro a b entries sinceStart sinceStart' hmembers htimeout ha hb
  rw [a.ownerOf_eq ha, b.ownerOf_eq hb, ← hmembers, ← htimeout]
  generalize ((liveNodes entries a.heartbeatTimeout).map (·.nodeId)).filter a.members.contains =
    live
  rcases owner_cons with hsame | hself
  · rcases owner_cons with hsame' | hself'
    · exact .inl (hsame.trans hsame'.symm)
    · exact .inr (.inr hself')
  · exact .inr (.inl hself)

/-- A heartbeat of one node is fresh for both of two others. -/
theorem placement_agrees_one_fresh :
    let members := ["graph-node-0", "graph-node-1", "graph-node-2"]
    let a := LiveNodeSet.new "graph-node-0" members 15
    let b := LiveNodeSet.new "graph-node-1" members 15
    let entries : List HeartbeatEntry := [⟨"graph-node-2", 1⟩, ⟨"graph-node-0", 20⟩]
    a.ownerOf entries 15 "s" "c" = b.ownerOf entries 30 "s" "c" ∨
      a.ownerOf entries 15 "s" "c" = some a.localNodeId ∨
      b.ownerOf entries 30 "s" "c" = some b.localNodeId :=
  (placement_agrees "s" "c").2.2.2 _ _ _ 15 30 (by decide +kernel) rfl (by decide) (by decide)

end Placement

end HydraDb
