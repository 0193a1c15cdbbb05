import HydraDb.Commit.Compaction
import HydraDb.Commit.EdgeDelete
import HydraDb.Commit.Metadata
import HydraDb.Commit.RelationshipImport
import HydraDb.Commit.VertexDelete
import HydraDb.System.Store

/-!
# The invariant of the store

Every event keeps the invariants of every cell. A transaction is a sequence of steps that ends
with nothing owed, and such a sequence keeps the invariants of its cell; a preparation stays what
it was, the discovery of an earlier state of its cell. The conditions under which this holds are
conditions on events: the index policy is fixed, published bases are not ahead of the store, and
callers keep the contracts of the regime.
-/

namespace HydraDb

variable {db : Db}

/-! ## Conditions on events -/

/-- The index policy of the shard that runs the event. -/
def Event.KeepsPolicy (reverseIndex : Bool) : Event → Prop
  | .mutate env _ | .prepareDelete env _ _ | .commitDelete env _ =>
    env.reverseIndex = reverseIndex
  | .collect _ _ _ _ _ => True

/-- A pass runs against a generation that was published, with a base the store has reached. -/
def Event.Published (s : Sys) : Event → Prop
  | .collect cap _ _ gcThrough repairEpoch =>
    0 < cap ∧ gcThrough ≤ s.db.sequence ∧ repairEpoch ≤ s.db.sequence
  | _ => True

/-- An import without existence checks is given only edges that do not exist. -/
def Event.KeepsTrust (s : Sys) : Event → Prop
  | .mutate _ (.bulkImportEdges cellId edgeType edges _ policy) =>
    TrustKept policy (s.db.cells cellId).topology edgeType edges
  | _ => True

/-- The property values of relationships are in the form the value parser produces. -/
def Event.KeepsCanonical : Event → Prop
  | .mutate _ (.createRelationship _ _ _ metadata)
  | .mutate _ (.setRelationshipMetadata _ _ metadata) => metadata.properties.Canonical
  | .mutate _ (.importRelationships _ _ rows _)
  | .mutate _ (.createRelationshipBatch _ _ rows _ _ _)
  | .mutate _ (.mergeRelationshipBatch _ _ rows _ _ _) =>
    ∀ row ∈ rows, row.metadata.properties.Canonical
  | _ => True

/-- The pass does not stop at its cap. -/
def Event.Uncapped (s : Sys) : Event → Prop
  | .collect cap cellId edgeType gcThrough _ =>
    (s.db.cells cellId).changelog.gcStopsAtCap cap edgeType gcThrough = false
  | _ => True

/-- The events of a regime. -/
structure Regime.Allows (g : Regime) (s : Sys) (e : Event) : Prop where
  policy : e.KeepsPolicy g.reverseIndex
  published : e.Published s
  trusted : g.trusted = true → e.KeepsTrust s
  canonical : g.canonical = true → e.KeepsCanonical
  uncapped : g.uncapped = true → e.Uncapped s

/-- The vertex metadata that an operation passes. -/
def Mutation.vertexMetadata : Mutation → List VertexMetadata
  | .writeEdgeWithVertexMetadata _ srcMetadata dstMetadata
  | .writeEdgeWithFullMetadata _ srcMetadata dstMetadata _
  | .createRelationship _ srcMetadata dstMetadata _ => [srcMetadata, dstMetadata]
  | .setVertexMetadata _ _ metadata => [metadata]
  | .setVertexMetadataBatch _ updates | .importVertexMetadataBatch _ updates
  | .mergeVertexMetadataBatch _ updates _ => updates.map Prod.snd
  | _ => []

/-- No vertex property value that the event passes is a signed integer that is not negative. -/
def Event.VerticesCanonical : Event → Prop
  | .mutate _ mutation => ∀ metadata ∈ mutation.vertexMetadata, metadata.properties.Canonical
  | _ => True

/-! ## One operation -/

variable {F : VertexMetadata → Prop} {g : Regime} {n : StorageSequence} {c c' : Cell}
  {env : WriteEnv} {s : Sys}

theorem Mutation.committedCell_eq_some
    (h : committedCell r = some c') : ∃ result, r = .ok (.commit c' result) := by
  cases r with
  | error => cases h
  | ok outcome =>
    cases outcome with
    | unchanged => cases h
    | commit cell result => cases h; exact ⟨result, rfl⟩

/-- An operation that commits is a sequence of steps that ends with nothing owed. The vertex
metadata it stores is in canonical form if the records and the caller's metadata are. -/
theorem Mutation.run_committed (ok : CellOk g s.db.sequence (s.db.cells m.cellId))
    (allowed : g.Allows s (.mutate env m))
    (hs : canonical = true → (s.db.cells m.cellId).vertices.RecordsCanonical)
    (form : ∀ metadata ∈ m.vertexMetadata, metadata.Form canonical)
    (h : m.run env s.db.sequence (s.db.cells m.cellId) = some c') :
    Committed (VertexMetadata.Form canonical) g (s.db.sequence + 1) (s.db.cells m.cellId) c' := by
  have policy : env.reverseIndex = g.reverseIndex := allowed.policy
  have hpair : ∀ {src dst : VertexId} {srcMetadata dstMetadata : VertexMetadata}
      {updates : List (VertexId × VertexMetadata)},
      (∀ metadata ∈ [srcMetadata, dstMetadata], metadata.Form canonical) →
      coalesceVertexMetadataUpdates [(src, srcMetadata), (dst, dstMetadata)] = .ok updates →
      ∀ u ∈ changedMetadata (s.db.cells m.cellId).vertices updates, u.2.2.Form canonical := by
    intro src dst srcMetadata dstMetadata updates hform hupdates
    refine form_changedMetadata hs (form_coalesceVertexMetadataUpdates (fun u hu => ?_) hupdates)
    rcases List.mem_pair.1 hu with rfl | rfl
    · exact hform _ List.mem_cons_self
    · exact hform _ (List.mem_cons_of_mem _ List.mem_cons_self)
  have hmap : ∀ {updates : List (VertexId × VertexMetadata)},
      (∀ metadata ∈ updates.map Prod.snd, metadata.Form canonical) →
      ∀ u ∈ updates, u.2.Form canonical := fun hform u hu => hform _ (List.mem_map_of_mem hu)
  cases m with
    obtain ⟨r, h⟩ := committedCell_eq_some ((committedCell_answering _ _).symm.trans h)
  | writeEdge =>
    replace h := seq_ok h
    have distinct : (([] : List (VertexId × VertexMetadata)).map Prod.fst).Nodup := List.nodup_nil
    exact writeEdgeTxn_committed ok policy distinct nofun h
  | writeEdgeWithVertexMetadata =>
    replace h := seq_ok₃ h
    obtain ⟨updates, hupdates, h⟩ := bind_ok h
    exact writeEdgeTxn_committed ok policy (nodup_coalesceVertexMetadataUpdates hupdates)
      (hpair form hupdates) h
  | writeEdgeWithFullMetadata =>
    replace h := seq_ok₂ h
    replace h := seq_ok₂ h
    obtain ⟨updates, hupdates, h⟩ := bind_ok h
    exact writeEdgeTxn_committed ok policy (nodup_coalesceVertexMetadataUpdates hupdates)
      (hpair form hupdates) h
  | writeEdgeBatch =>
    exact writeEdgeMutationsBatchWithEndpointLabels_committed ok policy h
  | writeEdgeBatchBetweenLabeledVertices =>
    replace h := seq_ok₂ h
    exact writeEdgeMutationsBatchWithEndpointLabels_committed ok policy h
  | deleteEdge =>
    replace h := seq_ok h
    exact deleteEdgeTxn_committed ok policy h
  | deleteEdgeBatch =>
    exact deleteEdgeMutationsBatch_committed ok policy h
  | bulkImportEdges =>
    exact bulkImportEdgesWithOptions_committed ok policy allowed.trusted h
  | appendOutSegment =>
    exact bulkAppendOutAdjacencySegmentTrusted_committed ok policy h
  | createRelationship =>
    replace h := seq_ok₂ h
    replace h := seq_ok₂ h
    obtain ⟨updates, hupdates, h⟩ := bind_ok h
    exact createRelationshipTxn_committed ok policy
      (nodup_coalesceVertexMetadataUpdates hupdates) (hpair form hupdates) allowed.canonical h
  | setRelationshipMetadata =>
    replace h := seq_ok₃ h
    exact setRelationshipMetadataTxn_committed allowed.canonical h
  | deleteRelationship =>
    replace h := seq_ok h
    exact deleteRelationshipTxn_committed ok policy h
  | deleteRelationshipBatch =>
    exact deleteRelationshipMutationsBatchWithGuards_committed ok policy h
  | importRelationships =>
    exact importRelationshipsBatchWithEndpointLabels_committed allowed.canonical ok policy h
  | createRelationshipBatch | mergeRelationshipBatch =>
    replace h := seq_ok₂ h
    exact importRelationshipsBatchWithEndpointLabels_committed allowed.canonical ok policy h
  | setVertexMetadata cellId vertex metadata =>
    exact setVertexMetadata_committed (form metadata List.mem_cons_self) h
  | setVertexMetadataBatch =>
    exact setVertexMetadataBatch_committed (hmap form) h
  | importVertexMetadataBatch =>
    exact importVertexMetadataBatch_committed (hmap form) h
  | mergeVertexMetadataBatch =>
    exact mergeVertexMetadataBatch_committed hs (hmap form) h
  | setEdgeMetadata =>
    exact setEdgeMetadata_committed h
  | setEdgeMetadataBatch =>
    exact setEdgeMetadataBatch_committed h
  | installMergeIndexes =>
    exact installRelationshipMergeIndexesBatch_committed h
  | compactOutSegments =>
    exact compactOutAdjacencySegments_committed ok h

theorem Mutation.run_committed_any
    (ok : CellOk g s.db.sequence (s.db.cells m.cellId)) (allowed : g.Allows s (.mutate env m))
    (h : m.run env s.db.sequence (s.db.cells m.cellId) = some c') :
    Committed (VertexMetadata.Form false) g (s.db.sequence + 1) (s.db.cells m.cellId) c' :=
  m.run_committed ok allowed nofun nofun h

/-! ## The store -/

/-- The invariants of the store: those of every cell, and what is known of the preparations. -/
structure Sys.Ok (g : Regime) (s : Sys) : Prop where
  bound : s.db.sequence + 1 < u64Bound
  cells : ∀ cellId, CellOk g s.db.sequence (s.db.cells cellId)
  pending : g.uncapped = true → ∀ f ∈ s.pending, ∀ p, f.prepared = some p →
    Prepared g f.request.batch.2 (retainFirst ∅ f.request.batch.1) s.db.sequence
      (s.db.cells f.cellId) p

/-- What a commit can do to one cell of the store: the operations, and the passes of garbage
collection; `U` says that a pass does not stop at its cap. -/
inductive Change (g : Regime) (U : Prop) (n : StorageSequence) (c c' : Cell) : Prop where
  | transaction {F : VertexMetadata → Prop} (h : Committed F g (n + 1) c c')
  | collection (cap deleted : Nat) (edgeType : EdgeType) (gcThrough repairEpoch : StorageSequence)
      (l : Changelog)
      (collected : c.changelog.gcTopologyChangelogTo cap repairEpoch edgeType gcThrough =
        (some l, deleted))
      (published : gcThrough ≤ n)
      (uncapped : U → c.changelog.gcStopsAtCap cap edgeType gcThrough = false)
      (written : c' = { c with changelog := l })

/-- What an event does to the store: nothing, or a commit of one cell. -/
inductive Sys.Effect (g : Regime) (U : Prop) (s : Sys) (db : Db) : Prop where
  | none (h : db = s.db)
  | commit (cellId : CellId) (c' : Cell) (bound : s.db.sequence + 2 < u64Bound)
      (change : Change g U s.db.sequence (s.db.cells cellId) c')
      (h : db = ⟨s.db.sequence + 1, Function.update s.db.cells cellId c'⟩)

theorem Sys.Effect.of_commit
    (h : ∀ c', r = some c' → Change g U s.db.sequence (s.db.cells cellId) c') :
    s.Effect g U (s.db.commit cellId r) := by
  cases r with
  | none => exact .none rfl
  | some c' =>
    by_cases hbound : s.db.sequence + 2 < u64Bound
    · exact .commit cellId c' hbound (h c' rfl) (if_pos hbound)
    · exact .none (if_neg hbound)

/-- The vertices of a request in the mode that detaches are all detached. -/
theorem VertexDeleteRequest.detach_of_mode {request : VertexDeleteRequest}
    (h : request.batch.2 = .detach) : ∀ d ∈ request.batch.1, d.detach = true := by
  cases request with
  | vertices deletions detach =>
    cases detach with
    | false => cases h
    | true =>
      intro d hd
      obtain ⟨x, -, rfl⟩ := List.mem_map.1 hd
      rfl
  | isolated | verticesAndCandidates => cases h

/-- A delete of vertices that commits. -/
theorem Sys.Ok.commitDelete_committed (ok : s.Ok g) (allowed : g.Allows s (.commitDelete env index))
    (hf : s.pending[index]? = some f)
    (h : Mutation.committedCell (deleteVertexMutationRequestsBatchWithMode env f.cellId
      f.request.batch.1 f.request.batch.2 f.prepared s.db.sequence (s.db.cells f.cellId)) =
        some c') : Committed F g (s.db.sequence + 1) (s.db.cells f.cellId) c' := by
  obtain ⟨r, h⟩ := Mutation.committedCell_eq_some h
  exact deleteVertexMutationRequestsBatchWithMode_committed (ok.cells _) allowed.policy
    VertexDeleteRequest.detach_of_mode (fun hu => ok.pending hu f (List.mem_of_getElem? hf)) h

/-- Every event that a regime allows commits at most one cell, by a transaction or a pass. -/
theorem Sys.Ok.effect (ok : s.Ok g) (allowed : g.Allows s e) :
    s.Effect g (e.Uncapped s) (s.exec e).db := by
  cases e with
  | mutate env mutation =>
    exact .of_commit fun c' h => .transaction (mutation.run_committed_any (ok.cells _) allowed h)
  | prepareDelete env cellId request =>
    refine .none ?_
    change (s.prepare env cellId request).db = s.db
    unfold prepare
    split <;> rfl
  | commitDelete =>
    unfold exec
    dsimp only
    split
    · next f hf =>
      exact .of_commit fun c' h =>
        .transaction (F := fun _ => True) (ok.commitDelete_committed allowed hf h)
    · exact .none rfl
  | collect cap cellId edgeType gcThrough repairEpoch =>
    refine .of_commit fun c' h => ?_
    obtain ⟨r, h⟩ := Mutation.committedCell_eq_some h
    obtain ⟨l, hcollected, hwritten⟩ := gcTopologyChangelog_ok h
    exact .collection cap r edgeType gcThrough repairEpoch l hcollected allowed.published.2.1 id
      hwritten

theorem CellOk.change (ok : CellOk g n c) (h : Change g U n c c') : CellOk g (n + 1) c' := by
  cases h with
  | transaction h => exact ok.commit h
  | collection cap deleted edgeType gcThrough repairEpoch l collected published uncapped written =>
    subst written
    exact ok.collect collected

theorem Since.change (since : Since e c₀ n c) (ok : CellOk g n c) (hn : n + 1 < u64Bound)
    (hu : U) (h : Change g U n c c') : Since e c₀ (n + 1) c' := by
  cases h with
  | transaction h => exact since.commit ok h
  | collection cap deleted edgeType gcThrough repairEpoch l collected published uncapped written =>
    subst written
    exact since.collect collected (uncapped hu) ((Nat.succ_le_succ published).trans_lt hn)

/-- A commit keeps what is known of a preparation. -/
theorem Prepared.mono (h : Prepared g mode deletions n c p)
    (hsince : ∀ {e c₀}, Since e c₀ n c → Since e c₀ n' c') : Prepared g mode deletions n' c' p := by
  obtain ⟨env₀, cellId, c₀, policy, ok, since, hprepare⟩ := h
  exact ⟨env₀, cellId, c₀, policy, ok, hsince since, hprepare⟩

/-- A cell of the store after an event: as it was, at a sequence that is not smaller, or changed by
the commit of the event. -/
theorem Sys.Effect.cell (h : s.Effect g U db) (cellId : CellId) :
    s.db.cells cellId = db.cells cellId ∧
        (db.sequence = s.db.sequence ∨ db.sequence = s.db.sequence + 1) ∨
      db.sequence = s.db.sequence + 1 ∧
        Change g U s.db.sequence (s.db.cells cellId) (db.cells cellId) := by
  cases h with
  | none h => subst h; exact .inl ⟨rfl, .inl rfl⟩
  | commit cellId' c' bound change h =>
    subst h
    by_cases hid : cellId = cellId'
    · subst hid
      refine .inr ⟨rfl, ?_⟩
      dsimp only
      rw [Function.update_self]
      exact change
    · exact .inl ⟨(Function.update_of_ne hid c' s.db.cells).symm, .inr rfl⟩

theorem Sys.Effect.bound (h : s.Effect g U db) (hs : s.db.sequence + 1 < u64Bound) :
    db.sequence + 1 < u64Bound := by
  cases h with
  | none h => subst h; exact hs
  | commit cellId c' bound change h => subst h; exact bound

/-- A relation between an earlier cell and a later one that commits of the cell and of other cells
keep is kept by an event. -/
theorem Sys.Effect.keeps (h : s.Effect g U db) (R : StorageSequence → Cell → Prop)
    (other : R s.db.sequence (s.db.cells cellId) → R (s.db.sequence + 1) (s.db.cells cellId))
    (change : ∀ c', R s.db.sequence (s.db.cells cellId) →
      Change g U s.db.sequence (s.db.cells cellId) c' → R (s.db.sequence + 1) c')
    (hR : R s.db.sequence (s.db.cells cellId)) : R db.sequence (db.cells cellId) := by
  rcases h.cell cellId with ⟨hcell, hseq | hseq⟩ | ⟨hseq, hchange⟩
  · rw [hseq, ← hcell]; exact hR
  · rw [hseq, ← hcell]; exact other hR
  · rw [hseq]; exact change _ hR hchange

/-- An event keeps the invariants of the store. -/
theorem Sys.Ok.exec (ok : s.Ok g) (allowed : g.Allows s e) : (s.exec e).Ok g := by
  have effect := ok.effect allowed
  -- what is known of a preparation, for the requests that were already under way
  have hprepared : g.uncapped = true → ∀ f ∈ s.pending, ∀ p, f.prepared = some p →
      Prepared g f.request.batch.2 (retainFirst ∅ f.request.batch.1) (s.exec e).db.sequence
        ((s.exec e).db.cells f.cellId) p := by
    intro hu f hf p hp
    refine effect.keeps
      (fun n c => Prepared g f.request.batch.2 (retainFirst ∅ f.request.batch.1) n c p)
      (fun h => h.mono fun hs => ?_) (fun c' h hc => h.mono fun hs => ?_) (ok.pending hu f hf p hp)
    · exact hs.mono (Nat.le_succ _) (Nat.succ_ne_self _)
    · exact hs.change (ok.cells _) ok.bound (allowed.uncapped hu) hc
  refine ⟨effect.bound ok.bound, fun cellId => ?_, fun hu => ?_⟩
  · exact effect.keeps (CellOk g) (fun h => h.mono (Nat.le_succ _)) (fun c' h hc => h.change hc)
      (ok.cells cellId)
  cases e with
  | mutate | collect => exact hprepared hu
  | commitDelete =>
    intro f hf
    refine hprepared hu f ?_
    unfold Sys.exec at hf
    dsimp only at hf
    split at hf
    · exact List.mem_of_mem_eraseIdx hf
    · exact hf
  | prepareDelete env cellId request =>
    intro f hf p hp
    change f ∈ (s.prepare env cellId request).pending at hf
    unfold prepare at hf
    split at hf
    · next prepared hprepare =>
      rcases List.mem_snoc.1 hf with hf | rfl
      · exact hprepared hu f hf p hp
      obtain rfl : prepared = some p := hp
      have hdb : (s.exec (.prepareDelete env cellId request)).db = s.db := by
        change (s.prepare env cellId request).db = s.db
        unfold prepare
        split <;> rfl
      rw [hdb]
      have hepoch := (prepareVertexDelete_ok (ok.cells cellId) allowed.policy hprepare).2.1
      refine ⟨env, cellId, s.db.cells cellId, allowed.policy, ?_, ?_, ?_⟩
      · rw [hepoch]; exact ok.cells cellId
      · rw [hepoch]; exact .refl _
      · rw [hepoch]; exact hprepare
    · exact hprepared hu f hf p hp

/-- The states that runs of a regime reach from the empty store. -/
def Sys.Reachable (g : Regime) (s : Sys) : Prop := Machine.Run Sys.exec g.Allows .initial s

theorem Sys.Ok.run (ok : s.Ok g) (h : Machine.Run Sys.exec g.Allows s s') : s'.Ok g :=
  h.invariant ok fun _ _ allowed ok => ok.exec allowed

theorem Sys.Ok.initial : Sys.initial.Ok g where
  bound := by decide
  cells _ := .empty g 0
  pending _ _ hf := absurd hf List.not_mem_nil

/-- Every reachable state keeps the invariants of the store. -/
theorem Sys.Reachable.ok (h : s.Reachable g) : s.Ok g := Sys.Ok.initial.run h

end HydraDb
