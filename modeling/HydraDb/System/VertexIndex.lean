import HydraDb.System.Safety

/-!
# The vertex indexes across runs

In every run the label index of a cell holds exactly the labels of its vertex records. The property
index holds exactly their properties as long as callers pass values in the form in which they are
read back: a signed integer that is not negative is stored as an unsigned one and indexed as a
signed one.
-/

namespace HydraDb

open VertexStore (Writes)

variable {canonical reverseIndex : Bool} {g : Regime} {s : Sys}

/-! ## One operation -/

/-- The steps of a transaction, read as writes of the vertex tables. -/
theorem Committed.writes (h : Committed F g n c c') : Writes F c.vertices c'.vertices := by
  refine Steps.invariant (P := fun d => Writes F c.vertices d.cell.vertices) h .refl ?_
  intro d d' hstep hwrites
  cases hstep with
  | putVertex v next vertices form written => exact hwrites.tail (.put v next vertices form written)
  | ensureVertex v absent => exact hwrites.tail (.ensure v absent)
  | deleteVertex v previous present => exact hwrites.tail (.delete v previous present)
  | _ => exact hwrites

/-! ## Runs -/

theorem Db.vertices_commit {db : Db}
    (h : ∀ c', r = some c' → Writes P (db.cells cellId).vertices c'.vertices) :
    Writes P (db.cells cellId').vertices ((db.commit cellId r).cells cellId').vertices := by
  cases r with
  | none => exact .refl
  | some c' =>
    unfold commit
    dsimp only
    split
    · dsimp only
      by_cases hid : cellId' = cellId
      · subst hid
        rw [Function.update_self]
        exact h c' rfl
      · rw [Function.update_of_ne hid]
        exact .refl
    · exact .refl

/-- An event changes the vertex tables of a cell by writes that store the caller's values. -/
theorem Sys.Ok.exec_vertices (ok : s.Ok g) (allowed : g.Allows s e)
    (hs : ∀ cellId, (s.db.cells cellId).vertices.RecordsCanonical)
    (form : canonical = true → e.VerticesCanonical) :
    Writes (VertexMetadata.Form canonical) (s.db.cells cellId).vertices
      ((s.exec e).db.cells cellId).vertices := by
  cases e with
  | mutate env mutation =>
    refine Db.vertices_commit (fun c' h => ?_)
    exact (mutation.run_committed (ok.cells _) allowed (fun _ => hs _)
      (fun metadata hmem hc => form hc metadata hmem) h).writes
  | prepareDelete env cellId' request =>
    refine .of_eq ?_
    change ((s.prepare env cellId' request).db.cells cellId).vertices = _
    unfold prepare
    split <;> rfl
  | commitDelete =>
    unfold Sys.exec
    dsimp only
    split
    · next f hf =>
      refine Db.vertices_commit (fun c' h => ?_)
      exact (ok.commitDelete_committed allowed hf h).writes
    · exact .refl
  | collect =>
    refine Db.vertices_commit (fun c' h => ?_)
    obtain ⟨r, h⟩ := Mutation.committedCell_eq_some h
    obtain ⟨l, -, rfl⟩ := gcTopologyChangelog_ok h
    exact .refl

/-- What is known of the vertex tables of every cell in a run. -/
structure Sys.VertexTablesOk (canonical : Bool) (s : Sys) : Prop where
  records : ∀ cellId, (s.db.cells cellId).vertices.RecordsCanonical
  labels : ∀ cellId, (s.db.cells cellId).vertices.LabelsExact
  properties : canonical = true → ∀ cellId, (s.db.cells cellId).vertices.PropertiesExact

/-- The events of a regime in which the callers pass canonical vertex property values, if that is
asked for. -/
def Regime.AllowsVertices (g : Regime) (canonical : Bool) (s : Sys) (e : Event) : Prop :=
  g.Allows s e ∧ (canonical = true → e.VerticesCanonical)

theorem Sys.VertexTablesOk.initial : Sys.initial.VertexTablesOk canonical where
  records _ _ _ hget := by cases hget
  labels _ := VertexStore.labelsExact_empty
  properties _ _ := VertexStore.propertiesExact_empty

theorem Sys.VertexTablesOk.exec (h : s.VertexTablesOk canonical) (ok : s.Ok g)
    (allowed : g.AllowsVertices canonical s e) : (s.exec e).VertexTablesOk canonical where
  records cellId := (ok.exec_vertices allowed.1 h.records allowed.2).invariant
    (h.records cellId) fun _ _ hwrite hr => hr.write hwrite
  labels cellId := (ok.exec_vertices allowed.1 h.records allowed.2).invariant
    (h.labels cellId) fun _ _ hwrite hl => hl.write hwrite
  properties hc cellId := (ok.exec_vertices allowed.1 h.records allowed.2).invariant
    (h.properties hc cellId) fun _ _ hwrite hp => hp.write (fun _ hm => hm hc) hwrite

theorem Sys.vertexTablesOk_of_run (h : Machine.Run exec (g.AllowsVertices canonical) .initial s)
    : s.VertexTablesOk canonical :=
  (h.invariant (I := fun s => s.Ok g ∧ s.VertexTablesOk canonical) ⟨.initial, .initial⟩
    fun _ _ allowed hs => ⟨hs.1.exec allowed.1, hs.2.exec hs.1 allowed⟩).2

/-- In every state of a run whose events pass canonical vertex property values only, the label and
property indexes of every cell hold exactly the keys of its vertex records as they are read back. -/
theorem vertex_indexes_exact_of_canonical
    (h : Machine.Run Sys.exec ((⟨reverseIndex, false, false, false⟩ : Regime).AllowsVertices true)
      .initial s) (cellId : CellId) :
    (s.db.cells cellId).vertices.LabelsExact ∧ (s.db.cells cellId).vertices.PropertiesExact :=
  have hs := Sys.vertexTablesOk_of_run h
  ⟨hs.labels cellId, hs.properties rfl cellId⟩

/-- A run that sets and merges vertex metadata, with a negative signed integer in it. -/
def metadataRun : List Event :=
  [.mutate (smallEnv true) (.setVertexMetadata "c" 1
      ⟨OrdMap.addAll ∅ ["Person"], OrdMap.put ∅ "age" (.signedInteger (-5))⟩),
   .mutate (smallEnv true) (.mergeVertexMetadataBatch "c"
      [(1, ⟨OrdMap.addAll ∅ ["Admin"], OrdMap.put ∅ "height" (.integer 7)⟩)] none)]

theorem vertex_indexes_exact_of_canonical_metadataRun :
    ((metadataRun.foldl Sys.exec .initial).db.cells "c").vertices.labels.keys =
        [⟨"Admin", 1⟩, ⟨"Person", 1⟩] ∧
      ((metadataRun.foldl Sys.exec .initial).db.cells "c").vertices.LabelsExact ∧
      ((metadataRun.foldl Sys.exec .initial).db.cells "c").vertices.PropertiesExact := by
  have hset : (⟨true, false, false, false⟩ : Regime).AllowsVertices true .initial
      (.mutate (smallEnv true) (.setVertexMetadata "c" 1
        ⟨OrdMap.addAll ∅ ["Person"], OrdMap.put ∅ "age" (.signedInteger (-5))⟩)) := by
    refine ⟨⟨rfl, trivial, nofun, nofun, nofun⟩, fun _ metadata hmem => ?_⟩
    cases List.mem_singleton.1 hmem
    decide +kernel
  have hmerge : ∀ s, (⟨true, false, false, false⟩ : Regime).AllowsVertices true s
      (.mutate (smallEnv true) (.mergeVertexMetadataBatch "c"
        [(1, ⟨OrdMap.addAll ∅ ["Admin"], OrdMap.put ∅ "height" (.integer 7)⟩)] none)) := by
    refine fun s => ⟨⟨rfl, trivial, nofun, nofun, nofun⟩, fun _ metadata hmem => ?_⟩
    cases List.mem_singleton.1 hmem
    decide +kernel
  have hrun : Machine.Admits Sys.exec ((⟨true, false, false, false⟩ : Regime).AllowsVertices true)
      .initial metadataRun := ⟨hset, hmerge _, trivial⟩
  exact ⟨by decide +kernel, vertex_indexes_exact_of_canonical (.of_admits hrun) "c"⟩

/-- The state after one caller sets a property of a vertex to a signed integer that is not
negative. -/
def signedFiveState : Sys :=
  Sys.initial.exec (.mutate (smallEnv true)
    (.setVertexMetadata "c" 1 ⟨∅, OrdMap.put ∅ "age" (.signedInteger 5)⟩))

/-- Setting a property to the signed integer 5 stores the integer 5 and indexes the signed one: the
index lacks the key that the record gives. -/
theorem not_propertiesExact_signedFive :
    signedFiveState.Reachable ⟨true, false, false, false⟩ ∧
      ¬ (signedFiveState.db.cells "c").vertices.PropertiesExact := by
  refine ⟨Machine.Run.refl.tail ⟨rfl, trivial, nofun, nofun, nofun⟩, fun h => ?_⟩
  have hindexed := (h ⟨"age", encodeVertexPropertyValueKey (.integer 5), 1⟩).2
    ⟨1, ⟨∅, OrdMap.put ∅ "age" (.integer 5)⟩, by decide +kernel, by decide +kernel⟩
  revert hindexed
  decide +kernel

end HydraDb
