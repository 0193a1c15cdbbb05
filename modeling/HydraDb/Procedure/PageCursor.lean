import HydraDb.Access.Authorised
import HydraDb.Index.Kernels
import HydraDb.Query.Value

/-!
# Page cursors of native procedures

A native procedure computes its whole result at the first page. What does not fit the page is kept
in a store of the shard under a cursor id, bound to the scope, the cell, the query text and the
parameters of the request, and continuations drain it (`execute_native_path_rows_page`,
`shard/path_procedure.rs`). The procedure runs before the store is locked and everything else
happens under the lock, so an interleaving of requests is the sequence in which they take the lock.

A request carries what the shard reads while it answers: the procedure's result and the clock, which
need not agree with anything. Beside the store a `PageLedger` keeps for each cursor id the request
that issued it and the rows handed out since. `Accounted` relates the two, every request keeps it,
and `cursors_lossless` reads off what clients are handed.
-/

namespace HydraDb.NativePath

open OrdMap List

variable {F : Frontend}

/-! ## The store -/

/-- `MAX_NATIVE_PATH_PAGE_CURSORS`. -/
def maxPageCursors : Nat := 1024

/-- `MAX_NATIVE_PATH_PAGE_CURSOR_BYTES`. -/
def maxPageCursorBytes : Nat := 64 * 1024 * 1024

/-- `NATIVE_PATH_PAGE_CURSOR_TTL`, in seconds of the clock. -/
def pageCursorTtl : Nat := 60

/-- `NativePathPageCursor`. -/
structure PageCursor (F : Frontend) where
  scope : GraphScope
  cellId : CellId
  query : QueryText
  parameters : F.Parameters
  columns : List String
  rows : List QueryRow
  expiresAt : Nat
  residentBytes : Nat

/-- `NativePathPageCursorStore`. -/
structure PageCursorStore (F : Frontend) where
  nextId : Nat
  residentBytes : Nat
  cursors : OrdMap Nat (PageCursor F)

/-- `NativePathPageCursorStore::default`. -/
def PageCursorStore.default : PageCursorStore F := ⟨1, 0, ∅⟩

/-- The bytes that a list of cursors records, added up as `u64`s. -/
def recordedBytes (entries : List (Nat × PageCursor F)) : Nat :=
  entries.foldl (fun total entry => saturatingAdd total entry.2.residentBytes) 0

/-- `purge_native_path_page_cursors`, with the time it reads. -/
def purgePageCursors (store : PageCursorStore F) (now : Nat) : PageCursorStore F :=
  let released := recordedBytes <|
    store.cursors.entries.filter fun entry => !(entry.2.expiresAt > now)
  { store with
    cursors := store.cursors.filterMapValues fun cursor =>
      if cursor.expiresAt > now then some cursor else none
    residentBytes := store.residentBytes - released }

/-- The loop of `next_native_path_page_cursor_id`, with the tries left. -/
def nextPageCursorId : Nat → PageCursorStore F → Option Nat × PageCursorStore F
  | 0, store => (none, store)
  | tries + 1, store =>
    let candidate := max store.nextId 1
    let store := { store with nextId := max ((candidate + 1) % u64Bound) 1 }
    if store.cursors.contains candidate then nextPageCursorId tries store
    else (some candidate, store)

/-! ## Requests -/

/-- One call of `execute_native_path_rows_page`, with what the shard reads while it answers. -/
structure PageRequest (F : Frontend) where
  context : QueryContext F
  query : QueryText
  cursor : Option Nat
  pageSize : Nat
  /-- What `execute_native_procedure_rows` answers, columns and rows; first pages ask for it. -/
  result : Except GraphError (List String × List QueryRow)
  /-- The clock at the purge. -/
  purgedAt : Nat
  /-- The clock when a cursor is stored. -/
  storedAt : Nat

/-- `QueryResultPage`. -/
structure QueryResultPage where
  columns : List String
  rows : List QueryRow
  nextCursor : Option Nat

/-- What a cursor is bound to: scope, cell, query text and parameters. -/
def PageCursor.binding (cursor : PageCursor F) : GraphScope × CellId × QueryText × F.Parameters :=
  (cursor.scope, cursor.cellId, cursor.query, cursor.parameters)

/-- What a request must have in common with the cursor it continues. -/
def PageRequest.binding (request : PageRequest F) :
    GraphScope × CellId × QueryText × F.Parameters :=
  (request.context.scope, request.context.cellId, request.query, request.context.parameters)

section
variable (rowBytes : QueryRow → Nat)

/-- `native_path_rows_resident_bytes`, over `QueryRow::estimated_resident_bytes`. -/
def rowsResidentBytes (rows : List QueryRow) : Nat :=
  rows.foldl (fun total row => saturatingAdd total (rowBytes row)) 0

/-- The cursor that keeps `rest` for a request. -/
def PageRequest.cursorOf (request : PageRequest F) (columns : List String)
    (rest : List QueryRow) : PageCursor F where
  scope := request.context.scope
  cellId := request.context.cellId
  query := request.query
  parameters := request.context.parameters
  columns := columns
  rows := rest
  expiresAt := request.storedAt + pageCursorTtl
  residentBytes := rowsResidentBytes rowBytes rest

/-- The part of `execute_native_path_rows_page` that stores what is left of a first page. -/
def storeRest (store : PageCursorStore F) (request : PageRequest F) (columns : List String)
    (page rest : List QueryRow) : Except GraphError QueryResultPage × PageCursorStore F :=
  let residentBytes := rowsResidentBytes rowBytes rest
  if residentBytes > maxPageCursorBytes then
    (.error (.admissionRejected "native_path_cursor_bytes" residentBytes maxPageCursorBytes), store)
  else
    let store := purgePageCursors store request.purgedAt
    let count := store.cursors.entries.length
    let nextBytes := saturatingAdd store.residentBytes residentBytes
    if count ≥ maxPageCursors then
      (.error (.admissionRejected "native_path_cursors" (saturatingAdd count 1)
        maxPageCursors), store)
    else if nextBytes > maxPageCursorBytes then
      (.error (.admissionRejected "native_path_cursor_bytes" nextBytes maxPageCursorBytes), store)
    else
      match nextPageCursorId (maxPageCursors + 1) store with
      | (none, store) =>
        (.error (.admissionRejected "native_path_cursor_ids" (saturatingAdd count 1)
          maxPageCursors), store)
      | (some cursor, store) =>
        (.ok ⟨columns, page, some cursor⟩,
          { store with
            residentBytes := nextBytes
            cursors := store.cursors.put cursor (request.cursorOf rowBytes columns rest) })

variable [DecidableEq F.Parameters]

/-- `continue_native_path_page`. -/
def continuePage (store : PageCursorStore F) (request : PageRequest F)
    (cursor : Nat) : Except GraphError QueryResultPage × PageCursorStore F :=
  let store := purgePageCursors store request.purgedAt
  match store.cursors.get cursor with
  | none => (.error (unsupported .invalidRequest "native path cursor is unknown or expired"), store)
  | some stored =>
    if stored.binding ≠ request.binding then
      (.error (unsupported .invalidRequest "native path cursor does not belong to this query"),
        store)
    else
      let residentBytes := store.residentBytes - stored.residentBytes
      let rows := stored.rows.take request.pageSize
      let rest := stored.rows.drop request.pageSize
      if rest.isEmpty then
        (.ok ⟨stored.columns, rows, none⟩,
          { store with residentBytes, cursors := store.cursors.del cursor })
      else
        let stored := { stored with
          rows := rest
          residentBytes := rowsResidentBytes rowBytes rest
          expiresAt := request.storedAt + pageCursorTtl }
        (.ok ⟨stored.columns, rows, some cursor⟩,
          { store with
            residentBytes := saturatingAdd residentBytes stored.residentBytes
            cursors := (store.cursors.del cursor).put cursor stored })

/-- `execute_native_path_rows_page`. -/
def executeRowsPage (store : PageCursorStore F) (request : PageRequest F) :
    Except GraphError QueryResultPage × PageCursorStore F :=
  if request.pageSize = 0 then
    (.error (unsupported .invalidRequest "native path page size must be greater than zero"), store)
  else
    match request.cursor with
    | some cursor => continuePage rowBytes store request cursor
    | none =>
      match request.result with
      | .error error => (.error error, store)
      | .ok (columns, rows) =>
        let page := rows.take request.pageSize
        let rest := rows.drop request.pageSize
        if rest.isEmpty then (.ok ⟨columns, page, none⟩, store)
        else storeRest rowBytes store request columns page rest

end

/-! ## What a request can do -/

/-- The answers a request can get and the stores it can leave; `purged` is the store after the
purge. -/
inductive Served (rowBytes : QueryRow → Nat) (store purged : PageCursorStore F)
    (request : PageRequest F) : Except GraphError QueryResultPage → PageCursorStore F → Prop
  /-- An error before the store is locked, or a result that fits the first page. -/
  | untouched : (∀ page, answer = .ok page → request.cursor = none ∧ page.nextCursor = none) →
      Served rowBytes store purged request answer store
  /-- An error after the purge; ids may have been tried. -/
  | refused : Served rowBytes store purged request (.error error) { purged with nextId }
  /-- A first page whose rest is stored under a free id. -/
  | issued : request.cursor = none → request.result = .ok (columns, rows) →
      rows.drop request.pageSize ≠ [] → purged.cursors.get cursor = none →
      nextBytes = saturatingAdd purged.residentBytes
        (rowsResidentBytes rowBytes (rows.drop request.pageSize)) →
      nextBytes ≤ maxPageCursorBytes →
      Served rowBytes store purged request (.ok ⟨columns, rows.take request.pageSize, some cursor⟩)
        ⟨nextId, nextBytes, purged.cursors.put cursor
          (request.cursorOf rowBytes columns (rows.drop request.pageSize))⟩
  /-- The last page of a cursor. -/
  | drained : request.cursor = some cursor → purged.cursors.get cursor = some stored →
      stored.binding = request.binding → stored.rows.drop request.pageSize = [] →
      Served rowBytes store purged request
        (.ok ⟨stored.columns, stored.rows.take request.pageSize, none⟩)
        ⟨nextId, purged.residentBytes - stored.residentBytes, purged.cursors.del cursor⟩
  /-- A page of a cursor that keeps its id for the rest. -/
  | continued : request.cursor = some cursor → purged.cursors.get cursor = some stored →
      stored.binding = request.binding → stored.rows.drop request.pageSize ≠ [] →
      Served rowBytes store purged request
        (.ok ⟨stored.columns, stored.rows.take request.pageSize, some cursor⟩)
        ⟨nextId, saturatingAdd (purged.residentBytes - stored.residentBytes)
          (rowsResidentBytes rowBytes (stored.rows.drop request.pageSize)),
          (purged.cursors.del cursor).put cursor
            { stored with
              rows := stored.rows.drop request.pageSize
              residentBytes := rowsResidentBytes rowBytes (stored.rows.drop request.pageSize)
              expiresAt := request.storedAt + pageCursorTtl }⟩

/-- The search for an id changes nothing but the next id, and what it finds is free. -/
theorem nextPageCursorId_spec (tries : Nat) (store : PageCursorStore F) :
    (∃ nextId, (nextPageCursorId tries store).2 = { store with nextId }) ∧
      ∀ id, (nextPageCursorId tries store).1 = some id → store.cursors.get id = none := by
  induction tries generalizing store with
  | zero => exact ⟨⟨store.nextId, rfl⟩, nofun⟩
  | succ tries ih =>
    unfold nextPageCursorId
    dsimp only
    split
    · exact ih _
    next hfree =>
    refine ⟨⟨_, rfl⟩, fun id h => ?_⟩
    cases h
    exact Option.not_isSome_iff_eq_none.1 hfree

section
variable {rowBytes : QueryRow → Nat} {store : PageCursorStore F} {request : PageRequest F}

theorem storeRest_served (hcursor : request.cursor = none)
    (hresult : request.result = .ok (columns, rows)) (hrest : rows.drop request.pageSize ≠ []) :
    let out := storeRest rowBytes store request columns (rows.take request.pageSize)
      (rows.drop request.pageSize)
    Served rowBytes store (purgePageCursors store request.purgedAt) request out.1 out.2 := by
  unfold storeRest
  dsimp only
  split
  · exact .untouched nofun
  split
  · exact .refused
  split
  · exact .refused
  next hbytes =>
    obtain ⟨⟨nextId, hstore⟩, hfree⟩ := nextPageCursorId_spec
      (maxPageCursors + 1) (purgePageCursors store request.purgedAt)
    split
    · next heq =>
      rw [heq] at hstore
      cases hstore
      exact .refused
    · next id _ heq =>
      rw [heq] at hstore hfree
      cases hstore
      exact .issued hcursor hresult hrest (hfree id rfl) rfl (not_lt.1 hbytes)

variable [DecidableEq F.Parameters] {cursors : OrdMap Nat (PageCursor F)}

theorem continuePage_served (hcursor : request.cursor = some cursor) :
    Served rowBytes store (purgePageCursors store request.purgedAt) request
      (continuePage rowBytes store request cursor).1
      (continuePage rowBytes store request cursor).2 := by
  unfold continuePage
  dsimp only
  split
  · exact .refused
  next stored hget =>
  split
  · exact .refused
  next hsame =>
  split
  · next hempty => exact .drained hcursor hget (not_not.1 hsame) (isEmpty_iff.1 hempty)
  · next hempty =>
    exact .continued hcursor hget (not_not.1 hsame) fun h => hempty (isEmpty_iff.2 h)

/-- Every call of `executeRowsPage` is one of the cases. -/
theorem executeRowsPage_served :
    Served rowBytes store (purgePageCursors store request.purgedAt) request
      (executeRowsPage rowBytes store request).1
      (executeRowsPage rowBytes store request).2 := by
  unfold executeRowsPage
  split
  · exact .untouched nofun
  split
  · next hcursor => exact continuePage_served hcursor
  next hcursor =>
  split
  · exact .untouched nofun
  next columns rows hresult =>
  dsimp only
  split
  · refine .untouched fun page hpage => ?_
    cases hpage
    exact ⟨hcursor, rfl⟩
  · next hempty =>
    exact storeRest_served hcursor hresult fun h => hempty (isEmpty_iff.2 h)

/-- A first page has the first rows of the result, and a cursor exactly when rows remain; it is
refused only for want of room for those. -/
theorem executeRowsPage_first (hfirst : request.cursor = none) (hsize : request.pageSize ≠ 0)
    (hresult : request.result = .ok (columns, rows)) :
    (∃ nextCursor, (executeRowsPage rowBytes store request).1 =
        .ok ⟨columns, rows.take request.pageSize, nextCursor⟩ ∧
      (nextCursor = none ↔ rows.length ≤ request.pageSize)) ∨
    request.pageSize < rows.length ∧ ∃ operation actual limit,
      (executeRowsPage rowBytes store request).1 =
        .error (.admissionRejected operation actual limit) := by
  simp only [executeRowsPage, if_neg hsize, hfirst, hresult]
  split
  · next hempty => exact .inl ⟨none, rfl, by simpa using hempty⟩
  next hempty =>
  have hmore : request.pageSize < rows.length := by simpa using hempty
  unfold storeRest
  dsimp only
  split
  · exact .inr ⟨hmore, _, _, _, rfl⟩
  split
  · exact .inr ⟨hmore, _, _, _, rfl⟩
  split
  · exact .inr ⟨hmore, _, _, _, rfl⟩
  split
  · exact .inr ⟨hmore, _, _, _, rfl⟩
  · exact .inl ⟨some _, rfl, by simp [hmore]⟩

end

/-! ## The recorded bytes -/

/-- The bytes recorded for the cursors of a store. -/
def cursorBytes (cursors : OrdMap Nat (PageCursor F)) : Nat :=
  (cursors.entries.map fun entry => entry.2.residentBytes).sum

/-- A sum of `u64`s is the sum of the numbers, or the largest `u64`. -/
theorem foldl_saturatingAdd (f : α → Nat) (xs : List α) (hinit : init ≤ 2 ^ 64 - 1) :
    xs.foldl (fun total x => saturatingAdd total (f x)) init =
      min (init + (xs.map f).sum) (2 ^ 64 - 1) := by
  induction xs generalizing init with
  | nil => simpa using hinit
  | cons x xs ih =>
    rw [foldl_cons, saturatingAdd, ih (min_le_right _ _), map_cons, sum_cons]
    omega

/-- What is left of a list of rows takes no more than the list. -/
theorem rowsResidentBytes_drop_le (rowBytes : QueryRow → Nat) (n : Nat) (rows : List QueryRow) :
    rowsResidentBytes rowBytes (rows.drop n) ≤ rowsResidentBytes rowBytes rows := by
  unfold rowsResidentBytes
  rw [foldl_saturatingAdd _ _ (Nat.zero_le _), foldl_saturatingAdd _ _ (Nat.zero_le _)]
  have hsplit := congrArg (fun rows => (rows.map rowBytes).sum) (take_append_drop n rows)
  simp only [map_append, sum_append] at hsplit
  omega

/-- The record agrees with the cursors, stays within the limit, and each cursor's bytes are those
of its rows. -/
structure PageCursorStore.Weighed (rowBytes : QueryRow → Nat)
    (store : PageCursorStore F) : Prop where
  total : store.residentBytes = cursorBytes store.cursors
  limit : store.residentBytes ≤ maxPageCursorBytes
  cursor : ∀ id cursor, store.cursors.get id = some cursor →
    cursor.residentBytes = rowsResidentBytes rowBytes cursor.rows

section
variable {rowBytes : QueryRow → Nat} {store : PageCursorStore F}

theorem get_purge : (purgePageCursors store now).cursors.get cursor =
    (store.cursors.get cursor).bind fun stored =>
      if stored.expiresAt > now then some stored else none :=
  get_filterMapValues

/-- What a purge leaves was there and has not expired. -/
theorem get_of_get_purge (h : (purgePageCursors store now).cursors.get cursor = some stored) :
    store.cursors.get cursor = some stored ∧ stored.expiresAt > now := by
  rw [get_purge] at h
  obtain ⟨_, hget, hlive⟩ := Option.bind_eq_some_iff.1 h
  split at hlive
  · cases hlive
    exact ⟨hget, ‹_›⟩
  · cases hlive

theorem entries_purge : (purgePageCursors store now).cursors.entries =
    store.cursors.entries.filter fun entry => entry.2.expiresAt > now := by
  refine (congrArg (fun f => store.cursors.entries.filterMap f) (funext fun entry => ?_)).trans
    (congrFun filterMap_eq_filter _)
  by_cases h : entry.2.expiresAt > now <;> simp [Option.guard]

/-- The purge takes what the expired cursors recorded off the record. -/
theorem PageCursorStore.Weighed.purge (h : store.Weighed rowBytes) :
    (purgePageCursors store now).Weighed rowBytes := by
  have hsplit := ((filter_append_perm (fun entry => decide (entry.2.expiresAt > now))
    store.cursors.entries).map fun entry => entry.2.residentBytes).sum_nat
  rw [map_append, sum_append] at hsplit
  have htotal := h.total
  have hlimit := h.limit
  unfold maxPageCursorBytes at hlimit
  have hbytes : (purgePageCursors store now).residentBytes =
      cursorBytes (purgePageCursors store now).cursors := by
    rw [cursorBytes, entries_purge, purgePageCursors]
    dsimp only
    rw [recordedBytes, foldl_saturatingAdd _ _ (Nat.zero_le _)]
    unfold cursorBytes at htotal
    omega
  exact ⟨hbytes, (Nat.sub_le _ _).trans h.limit,
    fun id cursor hget => h.cursor id cursor (get_of_get_purge hget).1⟩

/-- An entry under a free id adds what it records. -/
theorem cursorBytes_put (hfree : cursors.get cursor = none) :
    cursorBytes (cursors.put cursor stored) = stored.residentBytes + cursorBytes cursors := by
  unfold cursorBytes
  rw [((perm_entries_put hfree).map _).sum_nat, map_cons, sum_cons]

/-- Without an entry a store records that much less. -/
theorem cursorBytes_del (hget : cursors.get cursor = some stored) :
    cursorBytes cursors = stored.residentBytes + cursorBytes (cursors.del cursor) := by
  unfold cursorBytes
  rw [((perm_entries_del hget).map _).sum_nat, map_cons, sum_cons]

/-- Every request keeps the record right. -/
theorem PageCursorStore.Weighed.served (h : store.Weighed rowBytes)
    (hserved : Served rowBytes store (purgePageCursors store now) request answer store') :
    store'.Weighed rowBytes := by
  have hpurged : (purgePageCursors store now).Weighed rowBytes := h.purge
  generalize purgePageCursors store now = purged at hserved hpurged
  cases hserved with
  | untouched => exact h
  | refused => exact ⟨hpurged.total, hpurged.limit, hpurged.cursor⟩
  | issued _ _ _ hfree hbytes hlimit =>
    refine ⟨?_, hlimit, forall_get_put hpurged.cursor rfl⟩
    rw [cursorBytes_put hfree, ← hpurged.total]
    unfold saturatingAdd at hbytes
    unfold maxPageCursorBytes at hlimit
    simp only [PageRequest.cursorOf]
    omega
  | drained _ hget =>
    refine ⟨?_, (Nat.sub_le _ _).trans hpurged.limit, fun id cursor hkept => ?_⟩
    · have htotal := hpurged.total.trans (cursorBytes_del hget)
      dsimp only
      omega
    rw [get_del] at hkept
    split at hkept
    · cases hkept
    · exact hpurged.cursor id cursor hkept
  | @continued cursor stored _ _ hget =>
    -- The rest takes no more than the rows it is left from, so the limit still holds.
    have hrest := rowsResidentBytes_drop_le rowBytes request.pageSize stored.rows
    rw [← hpurged.cursor cursor stored hget] at hrest
    have htotal := hpurged.total.trans (cursorBytes_del hget)
    have hlimit := hpurged.limit
    have hnone : (purged.cursors.del cursor).get cursor = none := by
      rw [get_del, if_pos rfl]
    unfold maxPageCursorBytes at hlimit
    refine ⟨?_, ?_, fun id kept hkept => ?_⟩
    · rw [cursorBytes_put hnone]
      simp only [saturatingAdd]
      omega
    · simp only [saturatingAdd, maxPageCursorBytes]
      omega
    rw [get_put, get_del] at hkept
    split at hkept
    · cases hkept
      rfl
    · exact hpurged.cursor id kept hkept

end

/-! ## What clients are handed -/

/-- The rows of a first page's result. -/
def PageRequest.rows (request : PageRequest F) : List QueryRow :=
  match request.result with
  | .ok result => result.2
  | .error _ => []

/-- A cursor id in use: the first page it was issued with, the rows handed out since, that page's
included, and whether the store has dropped it for its age. -/
structure Issue (F : Frontend) where
  request : PageRequest F
  handed : List QueryRow
  expired : Bool

/-- An issue after a request that found one entry under its id and left another. -/
def Issue.age (now : Nat) (before store' : Option (PageCursor F)) (issue : Issue F) : Issue F :=
  { issue with
    expired := issue.expired || (before.any fun cursor => cursor.expiresAt ≤ now) && store'.isNone }

/-- An answer in the books of the id `cursor`: a first page that names it issues it, a page that
continues it is handed out under it. -/
def PageRequest.book (request : PageRequest F) (answer : Except GraphError QueryResultPage)
    (cursor : Nat) (issue : Option (Issue F)) : Option (Issue F) :=
  match answer, request.cursor with
  | .error _, _ => issue
  | .ok page, none =>
    if page.nextCursor = some cursor then some ⟨request, page.rows, false⟩ else issue
  | .ok page, some continued =>
    if continued = cursor then
      issue.map fun issue => { issue with handed := issue.handed ++ page.rows }
    else issue

/-- The store of a shard with the books of its cursor ids. -/
structure PageLedger (F : Frontend) where
  store : PageCursorStore F
  issued : Nat → Option (Issue F)

section
variable [DecidableEq F.Parameters] (rowBytes : QueryRow → Nat)

/-- One request. -/
def PageLedger.serve (ledger : PageLedger F) (request : PageRequest F) : PageLedger F :=
  let out := executeRowsPage rowBytes ledger.store request
  { store := out.2
    issued := fun cursor => request.book out.1 cursor ((ledger.issued cursor).map
      (Issue.age request.purgedAt (ledger.store.cursors.get cursor) (out.2.cursors.get cursor))) }

/-- The requests of any clients, in the order in which they take the lock of the store. -/
def PageLedger.run (requests : List (PageRequest F)) : PageLedger F :=
  requests.foldl (PageLedger.serve rowBytes) ⟨.default, fun _ => none⟩

end

/-- How the entry of an id stands to its books. -/
def Accounted (requests : List (PageRequest F)) : Option (PageCursor F) → Option (Issue F) → Prop
  | none, none => True
  | some _, none => False
  | none, some issue => issue.expired = true ∨ issue.handed = issue.request.rows
  | some cursor, some issue =>
    (issue.request ∈ requests ∧ issue.request.cursor = none) ∧
      cursor.binding = issue.request.binding ∧ cursor.rows ≠ [] ∧
      issue.handed ++ cursor.rows = issue.request.rows

section
variable {requests : List (PageRequest F)} {before : Option (PageCursor F)}

/-- A purge, or nothing, happens to an entry. -/
theorem Accounted.aged (h : Accounted requests before issue)
    (hafter : store' = before ∨
      store' = before.bind fun cursor => if cursor.expiresAt > now then some cursor else none) :
    Accounted (requests ++ [request]) store' (issue.map (Issue.age now before store')) := by
  cases issue with
  | none =>
    cases before with
    | none => rcases hafter with rfl | rfl <;> trivial
    | some => exact h.elim
  | some issue =>
    cases before with
    | none =>
      have hnone : store' = none := by rcases hafter with rfl | rfl <;> rfl
      subst hnone
      exact h.imp_left fun hexpired => by simp [Issue.age, hexpired]
    | some cursor =>
      have hkept : Accounted (requests ++ [request]) (some cursor)
          (some (issue.age now (some cursor) (some cursor))) :=
        ⟨⟨mem_append_left _ h.1.1, h.1.2⟩, h.2⟩
      rcases hafter with rfl | rfl
      · exact hkept
      by_cases hlive : cursor.expiresAt > now
      · simp only [Option.bind_some, if_pos hlive]
        exact hkept
      · simp only [Option.bind_some, if_neg hlive]
        exact .inl (by simp [Issue.age, not_lt.1 hlive])

variable {rowBytes : QueryRow → Nat} {store : PageCursorStore F}
  {issued : Nat → Option (Issue F)}

/-- The entry that a continuation finds is in the books of its id. -/
theorem Accounted.of_get_purge
    (h : ∀ cursor, Accounted requests (store.cursors.get cursor) (issued cursor))
    (hget : (purgePageCursors store now).cursors.get cursor = some stored) :
    ∃ issue, issued cursor = some issue ∧ Accounted requests (some stored) (some issue) := by
  have hcursor := h cursor
  rw [(get_of_get_purge hget).1] at hcursor
  cases hissue : issued cursor with
  | none => exact (hissue ▸ hcursor).elim
  | some issue => exact ⟨issue, rfl, hissue ▸ hcursor⟩

/-- Every request keeps the books of every id. -/
theorem Accounted.served
    (h : ∀ cursor, Accounted requests (store.cursors.get cursor) (issued cursor))
    (hserved : Served rowBytes store (purgePageCursors store request.purgedAt) request
      answer store') (cursor : Nat) :
    Accounted (requests ++ [request]) (store'.cursors.get cursor)
      (request.book answer cursor ((issued cursor).map
        (Issue.age request.purgedAt (store.cursors.get cursor) (store'.cursors.get cursor)))) := by
  cases hserved with
  | untouched hquiet =>
    cases answer with
    | error => exact (h cursor).aged (.inl rfl)
    | ok page =>
      obtain ⟨hfirst, hnext⟩ := hquiet page rfl
      simp only [PageRequest.book, hfirst, hnext, reduceCtorEq, if_false]
      exact (h cursor).aged (.inl rfl)
  | refused => exact (h cursor).aged (.inr get_purge)
  | @issued columns rows issuedId _ _ hfirst hresult hrest hfree =>
    simp only [PageRequest.book, hfirst, get_put, Option.some.injEq]
    by_cases hid : issuedId = cursor
    · subst hid
      simp only [if_true]
      refine ⟨⟨mem_append_right _ mem_cons_self, hfirst⟩, rfl, hrest, ?_⟩
      simp [PageRequest.cursorOf, PageRequest.rows, hresult]
    · simp only [if_neg hid, if_neg (Ne.symm hid)]
      exact (h cursor).aged (.inr get_purge)
  | @drained continued stored _ hcursor hget hsame hrest =>
    simp only [PageRequest.book, hcursor, get_del]
    by_cases hid : continued = cursor
    · subst hid
      obtain ⟨issue, hissue, -, -, -, hrows⟩ := of_get_purge h hget
      simp only [hissue, if_true, Option.map_some]
      have hall : stored.rows.take request.pageSize = stored.rows := by
        simpa only [hrest, append_nil] using take_append_drop request.pageSize stored.rows
      exact .inr (by simpa only [Issue.age, hall] using hrows)
    · simp only [if_neg hid, if_neg (Ne.symm hid)]
      exact (h cursor).aged (.inr get_purge)
  | @continued continued stored _ hcursor hget hsame hrest =>
    simp only [PageRequest.book, hcursor, get_put, get_del]
    by_cases hid : continued = cursor
    · subst hid
      obtain ⟨issue, hissue, hfirst, hbelongs, -, hrows⟩ := of_get_purge h hget
      simp only [hissue, if_true, Option.map_some]
      refine ⟨⟨mem_append_left _ hfirst.1, hfirst.2⟩, hbelongs, hrest, ?_⟩
      simpa only [PageRequest.cursorOf, Issue.age, append_assoc, take_append_drop] using hrows
    · simp only [if_neg hid, if_neg (Ne.symm hid)]
      exact (h cursor).aged (.inr get_purge)

end

section
variable [DecidableEq F.Parameters] (rowBytes : QueryRow → Nat)

/-- The record is right and every id is accounted for after any requests. -/
theorem PageLedger.run_sound (requests : List (PageRequest F)) :
    (run rowBytes requests).store.Weighed rowBytes ∧
      ∀ cursor, Accounted requests ((run rowBytes requests).store.cursors.get cursor)
        ((run rowBytes requests).issued cursor) := by
  induction requests using List.reverseRecOn with
  | nil => exact ⟨⟨rfl, Nat.zero_le _, nofun⟩, fun _ => trivial⟩
  | append_singleton requests request ih =>
    rw [run, foldl_append]
    exact ⟨ih.1.served executeRowsPage_served, Accounted.served ih.2 executeRowsPage_served⟩

/-- Cursors are isolated and lossless. After any requests of any clients the recorded bytes are the
sum over the stored cursors and within the limit, and an id whose cursor is gone without having
expired has handed out the whole result of its first page. A first page that is answered has the
first rows of the procedure's result and a cursor exactly when rows remain, and one whose procedure
has a result is refused only when what remains cannot be kept. A continuation that is answered is
handed rows of a first page of the same scope, cell, query and parameters, the ones that follow
those handed out under its id so far, with the id again while rows remain; and the own continuation
of a stored cursor that has not expired is answered with at least one row. -/
theorem cursors_lossless (requests : List (PageRequest F)) :
    let ledger := PageLedger.run rowBytes requests
    ledger.store.residentBytes = cursorBytes ledger.store.cursors ∧
    ledger.store.residentBytes ≤ maxPageCursorBytes ∧
    (∀ cursor issue, ledger.issued cursor = some issue →
      ledger.store.cursors.get cursor = none → issue.expired = false →
      issue.handed = issue.request.rows) ∧
    (∀ request, request.cursor = none →
      (∀ page, (executeRowsPage rowBytes ledger.store request).1 = .ok page →
        request.result = .ok (page.columns, request.rows) ∧
          page.rows = request.rows.take request.pageSize ∧
          (page.nextCursor = none ↔ request.rows.length ≤ request.pageSize)) ∧
      ∀ result, request.result = .ok result → request.pageSize ≠ 0 →
        (∃ page, (executeRowsPage rowBytes ledger.store request).1 = .ok page) ∨
        request.pageSize < result.2.length ∧ ∃ operation actual limit,
          (executeRowsPage rowBytes ledger.store request).1 =
            .error (.admissionRejected operation actual limit)) ∧
    ∀ request cursor, request.cursor = some cursor →
      (∀ page, (executeRowsPage rowBytes ledger.store request).1 = .ok page →
        ∃ issue rest, ledger.issued cursor = some issue ∧ issue.request ∈ requests ∧
          issue.request.cursor = none ∧ request.binding = issue.request.binding ∧
          issue.handed ++ page.rows ++ rest = issue.request.rows ∧
          page.nextCursor = if rest = [] then none else some cursor) ∧
      ∀ stored, ledger.store.cursors.get cursor = some stored →
        request.purgedAt < stored.expiresAt → stored.binding = request.binding →
        request.pageSize ≠ 0 →
        ∃ page, (executeRowsPage rowBytes ledger.store request).1 = .ok page ∧ page.rows ≠ [] := by
  intro ledger
  obtain ⟨hweighed, hbooks⟩ := PageLedger.run_sound rowBytes requests
  refine ⟨hweighed.total, hweighed.limit, fun cursor issue hissue hgone hfresh => ?_,
    fun request hfirst => ⟨fun page hpage => ?_, fun result hresult hsize => ?_⟩,
    fun request cursor hcursor => ⟨fun page hpage => ?_, fun stored hget hlive hsame hsize => ?_⟩⟩
  · have hbook := hbooks cursor
    rw [hissue, hgone] at hbook
    exact hbook.resolve_left (by simp [hfresh])
  · have hsize : request.pageSize ≠ 0 := by
      intro hzero
      rw [executeRowsPage, if_pos hzero] at hpage
      cases hpage
    cases hresult : request.result with
    | error error =>
      simp only [executeRowsPage, if_neg hsize, hfirst, hresult] at hpage
      cases hpage
    | ok result =>
      have hrows : request.rows = result.2 := by rw [PageRequest.rows, hresult]
      rcases executeRowsPage_first hfirst hsize hresult with ⟨nextCursor, hok, hnext⟩ | ⟨-, _, _, _,
        herror⟩
      · cases hpage.symm.trans hok
        exact ⟨by rw [hrows], by rw [hrows], by rw [hrows]; exact hnext⟩
      · cases hpage.symm.trans herror
  · rcases executeRowsPage_first hfirst hsize hresult with ⟨nextCursor, hok, -⟩ | hrefused
    · exact .inl ⟨_, hok⟩
    · exact .inr hrefused
  · have hserved : Served rowBytes ledger.store _ request _ _ := executeRowsPage_served
    rw [hpage] at hserved
    generalize (executeRowsPage rowBytes ledger.store request).2 = store' at hserved
    cases hserved with
    | untouched hquiet => cases hcursor.symm.trans (hquiet page rfl).1
    | issued hfirst => cases hcursor.symm.trans hfirst
    | drained hcontinued hget hsame hrest =>
      cases hcursor.symm.trans hcontinued
      obtain ⟨issue, hissue, hfirst, hbelongs, -, hrows⟩ := Accounted.of_get_purge hbooks hget
      refine ⟨issue, _, hissue, hfirst.1, hfirst.2, hsame.symm.trans hbelongs, ?_,
        (if_pos hrest).symm⟩
      rw [append_assoc, take_append_drop, hrows]
    | continued hcontinued hget hsame hrest =>
      cases hcursor.symm.trans hcontinued
      obtain ⟨issue, hissue, hfirst, hbelongs, -, hrows⟩ := Accounted.of_get_purge hbooks hget
      refine ⟨issue, _, hissue, hfirst.1, hfirst.2, hsame.symm.trans hbelongs, ?_,
        (if_neg hrest).symm⟩
      rw [append_assoc, take_append_drop, hrows]
  · have hkept : (purgePageCursors ledger.store request.purgedAt).cursors.get cursor =
        some stored := by rw [get_purge, hget, Option.bind_some, if_pos hlive]
    obtain ⟨-, -, -, -, hrows, -⟩ := Accounted.of_get_purge hbooks hkept
    have hpage : stored.rows.take request.pageSize ≠ [] := by
      simpa only [ne_eq, take_eq_nil_iff, not_or] using ⟨hsize, hrows⟩
    simp only [executeRowsPage, if_neg hsize, hcursor, continuePage, hkept,
      if_neg (not_not.2 hsame)]
    split
    · exact ⟨_, rfl, hpage⟩
    · exact ⟨_, rfl, hpage⟩

end

instance : DecidableEq smallFrontend.Parameters := inferInstanceAs (DecidableEq Unit)

/-- A request of the small front end for two of three rows; a continuation names its cursor. -/
def smallPage (cursor : Option Nat) : PageRequest smallFrontend :=
  ⟨smallContext, smallText '0', cursor, 2, .ok (["v"], [[.count 1], [.count 2], [.count 3]]), 0, 0⟩

theorem cursors_lossless_smallPage :
    (∃ page, (executeRowsPage (fun _ => 8) PageCursorStore.default (smallPage none)).1 = .ok page ∧
        page.rows = [[.count 1], [.count 2]] ∧ page.nextCursor ≠ none) ∧
      ∃ page, (executeRowsPage (fun _ => 8) (PageLedger.run (fun _ => 8) [smallPage none]).store
        (smallPage (some 1))).1 = .ok page ∧ page.rows ≠ [] := by
  obtain ⟨-, -, -, hfirst, -⟩ := cursors_lossless (F := smallFrontend) (fun _ => 8) []
  obtain ⟨-, -, -, -, hnext⟩ := cursors_lossless (F := smallFrontend) (fun _ => 8) [smallPage none]
  obtain ⟨page, hpage⟩ : ∃ page, (executeRowsPage (fun _ => 8) PageCursorStore.default
      (smallPage none)).1 = .ok page := ⟨_, rfl⟩
  obtain ⟨-, hrows, hcursor⟩ := (hfirst (smallPage none) rfl).1 page hpage
  refine ⟨⟨page, hpage, hrows, fun hnone => ?_⟩, ?_⟩
  · exact absurd (hcursor.1 hnone) (by decide)
  · exact (hnext (smallPage (some 1)) 1 rfl).2 _ rfl (by decide) rfl (by decide)

end HydraDb.NativePath
