import Mathlib.Data.Prod.Lex
import Waveform.Control.Settings
import Waveform.Library.Keyset
import Waveform.Store.JobHistory

/-!
# Reading the history of an account

An account reads its jobs newest first, a page at a time. The cursor of the next page is the
creation time and the id of the last row of the page, as text. While a reader follows the cursors,
other requests start, finish, release and recover jobs.

- `parseCursor_keyText`: a cursor is read back as what was written.
- `listJobs_eq`: a page is a page of the keyset library, over the pairs of creation time and id.
- `history_traversal`: following the cursors ends, in strictly descending order, with each job that
  was there at the start exactly once.
-/

set_option autoImplicit false

namespace Waveform.Control

open Waveform.Domain LabelledRun
open Waveform.Store (Db JobRow JobStatus Readings World StoreEvent IdempotencySettings)

/-! ## Cursors as text -/

/-- The last instant that `OffsetDateTime` holds: the end of the year 9999. -/
def maxOffsetDateTime : Nat := 253402300800 * microsPerSecond - 1

/-- The texts of the `time` and `uuid` crates: RFC 3339 instants, and UUIDs as they are
displayed. -/
structure CursorText where
  formatTime : Nat → Option String
  parseTime : String → Option Nat
  displayUuid : Uuid → String
  parseUuid : String → Option Uuid

/-- What both crates document: an instant that can be held is written without a `|` and read back,
and so is a UUID. -/
structure CursorText.Lawful (text : CursorText) : Prop where
  time : ∀ instant ≤ maxOffsetDateTime, ∃ written, text.formatTime instant = some written ∧
    text.parseTime written = some instant ∧ '|' ∉ written.toList
  uuid : ∀ uuid, text.parseUuid (text.displayUuid uuid) = some uuid

/-- `str::split_once`. -/
def splitOnce (separator : Char) (value : String) : Option (String × String) :=
  match value.toList.dropWhile (· ≠ separator) with
  | [] => none
  | _ :: after =>
      some (String.ofList (value.toList.takeWhile (· ≠ separator)), String.ofList after)

/-- A text is split at the first separator. -/
theorem splitOnce_append {separator : Char} {before after value : String}
    (hvalue : value.toList = before.toList ++ separator :: after.toList)
    (h : separator ∉ before.toList) : splitOnce separator value = some (before, after) := by
  have hbefore : ∀ c ∈ before.toList, decide (c ≠ separator) = true := by
    intro c hc
    exact decide_eq_true fun heq => h (heq ▸ hc)
  have hdrop : value.toList.dropWhile (· ≠ separator) = separator :: after.toList := by
    rw [hvalue, List.dropWhile_append_of_pos hbefore]
    simp
  have htake : value.toList.takeWhile (· ≠ separator) = before.toList := by
    rw [hvalue, List.takeWhile_append_of_pos hbefore]
    simp
  simp only [splitOnce, hdrop, htake, String.ofList_toList]

/-- Why a history request is refused. -/
inductive HistoryError where
  | invalidOperation
  | invalidCursor
  | databaseUnavailable
  deriving DecidableEq

/-- `parse_cursor`. -/
def parseCursor (text : CursorText) (value : Option String) :
    Except HistoryError (Option (Nat × Uuid)) :=
  match value with
  | none => .ok none
  | some value =>
      match splitOnce '|' value with
      | none => .error .invalidCursor
      | some (timestamp, id) =>
          match text.parseTime timestamp, text.parseUuid id with
          | some time, some uuid => .ok (some (time, uuid))
          | _, _ => .error .invalidCursor

/-! ## The list of jobs -/

/-- The query of a history request. -/
structure Filters where
  operation : Option String
  limit : Option Int
  cursor : Option String

/-- A job as the history shows it. -/
structure Job where
  voiceProfile : Option VoiceProfileRef
  id : RequestId
  issuingApp : Option ApplicationId
  operation : SpeechOperation
  status : JobStatus
  firstLine : String
  durationMs : Option Nat
  provider : Option ProviderName
  createdAt : Nat
  deriving DecidableEq

/-- A page of the history. -/
structure Page where
  items : List Job
  nextCursor : Option String

/-- A row that the history query reads. -/
structure HistoryRow where
  id : RequestId
  row : JobRow

namespace HistoryRow

/-- The columns that are shown. -/
def shown (r : HistoryRow) : Job where
  voiceProfile := r.row.voiceProfile
  id := r.id
  issuingApp := r.row.issuingApp
  operation := r.row.operation
  status := r.row.status
  firstLine := r.row.firstLine
  durationMs := r.row.durationMs
  provider := r.row.provider
  createdAt := r.row.createdAt

/-- `finished_at`. -/
def finishedAt (r : HistoryRow) : Option Nat :=
  match r.row.status with
  | .running => none
  | .failed _ finishedAt => some finishedAt
  | .completed finishedAt => some finishedAt

/-- The timestamps of the row can be read. -/
def readable (r : HistoryRow) : Bool :=
  decide (r.row.createdAt ≤ maxOffsetDateTime) &&
    r.finishedAt.all fun finished => decide (finished ≤ maxOffsetDateTime)

/-- `created_at < $4 OR (created_at = $4 AND id < $5)`. -/
def isBefore (r : HistoryRow) (cursor : Nat × Uuid) : Bool :=
  decide (r.row.createdAt < cursor.1 ∨ r.row.createdAt = cursor.1 ∧ r.id.asUuid < cursor.2)

/-- `ORDER BY created_at DESC, id DESC`. -/
def newestFirst (a b : HistoryRow) : Bool :=
  decide (b.row.createdAt < a.row.createdAt ∨
    b.row.createdAt = a.row.createdAt ∧ b.id.asUuid ≤ a.id.asUuid)

/-- `next_cursor` of a page that ends with the row. -/
def cursorText (text : CursorText) (r : HistoryRow) : Option String :=
  (text.formatTime r.row.createdAt).map fun written =>
    written ++ "|" ++ text.displayUuid r.id.asUuid

end HistoryRow

/-- The rows of an account, from the ids that a scan of the table visits. -/
def accountHistory (db : Db) (scan : List RequestId) (actor : ActorId)
    (operation : Option String) : List HistoryRow :=
  scan.filterMap fun id => (db.jobs id).bind fun row =>
    if row.planeId = Uuid.nil ∧ row.actorId = actor ∧
        operation.all (fun wanted => row.operation.asStr = wanted) then
      some ⟨id, row⟩
    else none

/-- `limit.unwrap_or(50).clamp(1, 100)`. -/
def pageLimit (limit : Option Int) : Nat := (max 1 (min (limit.getD 50) 100)).toNat

/-- `list`, for a caller that may read the account's history, after its `recover_expired_jobs`. -/
def listJobs (text : CursorText) (db : Db) (scan : List RequestId) (actor : ActorId)
    (filters : Filters) : Except HistoryError Page :=
  let limit := pageLimit filters.limit
  if filters.operation.any fun value => !(value = "tts" || value = "stt") then
    .error .invalidOperation
  else do
    let cursor ← parseCursor text filters.cursor
    let history := accountHistory db scan actor filters.operation
    let found := ((history.filter fun r => cursor.all fun cursor => r.isBefore cursor).mergeSort
      HistoryRow.newestFirst).take (limit + 1)
    let rows := found.take limit
    let nextCursor :=
      if limit < found.length then rows.getLast?.bind fun row => row.cursorText text else none
    if rows.all HistoryRow.readable then .ok ⟨rows.map HistoryRow.shown, nextCursor⟩
    else .error .databaseUnavailable

/-! ## A page of the keyset library -/

/-- What orders the history: the creation time, and the id among jobs of one instant. -/
def historyKey (r : HistoryRow) : Nat ×ₗ Uuid := toLex (r.row.createdAt, r.id.asUuid)

/-- A key as the text of a cursor. -/
def keyText (text : CursorText) (key : Nat ×ₗ Uuid) : String :=
  (text.formatTime (ofLex key).1).getD "" ++ "|" ++ text.displayUuid (ofLex key).2

/-- A page of the keyset library, as it is answered. -/
def Page.ofKeyset (text : CursorText) (found : List HistoryRow × Option (Nat ×ₗ Uuid)) : Page :=
  ⟨found.1.map HistoryRow.shown, found.2.map (keyText text)⟩

section Pages

variable {text : CursorText}

theorem isBefore_eq (r : HistoryRow) (cursor : Nat × Uuid) :
    r.isBefore cursor = decide (historyKey r < toLex cursor) := by
  rw [HistoryRow.isBefore, historyKey, decide_eq_decide, Prod.Lex.toLex_lt_toLex]

theorem newestFirst_eq (a b : HistoryRow) :
    a.newestFirst b = decide (historyKey b ≤ historyKey a) := by
  rw [HistoryRow.newestFirst, historyKey, historyKey, decide_eq_decide, Prod.Lex.toLex_le_toLex]

theorem cursorText_eq (h : text.Lawful) {r : HistoryRow} (hr : r.readable = true) :
    r.cursorText text = some (keyText text (historyKey r)) := by
  have htime : r.row.createdAt ≤ maxOffsetDateTime :=
    of_decide_eq_true (Bool.and_eq_true_iff.mp hr).1
  obtain ⟨written, hwritten, _, _⟩ := h.time _ htime
  simp [HistoryRow.cursorText, keyText, historyKey, hwritten]

/-- **A cursor is read back as what was written.** -/
theorem parseCursor_keyText (h : text.Lawful) {key : Nat ×ₗ Uuid}
    (hkey : (ofLex key).1 ≤ maxOffsetDateTime) :
    parseCursor text (some (keyText text key)) = .ok (some (ofLex key)) := by
  obtain ⟨written, hwritten, hparse, hbar⟩ := h.time _ hkey
  have hsplit : splitOnce '|' (keyText text key) =
      some (written, text.displayUuid (ofLex key).2) := by
    apply splitOnce_append _ hbar
    simp [keyText, hwritten]
  simp only [parseCursor, hsplit, hparse, h.uuid]

/-- The query selects what the keyset library selects. -/
theorem selected_eq (cursor : Option (Nat ×ₗ Uuid)) (history : List HistoryRow) :
    (history.filter fun r => (cursor.map ofLex).all fun cursor => r.isBefore cursor).mergeSort
      HistoryRow.newestFirst = Keyset.selected historyKey cursor history := by
  have hfilter : (fun r : HistoryRow => (cursor.map ofLex).all fun cursor => r.isBefore cursor) =
      fun r => decide (Keyset.Below cursor (historyKey r)) := by
    funext r
    cases cursor with
    | none => simp [Keyset.Below]
    | some key =>
        rw [Option.map_some, Option.all_some, isBefore_eq, decide_eq_decide]
        simp [Keyset.Below]
  have horder : HistoryRow.newestFirst = fun a b => decide (historyKey b ≤ historyKey a) := by
    funext a b
    exact newestFirst_eq a b
  rw [hfilter, horder, Keyset.selected]

/-- **The list of jobs is a page of the keyset library.** -/
theorem listJobs_eq (h : text.Lawful) {db : Db} {scan : List RequestId} {actor : ActorId}
    {operation : Option String} (hoperation : ∀ wanted ∈ operation, wanted = "tts" ∨ wanted = "stt")
    (limit : Option Int) {cursor : Option (Nat ×ₗ Uuid)}
    (hcursor : ∀ key ∈ cursor, (ofLex key).1 ≤ maxOffsetDateTime)
    (hreadable : ∀ r ∈ accountHistory db scan actor operation, r.readable = true) :
    listJobs text db scan actor ⟨operation, limit, cursor.map (keyText text)⟩ =
      .ok (Page.ofKeyset text (Keyset.page historyKey (pageLimit limit) cursor
        (accountHistory db scan actor operation))) := by
  have hparse : parseCursor text (cursor.map (keyText text)) = .ok (cursor.map ofLex) := by
    cases cursor with
    | none => rfl
    | some key => exact parseCursor_keyText h (hcursor key rfl)
  have hvalid : (operation.any fun value => !(value = "tts" || value = "stt")) = false := by
    cases operation with
    | none => rfl
    | some wanted => rcases hoperation wanted rfl with rfl | rfl <;> rfl
  have hrows : ∀ r ∈ ((Keyset.selected historyKey cursor
      (accountHistory db scan actor operation)).take (pageLimit limit + 1)).take (pageLimit limit),
      r.readable = true := by
    intro r hr
    exact hreadable r (Keyset.mem_selected.mp (List.mem_of_mem_take (List.mem_of_mem_take hr))).1
  generalize hfound : Keyset.selected historyKey cursor
    (accountHistory db scan actor operation) = found at hrows
  have hnext : ∀ rows : List HistoryRow, (∀ r ∈ rows, r.readable = true) →
      (rows.getLast?.bind fun row => row.cursorText text) =
        (rows.getLast?.map historyKey).map (keyText text) := by
    intro rows hreadable
    cases hlast : rows.getLast? with
    | none => rfl
    | some last => exact cursorText_eq h (hreadable last (List.mem_of_getLast? hlast))
  simp only [listJobs, hvalid, hparse, Bool.false_eq_true, if_false, bind, Except.bind, selected_eq,
    hfound, List.all_eq_true.mpr hrows, if_true, Page.ofKeyset, Keyset.page, hnext _ hrows]
  split <;> rfl

end Pages

/-! ## Following the cursors -/

/-- A reader of the history: the stores at each of its reads, the clock readings of the read's
`recover_expired_jobs`, and the ids its scan visits. Between two reads the stores run on; the rows
have timestamps that can be read. -/
structure Reading (settings : IdempotencySettings) where
  world : Nat → World
  now : Nat → Readings
  scan : Nat → List RequestId
  between : ∀ n, ∃ tr, Run (Store.Step settings)
    ((world n).next settings ⟨.recoverExpiredJobs, now n⟩) tr (world (n + 1))
  nodup : ∀ n, (scan n).Nodup
  scans : ∀ n id, (Store.recoverExpiredJobs (now n) (world n).db).jobs id ≠ none → id ∈ scan n
  readable : ∀ n id, ∀ row ∈ (Store.recoverExpiredJobs (now n) (world n).db).jobs id,
    (HistoryRow.mk id row).readable = true

/-- The database that a read selects from. -/
def Reading.db {settings : IdempotencySettings} (reading : Reading settings) (n : Nat) : Db :=
  Store.recoverExpiredJobs (reading.now n) (reading.world n).db

/-- The jobs of an account that a filter asks for. -/
def Matches (actor : ActorId) (operation : Option String) (row : JobRow) : Prop :=
  row.planeId = Uuid.nil ∧ row.actorId = actor ∧ ∀ wanted ∈ operation, row.operation.asStr = wanted

/-- The pages that a reader gets who starts without a cursor and follows `next_cursor`. -/
def HistoryPages (text : CursorText) {settings : IdempotencySettings} (reading : Reading settings)
    (actor : ActorId) (operation : Option String) (limit : Option Int) (pages : List Page) : Prop :=
  Keyset.Traversal
    (fun n cursor page => listJobs text (reading.db n) (reading.scan n) actor
      ⟨operation, limit, cursor⟩ = .ok page)
    Page.nextCursor 0 none pages

/-- The jobs on the pages. -/
def jobsOf (pages : List Page) : List Job := pages.flatMap Page.items

/-- Newer first, and among jobs of one instant the greater id. -/
def Job.Newer (a b : Job) : Prop :=
  b.createdAt < a.createdAt ∨ b.createdAt = a.createdAt ∧ b.id.asUuid < a.id.asUuid

section Traversals

variable {text : CursorText} {settings : IdempotencySettings} {reading : Reading settings}
  {actor : ActorId} {operation : Option String}

theorem mem_accountHistory {db : Db} {scan : List RequestId} {r : HistoryRow} :
    r ∈ accountHistory db scan actor operation ↔
      r.id ∈ scan ∧ db.jobs r.id = some r.row ∧ Matches actor operation r.row := by
  have hall : ∀ row : JobRow, (operation.all fun wanted => row.operation.asStr = wanted) = true ↔
      ∀ wanted ∈ operation, row.operation.asStr = wanted := by
    intro row
    cases operation <;> simp
  simp only [accountHistory, List.mem_filterMap, Option.bind_eq_some_iff,
    Option.ite_none_right_eq_some, hall]
  constructor
  · rintro ⟨id, hid, row, hrow, hmatches, heq⟩
    cases heq
    exact ⟨hid, hrow, hmatches⟩
  · rintro ⟨hid, hrow, hmatches⟩
    exact ⟨r.id, hid, r.row, hrow, hmatches, rfl⟩

theorem requestId_eq {a b : RequestId} (h : a.asUuid = b.asUuid) : a = b := by
  cases a
  cases b
  cases h
  rfl

/-- A scan visits every id once, so the keys of the history are distinct. -/
theorem accountHistory_nodup {db : Db} {scan : List RequestId} (h : scan.Nodup) :
    ((accountHistory db scan actor operation).map historyKey).Nodup := by
  have hids : ((accountHistory db scan actor operation).map HistoryRow.id).Sublist scan := by
    clear h
    induction scan with
    | nil => exact .slnil
    | cons id scan ih =>
        simp only [accountHistory, List.filterMap_cons] at ih ⊢
        split
        · exact ih.cons id
        · rename_i r hr
          obtain ⟨row, _, hr⟩ := Option.bind_eq_some_iff.mp hr
          obtain ⟨_, heq⟩ := Option.ite_none_right_eq_some.mp hr
          cases heq
          exact ih.cons_cons id
  have hnodup := List.pairwise_map.mp (h.sublist hids)
  refine List.pairwise_map.mpr (hnodup.imp fun hne heq => hne ?_)
  exact requestId_eq (Prod.ext_iff.mp (toLex.injective heq)).2

/-- The job of the request is there, and is a job of the operation. -/
def HasJob (id : RequestId) (operationId : Store.OperationId) (w : World) : Prop :=
  ∃ row, w.db.jobs id = some row ∧ row.operationId = operationId

theorem HasJob.next {id : RequestId} {operationId : Store.OperationId} {w : World}
    (h : HasJob id operationId w) (e : StoreEvent) :
    HasJob id operationId (w.next settings e) := by
  obtain ⟨row, hrow, rfl⟩ := h
  exact Store.next_jobs_of_some settings e hrow

/-- **A job that is there at a read is there at every later one, under its creation time.** -/
theorem Reading.hasJob (reading : Reading settings) {id : RequestId}
    {operationId : Store.OperationId} {n m : Nat} (hle : n ≤ m)
    (h : HasJob id operationId (reading.world n)) : HasJob id operationId (reading.world m) := by
  induction m, hle using Nat.le_induction with
  | base => exact h
  | succ m _ ih =>
      obtain ⟨tr, hrun⟩ := reading.between m
      refine hrun.invariant (HasJob id operationId) ?_ (ih.next _)
      rintro w e w' hw ⟨_, _, _, rfl⟩
      exact hw.next e

/-- The tables that the reads select from. -/
def Reading.table (reading : Reading settings) (actor : ActorId) (operation : Option String)
    (n : Nat) : List HistoryRow :=
  accountHistory (reading.db n) (reading.scan n) actor operation

theorem Reading.table_nodup (reading : Reading settings) (n : Nat) :
    ((reading.table actor operation n).map historyKey).Nodup :=
  accountHistory_nodup (reading.nodup n)

theorem Reading.table_readable (reading : Reading settings) {n : Nat} {r : HistoryRow}
    (hr : r ∈ reading.table actor operation n) : r.readable = true :=
  reading.readable n r.id r.row (mem_accountHistory.mp hr).2.1

/-- The columns that a filter looks at, and the creation time, belong to the operation of a job. -/
theorem Matches.of_operationId {row row' : JobRow} (h : Matches actor operation row)
    (heq : row'.operationId = row.operationId) :
    Matches actor operation row' ∧ row'.createdAt = row.createdAt := by
  obtain ⟨hplane, hactor, hoperation⟩ := h
  simp only [JobRow.operationId, Store.OperationId.mk.injEq, IdempotencyScope.mk.injEq,
    Actor.mk.injEq] at heq
  obtain ⟨⟨hplane', ⟨_, hactor'⟩, hoperation', _⟩, hcreated⟩ := heq
  refine ⟨⟨hplane'.trans hplane, hactor'.trans hactor, ?_⟩, hcreated⟩
  rw [hoperation']
  exact hoperation

/-- A job that is there at the first read is in the table at every read. -/
theorem Reading.mem_table (reading : Reading settings) {id : RequestId} {row : JobRow}
    (hrow : (reading.world 0).db.jobs id = some row) (hmatches : Matches actor operation row)
    (n : Nat) : ∃ r ∈ reading.table actor operation n,
      r.id = id ∧ historyKey r = toLex (row.createdAt, id.asUuid) := by
  have hworld : HasJob id row.operationId (reading.world n) :=
    reading.hasJob (Nat.zero_le n) ⟨row, hrow, rfl⟩
  obtain ⟨row', hpresent, heq⟩ : ∃ row', (reading.db n).jobs id = some row' ∧
      row'.operationId = row.operationId := by
    obtain ⟨stored, hstored, hsame⟩ := hworld
    rw [← hsame]
    exact Store.next_jobs_of_some settings ⟨.recoverExpiredJobs, reading.now n⟩ hstored
  obtain ⟨hmatches', hcreated⟩ := hmatches.of_operationId heq
  have hid : id ∈ reading.scan n := by
    apply reading.scans n id
    change (reading.db n).jobs id ≠ none
    rw [hpresent]
    exact Option.some_ne_none row'
  exact ⟨⟨id, row'⟩, mem_accountHistory.mpr ⟨hid, hpresent, hmatches'⟩, rfl,
    by rw [historyKey, hcreated]⟩

/-- A row of a table at any read that has the id of a job at the first read has its key. -/
theorem Reading.key_of_id (reading : Reading settings) {id : RequestId} {row : JobRow}
    (hrow : (reading.world 0).db.jobs id = some row) (hmatches : Matches actor operation row)
    {n : Nat} {r : HistoryRow} (hr : r ∈ reading.table actor operation n) (hid : r.id = id) :
    historyKey r = toLex (row.createdAt, id.asUuid) := by
  obtain ⟨other, hother, hotherId, hkey⟩ := reading.mem_table hrow hmatches n
  have hsame : some r.row = some other.row := by
    rw [← (mem_accountHistory.mp hr).2.1, ← (mem_accountHistory.mp hother).2.1, hid, hotherId]
  rw [← hkey, historyKey, historyKey, Option.some.inj hsame, hid, hotherId]

/-- A traversal of the tables is the traversal that the reader makes. -/
theorem historyPages_of_found (htext : text.Lawful)
    (hoperation : ∀ wanted ∈ operation, wanted = "tts" ∨ wanted = "stt") (limit : Option Int)
    {found : List (List HistoryRow × Option (Nat ×ₗ Uuid))}
    (h : Keyset.TableTraversal historyKey (pageLimit limit) (reading.table actor operation) 0 none
      found) :
    HistoryPages text reading actor operation limit (found.map (Page.ofKeyset text)) := by
  refine Keyset.Traversal.map (fun key => (ofLex key).1 ≤ maxOffsetDateTime) (f := keyText text)
    ?_ ?_ ?_ (by simp) h
  · rintro n cursor page rfl key hkey
    obtain ⟨⟨r, hr, rfl⟩, _, _⟩ := Keyset.page_next hkey (reading.table_nodup n)
    have hreadable := reading.table_readable (Keyset.mem_page hr).1
    exact of_decide_eq_true (Bool.and_eq_true_iff.mp hreadable).1
  · rintro n cursor page hcursor rfl
    exact listJobs_eq htext hoperation limit hcursor fun r hr => reading.table_readable hr
  · intro page
    rfl

theorem jobsOf_ofKeyset (found : List (List HistoryRow × Option (Nat ×ₗ Uuid))) :
    jobsOf (found.map (Page.ofKeyset text)) = (Keyset.rowsOf found).map HistoryRow.shown := by
  simp [jobsOf, Keyset.rowsOf, Page.ofKeyset, List.flatMap_map, List.map_flatMap]

/-- A job that was there at the start is on exactly one page. -/
theorem count_found {limit : Option Int}
    {found : List (List HistoryRow × Option (Nat ×ₗ Uuid))}
    (h : Keyset.TableTraversal historyKey (pageLimit limit) (reading.table actor operation) 0 none
      found) (hlimit : 0 < pageLimit limit) {id : RequestId} {row : JobRow}
    (hrow : (reading.world 0).db.jobs id = some row) (hmatches : Matches actor operation row) :
    ((Keyset.rowsOf found).map HistoryRow.id).count id = 1 := by
  have hdistinct : ∀ n, ((reading.table actor operation n).map historyKey).Nodup :=
    reading.table_nodup
  have hmem : toLex (row.createdAt, id.asUuid) ∈ (Keyset.rowsOf found).map historyKey := by
    refine List.mem_map.mpr (h.complete hlimit hdistinct (fun _ hbound => nomatch hbound) ?_)
    intro m _
    obtain ⟨r, hr, _, hkey⟩ := reading.mem_table hrow hmatches m
    exact ⟨r, hr, hkey⟩
  have hnodup : ((Keyset.rowsOf found).map historyKey).Nodup :=
    List.pairwise_map.mpr ((h.pairwise hdistinct).imp fun hlt => hlt.ne')
  have hsame : ∀ r ∈ Keyset.rowsOf found,
      r.id = id ↔ historyKey r = toLex (row.createdAt, id.asUuid) := by
    intro r hr
    obtain ⟨⟨n, hn⟩, _⟩ := h.mem hdistinct hr
    constructor
    · exact reading.key_of_id hrow hmatches hn
    · intro hkey
      exact requestId_eq (Prod.ext_iff.mp (toLex.injective hkey)).2
  rw [← List.count_eq_one_of_mem hnodup hmem, List.count, List.count, List.countP_map,
    List.countP_map]
  refine List.countP_congr fun r hr => ?_
  simpa using hsame r hr

end Traversals

/-- **Reading the history page by page ends.** The jobs come in strictly descending order over all
pages, and each job that was there at the start, and that the filter asks for, comes exactly
once. -/
theorem history_traversal {text : CursorText} (htext : text.Lawful)
    {settings : IdempotencySettings} (reading : Reading settings) (actor : ActorId)
    {operation : Option String}
    (hoperation : ∀ wanted ∈ operation, wanted = "tts" ∨ wanted = "stt") (limit : Option Int) :
    ∃ pages, HistoryPages text reading actor operation limit pages ∧
      (∀ pages', HistoryPages text reading actor operation limit pages' → pages' = pages) ∧
      (jobsOf pages).Pairwise Job.Newer ∧
      ∀ id row, (reading.world 0).db.jobs id = some row → Matches actor operation row →
        ((jobsOf pages).map Job.id).count id = 1 := by
  have hlimit : 0 < pageLimit limit := by
    unfold pageLimit
    omega
  have hdistinct : ∀ n, ((reading.table actor operation n).map historyKey).Nodup :=
    reading.table_nodup
  obtain ⟨found, hfound⟩ : ∃ found, Keyset.TableTraversal historyKey (pageLimit limit)
      (reading.table actor operation) 0 none found := Keyset.exists_traversal hdistinct 0 none
  refine ⟨found.map (Page.ofKeyset text), historyPages_of_found htext hoperation limit hfound,
    ?_, ?_, ?_⟩
  · intro pages' hpages'
    refine Keyset.Traversal.unique ?_ (historyPages_of_found htext hoperation limit hfound) hpages'
    intro n cursor page page' hpage hpage'
    exact Except.ok.inj (hpage'.symm.trans hpage)
  · rw [jobsOf_ofKeyset, List.pairwise_map]
    refine (hfound.pairwise hdistinct).imp fun {a b} hlt => ?_
    exact Prod.Lex.toLex_lt_toLex.mp hlt
  · intro id row hrow hmatches
    rw [jobsOf_ofKeyset, List.map_map]
    exact count_found hfound hlimit hrow hmatches

/-! ## Two jobs on two pages -/

/-- The first instant of 2026. -/
def newYear : Nat := 1767225600 * microsPerSecond

/-- The texts of the crates at the new year and at one id; the other texts only need to differ. -/
def sampleCursorText : CursorText where
  formatTime instant :=
    if instant ≤ maxOffsetDateTime then
      some (if instant = newYear then "2026-01-01T00:00:00Z"
        else String.ofList (List.replicate instant 'x'))
    else none
  parseTime text :=
    if text = "2026-01-01T00:00:00Z" then some newYear else some text.toList.length
  displayUuid uuid :=
    if uuid = 6 then "00000000-0000-0000-0000-000000000006"
    else String.ofList (List.replicate uuid 'x')
  parseUuid text :=
    if text = "00000000-0000-0000-0000-000000000006" then some 6 else some text.toList.length

/-- A run of one letter is no text with another letter in it. -/
theorem ofList_replicate_ne {n : Nat} {c d : Char} {text : String} (hd : d ∈ text.toList)
    (hne : d ≠ c) : String.ofList (List.replicate n c) ≠ text := by
  rintro rfl
  rw [String.toList_ofList] at hd
  exact hne (List.eq_of_mem_replicate hd)

theorem sampleCursorText_lawful : sampleCursorText.Lawful where
  time := by
    intro instant hinstant
    refine ⟨_, if_pos hinstant, ?_⟩
    by_cases hyear : instant = newYear
    · subst hyear
      exact ⟨rfl, by decide⟩
    · have hne : String.ofList (List.replicate instant 'x') ≠ "2026-01-01T00:00:00Z" :=
        ofList_replicate_ne (d := 'Z') (by decide) (by decide)
      rw [if_neg hyear]
      constructor
      · simp [sampleCursorText, hne]
      · rw [String.toList_ofList]
        exact fun hbar => absurd (List.eq_of_mem_replicate hbar) (by decide)
  uuid := by
    intro uuid
    by_cases hsix : uuid = 6
    · subst hsix
      rfl
    · have hne : String.ofList (List.replicate uuid 'x') ≠ "00000000-0000-0000-0000-000000000006" :=
        ofList_replicate_ne (d := '6') (by decide) (by decide)
      simp [sampleCursorText, hsix, hne]

/-- A finished job of the account. -/
def finishedJob : JobRow where
  planeId := Uuid.nil
  orgId := Store.accountScope
  actorId := Store.sampleScope.actor.id
  actorKind := .carbon
  operation := .tts
  status := .completed newYear
  firstLine := "Hello"
  durationMs := some 1200
  provider := some .gemini
  requestDigest := Vector.replicate 32 1
  idempotencyKeyHash := ⟨.tts, Store.sampleScope.key, Store.sampleRequestId⟩
  createdAt := newYear
  leaseToken := none
  leaseExpiresAt := none
  voiceProfile := none
  issuingApp := none

/-- Two jobs that were created at one instant. -/
def twoJobs : World where
  db :=
    { Store.sampleWorld.db with
      jobs := fun id => if id.asUuid = 5 ∨ id.asUuid = 6 then some finishedJob else none }
  clock := newYear
  attempts := fun _ => none

/-- Recovery leaves finished jobs. -/
theorem recover_twoJobs :
    Store.recoverExpiredJobs (Readings.at newYear) twoJobs.db = twoJobs.db := by
  have hjobs : (Store.recoverExpiredJobs (Readings.at newYear) twoJobs.db).jobs =
      twoJobs.db.jobs := by
    funext id
    simp only [Store.recoverExpiredJobs, twoJobs]
    split <;> rfl
  exact Db.ext rfl rfl hjobs rfl

/-- A reader of them; nothing else happens. -/
def sampleReading : Reading Store.sampleSettings where
  world _ := twoJobs
  now _ := Readings.at newYear
  scan _ := [⟨5, Uuid.five_ne_nil⟩, ⟨6, Uuid.six_ne_nil⟩]
  between := by
    intro n
    refine ⟨[], Run.nil_iff.mpr ?_⟩
    change World.mk (Store.recoverExpiredJobs (Readings.at newYear) twoJobs.db) _ _ = twoJobs
    rw [recover_twoJobs]
    rfl
  nodup _ := by decide
  scans := by
    intro n id hid
    rw [recover_twoJobs] at hid
    have hcases : id.asUuid = 5 ∨ id.asUuid = 6 := by
      by_contra hnone
      exact hid (if_neg hnone)
    rcases hcases with hfive | hsix
    · exact List.mem_cons.mpr (.inl (requestId_eq hfive))
    · exact List.mem_cons_of_mem _ (List.mem_singleton.mpr (requestId_eq hsix))
  readable := by
    intro n id row hrow
    rw [recover_twoJobs] at hrow
    obtain ⟨_, heq⟩ := Option.ite_none_right_eq_some.mp hrow
    cases heq
    change (decide (newYear ≤ maxOffsetDateTime) && decide (newYear ≤ maxOffsetDateTime)) = true
    decide

/-- With one job a page, the reader sees both jobs, each once. -/
theorem history_traversal_twoJobs :
    ∃ pages, HistoryPages sampleCursorText sampleReading Store.sampleScope.actor.id (some "tts")
        (some 1) pages ∧
      (jobsOf pages).Pairwise Job.Newer ∧
      ((jobsOf pages).map Job.id).count ⟨5, by decide⟩ = 1 ∧
      ((jobsOf pages).map Job.id).count ⟨6, by decide⟩ = 1 := by
  have hmatches : Matches Store.sampleScope.actor.id (some "tts") finishedJob :=
    ⟨rfl, rfl, by rintro wanted ⟨rfl⟩; rfl⟩
  have hoperation : ∀ wanted ∈ some "tts", wanted = "tts" ∨ wanted = "stt" := by
    rintro wanted ⟨rfl⟩
    exact .inl rfl
  obtain ⟨pages, hpages, _, hdescending, hcount⟩ := history_traversal sampleCursorText_lawful
    sampleReading Store.sampleScope.actor.id hoperation (some 1)
  exact ⟨pages, hpages, hdescending, hcount _ finishedJob rfl hmatches,
    hcount _ finishedJob rfl hmatches⟩

end Waveform.Control
