import Waveform.Domain.Identity
import Waveform.Library.LabelledRun
import Waveform.Library.SlidingWindow
import Waveform.Store.Schema

/-!
# Bug reports

`submit` stores a report in one transaction. Its `now()` is the moment the transaction began, which
is before it waits for the advisory lock of its account; behind the lock it looks for the report of
its idempotency key, counts the reports of the last hour and inserts a row. The transactions of all
accounts take turns here statement by statement, next to deliveries and to purges of accounts.

- `ReportGuarantees`: the hourly quota, and what a repeated idempotency key gets.
-/

set_option autoImplicit false

namespace Waveform.Control

open LabelledRun
open Waveform.Domain
open Waveform.Store (accountScope)

/-! ## Rows -/

/-- The body of a report. -/
structure Report where
  message : String
  pr : Option String
  clientVersion : String
  deriving DecidableEq

inductive ReportStatus where
  | queued
  | sent
  | simulated
  deriving DecidableEq

/-- A row of `waveform_bug_reports`. -/
structure BugReport where
  id : Uuid
  planeId : Uuid
  orgId : String
  actorId : ActorId
  idempotencyKey : String
  payload : Report
  status : ReportStatus
  createdAt : Int
  deriving DecidableEq

/-- What `submit` binds to its statements, and the `now()` of its transaction. -/
structure Submission where
  storageKey : ActorId
  key : String
  payload : Report
  now : Int
  deriving DecidableEq

/-- `interval '1 hour'`. -/
def oneHour : Int := 3600 * (microsPerSecond : Int)

/-- Reports of an account in an hour. -/
def reportLimit : Nat := 10

/-- The row is the one that the submission's idempotency key names. -/
def Submission.Names (sub : Submission) (row : BugReport) : Prop :=
  row.planeId = Uuid.nil ∧ row.orgId = accountScope ∧ row.actorId = sub.storageKey ∧
    row.idempotencyKey = sub.key

instance (sub : Submission) : DecidablePred sub.Names := fun _ =>
  inferInstanceAs (Decidable (_ ∧ _))

/-- The report that the idempotency key already has. -/
def oldReport (rows : List BugReport) (sub : Submission) : Option BugReport :=
  rows.find? fun row => decide (sub.Names row)

/-- The row counts against the account's quota. -/
def chargedTo (account : ActorId) (row : BugReport) : Bool :=
  decide (row.planeId = Uuid.nil ∧ row.actorId = account)

/-- The account's reports that are younger than an hour when the transaction begins. -/
def recentReports (rows : List BugReport) (sub : Submission) : Nat :=
  rows.countP fun row =>
    chargedTo sub.storageKey row && decide (sub.now - oneHour < row.createdAt)

/-- The row that `submit` inserts; its creation time is the `now()` of the transaction. -/
def newReport (sub : Submission) (id : Uuid) : BugReport where
  id
  planeId := Uuid.nil
  orgId := accountScope
  actorId := sub.storageKey
  idempotencyKey := sub.key
  payload := sub.payload
  status := .queued
  createdAt := sub.now

/-! ## The transaction of a submission -/

inductive ReportReply where
  | accepted (id : Uuid) (notification : ReportStatus)
  /-- `report_idempotency_conflict`. -/
  | conflict
  /-- `report_hourly_limit`. -/
  | hourlyLimit
  deriving DecidableEq

/-- Where a submission is: waiting for the advisory lock, holding it with the statements behind it
run so far, answered, or rolled back without an answer. -/
inductive SubmitPhase where
  | waiting
  | locked
  | found (id : Uuid) (status : ReportStatus)
  | missing
  | room
  | written (id : Uuid)
  | answered (reply : ReportReply)
  | abandoned
  deriving DecidableEq

namespace SubmitPhase

/-- The transaction holds the advisory lock. -/
def holds : SubmitPhase → Bool
  | locked | found _ _ | missing | room | written _ => true
  | waiting | answered _ | abandoned => false

/-- The transaction is not over. -/
def running : SubmitPhase → Bool
  | answered _ | abandoned => false
  | _ => true

/-- The transaction has found no report of its key. -/
def keyFree : SubmitPhase → Bool
  | missing | room | written _ => true
  | _ => false

/-- The transaction has found room in the quota. -/
def underQuota : SubmitPhase → Bool
  | room | written _ => true
  | _ => false

/-- The row is inserted and not yet committed. -/
def isWritten : SubmitPhase → Bool
  | written _ => true
  | _ => false

end SubmitPhase

/-- The next statement of a transaction that holds the lock, where it stores nothing for others:
the lookup, the count, the insert under a new id, and the commit of a transaction that has inserted
nothing. -/
def proceed (rows : List BugReport) (sub : Submission) (id : Uuid) :
    SubmitPhase → Option SubmitPhase
  | .locked =>
      match oldReport rows sub with
      | some old =>
          if old.payload ≠ sub.payload then some (.answered .conflict)
          else some (.found old.id old.status)
      | none => some .missing
  | .missing =>
      if reportLimit ≤ recentReports rows sub then some (.answered .hourlyLimit) else some .room
  | .room => if rows.any fun row => row.id == id then none else some (.written id)
  | .found old status => some (.answered (.accepted old status))
  | _ => none

/-! ## The table and its transactions -/

structure OpenSubmission where
  request : Submission
  phase : SubmitPhase
  deriving DecidableEq

/-- The committed rows, and the submissions in the order they began. -/
structure Reports where
  rows : List BugReport
  submissions : List OpenSubmission

inductive ReportAction where
  /-- A submission begins its transaction. -/
  | begin (sub : Submission)
  /-- A submission gets the advisory lock. -/
  | lock (i : Nat)
  /-- A submission runs its next statement. -/
  | proceed (i : Nat) (id : Uuid)
  /-- A submission commits the row it has inserted. -/
  | commit (i : Nat)
  /-- A submission is dropped, or a statement of it fails. -/
  | abandon (i : Nat)
  /-- The report was mailed. -/
  | deliver (id : Uuid)
  /-- An account's rows are deleted. -/
  | purge (account : ActorId)

/-- The submission that acts. -/
def ReportAction.submission : ReportAction → Option Nat
  | lock i | proceed i _ | commit i | abandon i => some i
  | _ => none

/-- `UPDATE … SET status='sent'`. -/
def markSent (id : Uuid) (row : BugReport) : BugReport :=
  if row.id = id then { row with status := .sent } else row

namespace Reports

/-- A submission goes on to a phase. -/
def setPhase (s : Reports) (i : Nat) (call : OpenSubmission) (phase : SubmitPhase) : Reports :=
  { s with submissions := s.submissions.set i { call with phase } }

/-- The state after an action. -/
def next (s : Reports) : ReportAction → Reports
  | .begin sub => { s with submissions := s.submissions ++ [⟨sub, .waiting⟩] }
  | .lock i =>
      match s.submissions[i]? with
      | some call => s.setPhase i call .locked
      | none => s
  | .proceed i id =>
      match s.submissions[i]? with
      | some call =>
          match Control.proceed s.rows call.request id call.phase with
          | some phase => s.setPhase i call phase
          | none => s
      | none => s
  | .commit i =>
      match s.submissions[i]? with
      | some call =>
          match call.phase with
          | .written id =>
              { s.setPhase i call (.answered (.accepted id .queued)) with
                rows := newReport call.request id :: s.rows }
          | _ => s
      | none => s
  | .abandon i =>
      match s.submissions[i]? with
      | some call => s.setPhase i call .abandoned
      | none => s
  | .deliver id => { s with rows := s.rows.map (markSent id) }
  | .purge account => { s with rows := s.rows.filter fun row => decide (row.actorId ≠ account) }

section Step

variable (lockId : ActorId → Int)

/-- No transaction holds the advisory lock of the account. -/
def LockFree (s : Reports) (account : ActorId) : Prop :=
  ∀ call ∈ s.submissions, call.phase.holds = true → lockId call.request.storageKey ≠ lockId account

instance (s : Reports) (account : ActorId) : Decidable (s.LockFree lockId account) :=
  inferInstanceAs (Decidable (∀ call ∈ s.submissions, _ → _))

/-- When an action can be taken. -/
def Enabled (s : Reports) : ReportAction → Prop
  | .begin _ => True
  | .lock i =>
      s.submissions[i]?.any (fun call =>
        call.phase == .waiting && decide (s.LockFree lockId call.request.storageKey)) = true
  | .proceed i id =>
      s.submissions[i]?.any (fun call =>
        (Control.proceed s.rows call.request id call.phase).isSome) = true
  | .commit i => s.submissions[i]?.any (fun call => call.phase.isWritten) = true
  | .abandon i => s.submissions[i]?.any (fun call => call.phase.running) = true
  | .deliver id => s.rows.any (fun row => row.id == id && row.status == .queued) = true
  | .purge _ => True

instance (s : Reports) : (a : ReportAction) → Decidable (s.Enabled lockId a)
  | .begin _ => .isTrue trivial
  | .lock _ => inferInstanceAs (Decidable (_ = _))
  | .proceed _ _ => inferInstanceAs (Decidable (_ = _))
  | .commit _ => inferInstanceAs (Decidable (_ = _))
  | .abandon _ => inferInstanceAs (Decidable (_ = _))
  | .deliver _ => inferInstanceAs (Decidable (_ = _))
  | .purge _ => .isTrue trivial

/-- A step. The lock of an account is the hash of a text that names it. -/
def Step (s : Reports) (a : ReportAction) (s' : Reports) : Prop :=
  s.Enabled lockId a ∧ s' = s.next a

end Step

/-- No report was sent yet. -/
structure Init (s : Reports) : Prop where
  rows : s.rows = []
  submissions : s.submissions = []

/-- An account's reports. -/
def reportsOf (s : Reports) (account : ActorId) : List BugReport :=
  s.rows.filter fun row => decide (row.actorId = account)

/-- At most `reportLimit` of an account's reports were created within any hour. -/
structure WithinQuota (s : Reports) : Prop where
  from_ : ∀ account a, (s.reportsOf account).countP (fun row =>
    decide (a ≤ row.createdAt) && decide (row.createdAt < a + oneHour)) ≤ reportLimit
  until_ : ∀ account a, (s.reportsOf account).countP (fun row =>
    decide (a < row.createdAt) && decide (row.createdAt ≤ a + oneHour)) ≤ reportLimit

end Reports

/-- The transitions of a run. -/
abbrev ReportRun := List (Transition Reports ReportAction)

/-- The account's rows are not deleted in the run. -/
def NotPurged (tr : ReportRun) (account : ActorId) : Prop :=
  ∀ e ∈ tr, e.label ≠ .purge account

/-- What a submission under the key of a stored report may be answered. -/
def RepeatReply (row : BugReport) (sub : Submission) (reply : ReportReply) : Prop :=
  if sub.payload = row.payload then ∃ status, reply = .accepted row.id status
  else reply = .conflict

/-- From a state that has the row, what a run to `t` makes of the submissions under its key: each
that had no answer is given the row's id or a conflict, none of their statements stores anything,
and one that has the lock and sends the same report gets its answer in two statements. -/
structure Repeats (lockId : ActorId → Int) (s : Reports) (row : BugReport) (tr : ReportRun)
    (t : Reports) : Prop where
  answered : ∀ (i : Nat) (call : OpenSubmission) reply, t.submissions[i]? = some call →
    call.request.Names row →
    call.phase = .answered reply → s.submissions[i]? ≠ some call →
    RepeatReply row call.request reply
  storesNothing : ∀ e ∈ tr, ∀ (i : Nat) (call : OpenSubmission), e.label.submission = some i →
    e.pre.submissions[i]? = some call → call.request.Names row → e.post.rows = e.pre.rows
  answers : ∀ (i : Nat) (call : OpenSubmission), t.submissions[i]? = some call →
    call.request.Names row →
    call.phase = .locked → call.request.payload = row.payload → ∀ id,
    ∃ status mid last, Reports.Step lockId t (.proceed i id) mid ∧
      Reports.Step lockId mid (.proceed i id) last ∧
      last.submissions[i]? = some { call with phase := .answered (.accepted row.id status) }

/-- The quota is kept, an accepted submission has a row with its id and its report, and a stored row
decides all later submissions under its key. -/
structure ReportGuarantees (lockId : ActorId → Int) (tr : ReportRun) (s : Reports) : Prop where
  quota : s.WithinQuota
  stored : ∀ call ∈ s.submissions, ∀ id status, call.phase = .answered (.accepted id status) →
    NotPurged tr call.request.storageKey →
    ∃ row ∈ s.rows, call.request.Names row ∧ row.id = id ∧ row.payload = call.request.payload
  repeated : ∀ row ∈ s.rows, ∀ tr' t, Run (Reports.Step lockId) s tr' t →
    NotPurged tr' row.actorId → Repeats lockId s row tr' t

end Waveform.Control
