import Waveform.Library.LabelledRun
import Waveform.Store.HeldAudio

/-!
# The speech stores as a transition system

Any number of attempts, replicas and cleaners act on one database. A step is one operation, a
transaction of its own, at clock readings that never go back; runs interleave the steps of all
actors in any order, and an attempt whose lease is gone may still take any step.

`World` adds to the database what the history of the run says: the latest clock reading, and for
every lease that was granted the attempt it belongs to. A step whose answer is lost on the way to
the caller is the same step, and a transaction that never commits is no step.
-/

set_option autoImplicit false

namespace Waveform.Store

open Waveform.Domain LabelledRun

/-- One operation of the stores. Holding audio names the attempt that does it, since the store
itself never learns it. -/
inductive StoreOp where
  | claim (claim : IdempotencyClaim)
  | startJob (job : SpeechJobStart)
  | complete (completion : IdempotencyCompletion)
  | release (release : IdempotencyRelease)
  | hold (attempt : IdempotencyLeaseId) (audio : HeldAudio)
  | recoverExpiredJobs
  | deleteExpiredRecords (selected : List IdempotencyScope)
  | deleteExpiredAudio (selected : List RequestId)

/-- What an operation answers. -/
inductive Outcome where
  | decided (decision : IdempotencyDecision)
  | done
  | held (expiresAt : Nat)
  | failed (error : IdempotencyStoreError)
  | heldAudioError
  deriving DecidableEq

/-- Commits a transaction that succeeded and rolls back one that failed. -/
def commit (db : Db) : Except IdempotencyStoreError (Outcome × Db) → Outcome × Db
  | .ok result => result
  | .error error => (.failed error, db)

/-- The answer of an operation and the database after it. -/
def execute (settings : IdempotencySettings) (now : Readings) (db : Db) :
    StoreOp → Outcome × Db
  | .claim claim =>
      commit db <| (claimInner settings now claim db).map fun (decision, db') =>
        (.decided decision, db')
  | .startJob job => commit db <| (startJobInner now job db).map fun db' => (.done, db')
  | .complete completion =>
      commit db <| (completeInner settings now completion db).map fun db' => (.done, db')
  | .release release => commit db <| (releaseInner now release db).map fun db' => (.done, db')
  | .hold _ audio =>
      match hold settings.ttl now audio db with
      | some (expiresAt, db') => (.held expiresAt, db')
      | none => (.heldAudioError, db)
  | .recoverExpiredJobs => (.done, recoverExpiredJobs now db)
  | .deleteExpiredRecords selected => (.done, deleteExpiredRecords now selected db)
  | .deleteExpiredAudio selected => (.done, deleteExpiredAudio now selected db)

/-- What an attempt held, when, and the expiry it was told. -/
structure HeldAttempt where
  audio : HeldAudio
  heldAt : Nat
  expiresAt : Nat

/-- The attempt a lease was granted to: its scope, the canonical request id and start time it was
given, whether its job was started, the audio it has held, and whether it has completed the
record. -/
structure Attempt where
  scope : IdempotencyScope
  requestId : RequestId
  operationStartedAt : Nat
  started : Bool
  held : Option HeldAttempt
  completed : Bool

/-- The database together with the history that the statements about runs refer to. -/
structure World where
  db : Db
  clock : Nat
  attempts : IdempotencyLeaseId → Option Attempt

/-- An operation and the clock readings it takes. -/
structure StoreEvent where
  op : StoreOp
  now : Readings

/-- The history after an operation with this answer. -/
def recordAttempt (attempts : IdempotencyLeaseId → Option Attempt) (now : Readings) :
    StoreOp → Outcome → IdempotencyLeaseId → Option Attempt
  | .claim claim, .decided (.acquired lease requestId operationStartedAt) =>
      Function.update attempts lease.id
        (some ⟨claim.scope, requestId, operationStartedAt, false, none, false⟩)
  | .startJob job, .done =>
      Function.update attempts job.leaseId ((attempts job.leaseId).map fun entry =>
        { entry with started := true })
  | .hold attempt audio, .held expiresAt =>
      Function.update attempts attempt ((attempts attempt).map fun entry =>
        { entry with held := some ⟨audio, now.begun, expiresAt⟩ })
  | .complete completion, .done =>
      Function.update attempts completion.leaseId ((attempts completion.leaseId).map fun entry =>
        { entry with completed := true })
  | _, _ => attempts

/-- The answer of an event in a world. -/
def World.outcome (settings : IdempotencySettings) (w : World) (e : StoreEvent) : Outcome :=
  (execute settings e.now w.db e.op).1

/-- The world after an event. -/
def World.next (settings : IdempotencySettings) (w : World) (e : StoreEvent) : World where
  db := (execute settings e.now w.db e.op).2
  clock := e.now.written
  attempts := recordAttempt w.attempts e.now e.op (w.outcome settings e)

/-- What the service guarantees of a claim: a lease id that was never granted, and the configured
lease duration. -/
def StoreOp.freshLease (settings : IdempotencySettings) (w : World) : StoreOp → Prop
  | .claim input => w.attempts input.leaseId = none ∧ input.leaseDuration = settings.lease
  | _ => True

/-- One step: readings that do not go back and lie within the operation timeout, and a fresh lease
id on each claim. -/
structure Step (settings : IdempotencySettings) (w : World) (e : StoreEvent) (w' : World) :
    Prop where
  clock_le_begun : w.clock ≤ e.now.begun
  onTime : e.now.written ≤ e.now.begun + settings.operationTimeout
  fresh : e.op.freshLease settings w
  eq_next : w' = w.next settings e

/-- A step moves the clock forward through its readings. -/
theorem Step.clock_le {settings : IdempotencySettings} {w w' : World} {e : StoreEvent}
    (h : Step settings w e w') :
    w.clock ≤ e.now.locked ∧ e.now.locked ≤ e.now.written ∧ w'.clock = e.now.written := by
  refine ⟨Nat.le_trans h.clock_le_begun e.now.begun_le_locked, e.now.locked_le_written, ?_⟩
  rw [h.eq_next]
  rfl

/-- Whether the response reports what the attempt did with its audio: held storage exactly when it
held, with the expiry it was told and the reason and duration of what it held. -/
def Attempt.reports (a : Attempt) : CompletedSpeechOperation → Bool
  | .stt _ => a.held.isNone
  | .tts result => match result.storage, a.held with
      | .briefcase _, none => true
      | .held reason _ expiresAt, some kept => kept.expiresAt == expiresAt &&
          kept.audio.reason == reason && kept.audio.audio.duration == result.duration
      | _, _ => false

/-- The use that the speech service makes of a lease. Once its job is started, an attempt holds
audio at most once, for the account and under the request id it was granted, and before it
completes. It completes under that request id too, and reports what it held. -/
def StoreOp.inProtocol (w : World) : StoreOp → Prop
  | .hold attempt audio => ∃ a ∈ w.attempts attempt, a.held = none ∧ a.completed = false ∧
      a.started = true ∧ audio.requestId = a.requestId ∧ audio.owner = a.scope.actor.id
  | .startJob job => ∃ a ∈ w.attempts job.leaseId, a.scope = job.scope
  | .release input => ∃ a ∈ w.attempts input.leaseId, a.scope = input.scope
  | .complete completion => ∃ a ∈ w.attempts completion.leaseId, a.scope = completion.scope ∧
      a.started = true ∧ completion.response.requestId = a.requestId ∧
      a.reports completion.response = true
  | _ => True

/-- A step that the speech service can take. -/
structure ProtocolStep (settings : IdempotencySettings) (w : World) (e : StoreEvent) (w' : World) :
    Prop extends Step settings w e w' where
  inProtocol : e.op.inProtocol w

/-- A store without rows, in which some planes are live. -/
def World.Initial (w : World) : Prop :=
  (∀ scope, w.db.records scope = none) ∧ (∀ requestId, w.db.jobs requestId = none) ∧
    (∀ requestId, w.db.held requestId = none) ∧ ∀ leaseId, w.attempts leaseId = none

/-- The worlds that some run from an empty store ends in. -/
def ReachableWorld (settings : IdempotencySettings) : World → Prop :=
  Reachable World.Initial (Step settings)

/-! ## Playing a list of events -/

/-- The event can be taken in this world. -/
def StoreEvent.Enabled (settings : IdempotencySettings) (w : World) (e : StoreEvent) : Prop :=
  w.clock ≤ e.now.begun ∧ e.now.written ≤ e.now.begun + settings.operationTimeout ∧
    e.op.freshLease settings w ∧ e.op.inProtocol w

instance (settings : IdempotencySettings) (w : World) (op : StoreOp) :
    Decidable (op.freshLease settings w) :=
  match op with
  | .claim input => inferInstanceAs (Decidable (w.attempts input.leaseId = none ∧ _))
  | .startJob _ | .complete _ | .release _ | .hold _ _ | .recoverExpiredJobs
  | .deleteExpiredRecords _ | .deleteExpiredAudio _ => .isTrue trivial

instance (w : World) (op : StoreOp) : Decidable (op.inProtocol w) :=
  match op with
  | .hold attempt _ => inferInstanceAs (Decidable (∃ a ∈ w.attempts attempt, _))
  | .startJob job => inferInstanceAs (Decidable (∃ a ∈ w.attempts job.leaseId, _))
  | .release input => inferInstanceAs (Decidable (∃ a ∈ w.attempts input.leaseId, _))
  | .complete completion => inferInstanceAs (Decidable (∃ a ∈ w.attempts completion.leaseId, _))
  | .claim _ | .recoverExpiredJobs | .deleteExpiredRecords _ | .deleteExpiredAudio _ =>
      .isTrue trivial

instance (settings : IdempotencySettings) (w : World) (e : StoreEvent) :
    Decidable (e.Enabled settings w) :=
  inferInstanceAs (Decidable (_ ∧ _ ∧ _ ∧ _))

/-- The transitions that a list of events takes from a world. -/
def transitions (settings : IdempotencySettings) (w : World) (events : List StoreEvent) :
    List (Transition World StoreEvent) :=
  play (fun w e => w.next settings e) w events

/-- The world after a list of events. -/
def World.after (settings : IdempotencySettings) (w : World) (events : List StoreEvent) : World :=
  playEnd (fun w e => w.next settings e) w events

/-- Every event of the list can be taken where it is taken. -/
def Admissible (settings : IdempotencySettings) (w : World) (events : List StoreEvent) : Prop :=
  EnabledAlong (fun w e => w.next settings e) (fun w e => e.Enabled settings w) w events

instance (settings : IdempotencySettings) (w : World) (events : List StoreEvent) :
    Decidable (Admissible settings w events) :=
  decidableEnabledAlong _ _ w events

/-- Admissible events are a run of the speech service. -/
theorem protocolRun_transitions {settings : IdempotencySettings} {w : World}
    {events : List StoreEvent} (h : Admissible settings w events) :
    Run (ProtocolStep settings) w (transitions settings w events) (w.after settings events) :=
  run_play _ _ (fun _ _ ⟨hclock, hontime, hfresh, hprotocol⟩ =>
    ⟨⟨hclock, hontime, hfresh, rfl⟩, hprotocol⟩) h

/-- A run of the speech service is a run of the stores. -/
theorem run_of_protocolRun {settings : IdempotencySettings} {w w' : World}
    {tr : List (Transition World StoreEvent)} (h : Run (ProtocolStep settings) w tr w') :
    Run (Step settings) w tr w' := by
  induction h with
  | nil w => exact .nil w
  | cons hstep _ ih => exact .cons hstep.toStep ih

/-! ## Sample values

Shared by the runs on fixed inputs that follow some of the results. -/

/-- An operation that takes all its readings at one instant. -/
def Readings.at (now : Nat) : Readings := ⟨now, now, now, Nat.le_refl now, Nat.le_refl now⟩

/-- The default settings. -/
def sampleSettings : IdempotencySettings where
  ttl := 86400 * microsPerSecond
  lease := 600 * microsPerSecond
  retryAfter := 2 * microsPerSecond
  operationTimeout := 10 * microsPerSecond
  retryAfter_lt_lease := by decide
  lease_lt_ttl := by decide
  le_ttl := by decide
  ttl_le := by decide
  operationTimeout_le := by decide

/-- An empty store in which only the production plane is live. -/
def sampleWorld : World where
  db := ⟨fun plane => plane == Uuid.nil, fun _ => none, fun _ => none, fun _ => none⟩
  clock := 0
  attempts := fun _ => none

theorem sampleWorld_initial : sampleWorld.Initial :=
  ⟨fun _ => rfl, fun _ => rfl, fun _ => rfl, fun _ => rfl⟩

/-- A text-to-speech scope of one Carbon account in the production plane. -/
def sampleScope : IdempotencyScope where
  planeId := Uuid.nil
  actor := ⟨.carbon, ⟨7, Uuid.seven_ne_nil⟩⟩
  operation := .tts
  key := ⟨"voice-note-1", by decide, by decide⟩

/-- The same account and operation under another key. -/
def otherSampleScope : IdempotencyScope :=
  { sampleScope with key := ⟨"voice-note-2", by decide, by decide⟩ }

/-- A request id that a client may send on several requests. -/
def sampleRequestId : RequestId := ⟨5, by decide⟩

/-- The lease ids of successive attempts. -/
def sampleLease (n : Nat) : IdempotencyLeaseId := ⟨n + 1, Nat.succ_ne_zero n⟩

/-- A claim of the scope for an attempt. -/
def sampleClaim (scope : IdempotencyScope) (attempt : Nat) : IdempotencyClaim where
  scope := scope
  digest := Vector.replicate 32 1
  requestId := sampleRequestId
  leaseId := sampleLease attempt
  leaseDuration := sampleSettings.lease

/-- The job start of an attempt. -/
def sampleJob (scope : IdempotencyScope) (attempt : Nat) : SpeechJobStart where
  voiceProfile := none
  scope := scope
  issuingApp := none
  leaseId := sampleLease attempt
  firstLine := "Hello"

/-- An absolute URL on some host. -/
def sampleUrl (path : String) : Url where
  scheme := "https"
  username := ""
  password := none
  host := some (.domain "waveform.example")
  port := none
  path := path
  query := none
  fragment := none

theorem validPermanent_hello : (sampleUrl "/files/hello.mp3").validPermanent = true := by decide

/-- A result stored in Briefcase. -/
def sampleResult : CompletedTtsOperation where
  voiceProfile := none
  requestId := sampleRequestId
  storage := .briefcase ⟨sampleUrl "/files/hello.mp3", validPermanent_hello⟩
  provider := .gemini
  duration := ⟨1200⟩

/-- The audio that an attempt of the scope synthesized. -/
def sampleAudio (scope : IdempotencyScope) (byte : UInt8) : HeldAudio where
  requestId := sampleRequestId
  owner := scope.actor.id
  filename := ⟨"tts_sample.mp3"⟩
  audio := ⟨[73, 68, 51, byte], ⟨1200⟩, by simp, by simp [maxProviderAudioBytes]⟩
  reason := .storageNotAuthorized

/-- A result held until the given expiry. -/
def sampleHeldResult (expiresAt : Nat) : CompletedTtsOperation :=
  { sampleResult with
    storage := .held .storageNotAuthorized (sampleUrl "/api/v1/audio/5") expiresAt }

/-! ## What each step does -/

section Steps

variable (settings : IdempotencySettings) (now : Readings) (db : Db)

/-- A claim either fails and changes nothing, or does what `ClaimResult` says. -/
theorem execute_claim (claim : IdempotencyClaim) :
    (∃ error, execute settings now db (.claim claim) = (.failed error, db)) ∨
      ∃ decision db', execute settings now db (.claim claim) = (.decided decision, db') ∧
        db.planes claim.scope.planeId = true ∧ ClaimResult settings now claim db decision db' := by
  cases h : claimInner settings now claim db with
  | error error => exact .inl ⟨error, by simp [execute, h, commit, Except.map]⟩
  | ok pair =>
      obtain ⟨decision, db'⟩ := pair
      exact .inr ⟨decision, db', by simp [execute, h, commit, Except.map], claimInner_ok h⟩

theorem execute_startJob (job : SpeechJobStart) :
    (∃ error, execute settings now db (.startJob job) = (.failed error, db)) ∨
      ∃ db', execute settings now db (.startJob job) = (.done, db') ∧
        startJobInner now job db = .ok db' := by
  cases h : startJobInner now job db with
  | error error => exact .inl ⟨error, by simp [execute, h, commit, Except.map]⟩
  | ok db' => exact .inr ⟨db', by simp [execute, h, commit, Except.map], rfl⟩

theorem execute_complete (completion : IdempotencyCompletion) :
    (∃ error, execute settings now db (.complete completion) = (.failed error, db)) ∨
      ∃ db', execute settings now db (.complete completion) = (.done, db') ∧
        completeInner settings now completion db = .ok db' := by
  cases h : completeInner settings now completion db with
  | error error => exact .inl ⟨error, by simp [execute, h, commit, Except.map]⟩
  | ok db' => exact .inr ⟨db', by simp [execute, h, commit, Except.map], rfl⟩

theorem execute_release (release : IdempotencyRelease) :
    (∃ error, execute settings now db (.release release) = (.failed error, db)) ∨
      ∃ db', execute settings now db (.release release) = (.done, db') ∧
        releaseInner now release db = .ok db' := by
  cases h : releaseInner now release db with
  | error error => exact .inl ⟨error, by simp [execute, h, commit, Except.map]⟩
  | ok db' => exact .inr ⟨db', by simp [execute, h, commit, Except.map], rfl⟩

theorem execute_hold (attempt : IdempotencyLeaseId) (audio : HeldAudio) :
    execute settings now db (.hold attempt audio) = (.heldAudioError, db) ∨
      ∃ expiresAt db', execute settings now db (.hold attempt audio) = (.held expiresAt, db') ∧
        hold settings.ttl now audio db = some (expiresAt, db') := by
  cases h : hold settings.ttl now audio db with
  | none => exact .inl (by simp [execute, h])
  | some pair => exact .inr ⟨pair.1, pair.2, by simp [execute, h], rfl⟩

end Steps

end Waveform.Store
