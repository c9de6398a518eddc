import Waveform.Domain.Idempotency
import Mathlib.Logic.Function.Basic

/-!
# The tables of the speech stores

The rows of `waveform_idempotency_records`, `waveform_jobs` and `waveform_held_audio`, and the
database state `Db` that holds them. A table is a partial function from its primary key.

Two CHECK constraints are built into the row types, so that a row that violates them cannot be
written down: a record is pending with a lease token and a lease expiry, or completed with a
response and neither (`RecordState`); a job's `finished_at` and `error_code` are present exactly in
the states that have them (`JobStatus`).
-/

set_option autoImplicit false

namespace Waveform.Store

open Waveform.Domain

/-- Value written into the retained legacy `org_id` column of every new row. -/
def accountScope : String := "@"

/-- PostgreSQL refuses U+0000 in `text` and in `jsonb` strings. -/
def storableText (text : String) : Bool :=
  !text.toList.contains (Char.ofNat 0)

/-- The `response_body` column: the JSON object that `encode_response` writes. -/
inductive StoredResponse where
  | tts (voiceProfile : Option VoiceProfileRef) (requestId : RequestId) (fileUrl : Option Url)
      (heldReason : Option String) (audioUrl : Option Url) (heldUntil : Option Nat)
      (provider : ProviderName) (durationMs : Nat)
  | stt (requestId : RequestId) (transcript : String) (detectedLanguage : Option LanguageHint)
      (provider : ProviderName) (durationMs : Option Nat)
  deriving DecidableEq

/-- Whether every free string of the response can be stored as `jsonb`. -/
def StoredResponse.storable : StoredResponse → Bool
  | tts voiceProfile _ _ heldReason _ _ _ _ =>
      voiceProfile.all (fun profile => storableText profile.id) && heldReason.all storableText
  | stt _ transcript detectedLanguage _ _ =>
      storableText transcript && detectedLanguage.all (fun language => storableText language.asStr)

/-- The `state`, `lease_token`, `lease_expires_at` and `response_body` columns together. -/
inductive RecordState where
  | pending (leaseToken : IdempotencyLeaseId) (leaseExpiresAt : Nat)
  | completed (responseBody : StoredResponse)
  deriving DecidableEq

namespace RecordState

/-- The `lease_token` column. -/
def leaseToken : RecordState → Option IdempotencyLeaseId
  | pending token _ => some token
  | completed _ => none

/-- The `lease_expires_at` column. -/
def leaseExpiresAt : RecordState → Option Nat
  | pending _ expiresAt => some expiresAt
  | completed _ => none

end RecordState

/-- A row of `waveform_idempotency_records`, without its key columns. -/
structure RecordRow where
  requestDigest : RequestDigest
  requestId : RequestId
  state : RecordState
  createdAt : Nat
  updatedAt : Nat
  expiresAt : Nat
  deriving DecidableEq

/-- What `start_job_inner` feeds to SHA-256 for the `idempotency_key_hash` column. The hash is
represented by its input, that is, taken to be free of collisions. -/
structure KeyHash where
  operation : SpeechOperation
  key : IdempotencyKey
  requestId : RequestId
  deriving DecidableEq

/-- The `status`, `error_code` and `finished_at` columns together. -/
inductive JobStatus where
  | running
  | failed (errorCode : String) (finishedAt : Nat)
  | completed (finishedAt : Nat)
  deriving DecidableEq

/-- `status = 'completed'`. -/
def JobStatus.isCompleted : JobStatus → Bool
  | completed _ => true
  | _ => false

/-- A row of `waveform_jobs`, without its primary key. -/
structure JobRow where
  planeId : Uuid
  orgId : String
  actorId : ActorId
  actorKind : ActorKind
  operation : SpeechOperation
  status : JobStatus
  firstLine : String
  durationMs : Option Nat
  provider : Option ProviderName
  requestDigest : RequestDigest
  idempotencyKeyHash : KeyHash
  createdAt : Nat
  leaseToken : Option IdempotencyLeaseId
  leaseExpiresAt : Option Nat
  voiceProfile : Option VoiceProfileRef
  issuingApp : Option ApplicationId
  deriving DecidableEq

/-- A row of `waveform_held_audio`, without its primary key. -/
structure HeldRow where
  storageActorId : ActorId
  filename : GeneratedAudioFileName
  mediaType : String
  audio : List UInt8
  reason : HeldReason
  createdAt : Nat
  expiresAt : Nat
  deriving DecidableEq

/-- The database: which planes are live, and the three tables. -/
@[ext]
structure Db where
  planes : Uuid → Bool
  records : IdempotencyScope → Option RecordRow
  jobs : RequestId → Option JobRow
  held : RequestId → Option HeldRow

namespace Db

/-- Writes or deletes the record of a scope. -/
def setRecord (db : Db) (scope : IdempotencyScope) (row : Option RecordRow) : Db :=
  { db with records := Function.update db.records scope row }

/-- Writes or deletes the job of a request. -/
def setJob (db : Db) (requestId : RequestId) (row : Option JobRow) : Db :=
  { db with jobs := Function.update db.jobs requestId row }

/-- Writes or deletes the held audio of a request. -/
def setHeld (db : Db) (requestId : RequestId) (row : Option HeldRow) : Db :=
  { db with held := Function.update db.held requestId row }

section Setters

variable (db : Db) (scope : IdempotencyScope) (requestId : RequestId)
variable (record : Option RecordRow) (job : Option JobRow) (heldRow : Option HeldRow)

@[simp] theorem setRecord_planes : (db.setRecord scope record).planes = db.planes := rfl
@[simp] theorem setRecord_jobs : (db.setRecord scope record).jobs = db.jobs := rfl
@[simp] theorem setRecord_held : (db.setRecord scope record).held = db.held := rfl
@[simp] theorem setRecord_records_self : (db.setRecord scope record).records scope = record :=
  Function.update_self ..

theorem setRecord_records_of_ne {other : IdempotencyScope} (h : other ≠ scope) :
    (db.setRecord scope record).records other = db.records other :=
  Function.update_of_ne h ..

theorem setRecord_records (other : IdempotencyScope) :
    (db.setRecord scope record).records other
      = if other = scope then record else db.records other :=
  Function.update_apply ..

@[simp] theorem setJob_planes : (db.setJob requestId job).planes = db.planes := rfl
@[simp] theorem setJob_records : (db.setJob requestId job).records = db.records := rfl
@[simp] theorem setJob_held : (db.setJob requestId job).held = db.held := rfl
@[simp] theorem setJob_jobs_self : (db.setJob requestId job).jobs requestId = job :=
  Function.update_self ..

theorem setJob_jobs (other : RequestId) :
    (db.setJob requestId job).jobs other = if other = requestId then job else db.jobs other :=
  Function.update_apply ..

@[simp] theorem setHeld_planes : (db.setHeld requestId heldRow).planes = db.planes := rfl
@[simp] theorem setHeld_records : (db.setHeld requestId heldRow).records = db.records := rfl
@[simp] theorem setHeld_jobs : (db.setHeld requestId heldRow).jobs = db.jobs := rfl
@[simp] theorem setHeld_held_self : (db.setHeld requestId heldRow).held requestId = heldRow :=
  Function.update_self ..

theorem setHeld_held (other : RequestId) :
    (db.setHeld requestId heldRow).held other
      = if other = requestId then heldRow else db.held other :=
  Function.update_apply ..

end Setters

end Db

end Waveform.Store
