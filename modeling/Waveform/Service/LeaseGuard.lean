import Waveform.Service.Attempt

/-!
# The guard of an operation lease

From the moment the store grants a lease until the request's future ends, a guard holds the release
of that lease. A future is a program whose awaited calls carry the guard that the future holds
meanwhile: it may end at any return, and it may be dropped, or unwound, at any await. Whatever guard
it holds is dropped then, and spawns its release when it is still armed.

The awaits before the claim are left out: there is no lease and no guard at them.
-/

set_option autoImplicit false

namespace Waveform.Service

open Waveform.Domain
open Waveform.Control (Settings)
open Dialogue

/-! ## The guard -/

/-- Releasing on cancellation; `none` is a disarmed guard. -/
structure OperationLeaseGuard where
  release : Option IdempotencyRelease

namespace OperationLeaseGuard

/-- `OperationLeaseGuard::new`. -/
def new (scope : IdempotencyScope) (leaseId : IdempotencyLeaseId) : OperationLeaseGuard :=
  ⟨some ⟨none, scope, leaseId⟩⟩

/-- `disarm`. -/
def disarm (_guard : OperationLeaseGuard) : OperationLeaseGuard := ⟨none⟩

/-- `Drop::drop`: the releases that it spawns. `tryCurrent` says whether `Handle::try_current` finds
a runtime where the guard is dropped. -/
def drop (tryCurrent : Bool) (guard : OperationLeaseGuard) : List IdempotencyRelease :=
  match guard.release with
  | some release => if tryCurrent then [release] else []
  | none => []

end OperationLeaseGuard

/-! ## The requests -/

/-- The calls of a request that has been authorized. -/
inductive SpeechCall where
  | claim (claim : IdempotencyClaim)
  | resolve (actor : AuthorizedActor) (requested : Option String)
  | startJob (start : SpeechJobStart)
  | work (call : WorkCall)
  | complete (completion : IdempotencyCompletion)
  | release (release : IdempotencyRelease)

/-- A call that is awaited, with the guard among the locals of the future, once there is one. -/
structure Awaited where
  guard : Option OperationLeaseGuard
  call : SpeechCall

/-- What the calls answer. -/
@[reducible] def SpeechAnswer (awaited : Awaited) : Type :=
  match awaited.call with
  | .claim _ => Except IdempotencyStoreError IdempotencyDecision
  | .resolve _ _ => Except WaveformError VoiceProfile
  | .startJob _ => Except IdempotencyStoreError Unit
  | .work call => WorkAnswer call
  | .complete _ => Except IdempotencyStoreError Unit
  | .release _ => Except IdempotencyStoreError Unit

/-- The future of a request, up to the value that its body returns. -/
abbrev SpeechProgram (α : Type) := Dialogue Awaited SpeechAnswer α

/-- A future that returns: the guard is dropped with the other locals. -/
abbrev SpeechFuture (α : Type) :=
  SpeechProgram (Option OperationLeaseGuard × Except WaveformError α)

/-- An answered call of a request. -/
abbrev SpeechExchange := Exchange Awaited SpeechAnswer

/-- A part that works while the guard is held. -/
def working {α : Type} (guard : Option OperationLeaseGuard) (program : WorkProgram α) :
    SpeechProgram α :=
  program.asking (fun call => ⟨guard, .work call⟩) fun _ answer => answer

/-- Successful application result plus idempotency replay metadata. -/
structure ServiceResponse (α : Type) where
  result : α
  replayed : Bool
  authorizedActor : Option Actor

/-- `WaveformError::code`. -/
def WaveformError.code : WaveformError → ErrorCode
  | .invalidProviderOptions _ => .invalidRequest
  | .invalidRequest => .invalidRequest
  | .storageAuthorizationRequired => .storageAuthorizationRequired
  | .providerFailed _ => .providerFailed
  | .forbidden => .forbidden
  | .payloadTooLarge => .payloadTooLarge
  | .unsupportedMediaType => .unsupportedMediaType
  | .sourceNotFound => .sourceNotFound
  | .idempotencyKeyReused => .idempotencyKeyReused
  | .requestInProgress _ => .requestInProgress
  | .providersExhausted => .providersExhausted
  | .dependencyContractUnavailable _ => .dependencyContractUnavailable
  | .dependencyUnavailable _ => .dependencyUnavailable
  | .dependencyTimeout _ => .dependencyTimeout
  | .internal => .internal

/-- `fail`: the guard stays armed while the release is awaited, and whatever the store answers it is
disarmed after that. -/
def OperationLeaseGuard.fail (guard : OperationLeaseGuard) (code : Option ErrorCode) :
    SpeechProgram OperationLeaseGuard :=
  match guard.release with
  | some release =>
      let armed : OperationLeaseGuard := ⟨some { release with failureCode := code }⟩
      .ask ⟨some armed, .release { release with failureCode := code }⟩ fun _ => .done armed.disarm
  | none => .done guard.disarm

/-- `guard.fail(Some(error.code())).await; return Err(error)`. -/
def failWith {α : Type} (guard : OperationLeaseGuard) (error : WaveformError) : SpeechFuture α :=
  (guard.fail (some error.code)).bind fun guard => .done (some guard, .error error)

/-- `Self::completion`. -/
def completion (scope : IdempotencyScope) (leaseId : IdempotencyLeaseId)
    (response : CompletedSpeechOperation) : Except WaveformError IdempotencyCompletion :=
  if response.operation ≠ scope.operation then .error .internal
  else .ok ⟨scope, leaseId, response⟩

section Requests

variable {α : Type}

/-- What both operations do from `start_job` on. -/
def runJob (guard : OperationLeaseGuard) (start : SpeechJobStart)
    (execute : WorkProgram (Except WaveformError α)) (record : α → CompletedSpeechOperation) :
    SpeechFuture (ServiceResponse α) :=
  .ask ⟨some guard, .startJob start⟩ fun
    -- The early return leaves the guard armed.
    | .error error => .done (some guard, .error (mapIdempotencyError error))
    | .ok () =>
        (working (some guard) execute).bind fun
          | .error error => failWith guard error
          | .ok result =>
              match completion start.scope start.leaseId (record result) with
              | .error error => failWith guard error
              | .ok completion =>
                  .ask ⟨some guard, .complete completion⟩ fun
                    | .error error => failWith guard (mapIdempotencyError error)
                    | .ok () =>
                        .done (some guard.disarm, .ok ⟨result, false, some start.scope.actor⟩)

/-- A replay, or its error. -/
def replayed (program : ServiceProgram (Except WaveformError α)) :
    SpeechFuture (ServiceResponse α) :=
  (working none (atPorts program)).bind fun outcome =>
    .done (none, outcome.map fun result => ⟨result, true, none⟩)

end Requests

/-- The service: its policy and stores, and what it works with. -/
structure WaveformService where
  speech : SpeechService
  work : WorkSettings
  hasVoiceProfiles : Bool

namespace WaveformService

variable (service : WaveformService) (settings : Settings) (context : SpeechRequestContext)
  (authorization : AuthorizedActor) (leaseId : IdempotencyLeaseId)

/-- The keys that `for_actor` gave the adapters before the claim. -/
def apiKeys (requestKeys : ProviderApiKeys) : ProviderName → Option String :=
  match service.speech.forActor settings authorization requestKeys with
  | .ok keys => keys
  | .error _ => fun _ => none

/-- The account's order completes the caller's. -/
def completedOrder (request : SpeechRequest) : SpeechRequest :=
  match service.speech.completeProviderOrder settings authorization request.operation
      request.providerOrder with
  | .ok order => request.withProviderOrder order
  | .error _ => request

/-- `synthesize_authorized` once its voice is resolved. -/
def synthesizeResolved (request : TtsRequest) (scope : IdempotencyScope) (lease : IdempotencyLease)
    (requestId : RequestId) (operationStartedAt : Nat) (resolvedVoice : Option VoiceProfile) :
    SpeechFuture (ServiceResponse TtsResult) :=
  runJob (OperationLeaseGuard.new scope lease.id)
    { voiceProfile := resolvedVoice.map VoiceProfile.toRef
      scope := scope
      issuingApp := authorization.originatingApplication
      leaseId := lease.id
      firstLine := takeChars maxFirstLineChars (firstLineOf request.text.asStr) }
    (executeTts service.work authorization context.subjectToken
      (service.apiKeys settings authorization request.providerKeys) requestId operationStartedAt
      request resolvedVoice)
    fun result => .tts (.fromResult result)

/-- `synthesize_authorized` once it acquired the lease. -/
def synthesizeAcquired (request : TtsRequest) (scope : IdempotencyScope) (lease : IdempotencyLease)
    (requestId : RequestId) (operationStartedAt : Nat) : SpeechFuture (ServiceResponse TtsResult) :=
  let guard := OperationLeaseGuard.new scope lease.id
  let resolved := service.synthesizeResolved settings context authorization request scope lease
    requestId operationStartedAt
  if service.hasVoiceProfiles then
    .ask ⟨some guard, .resolve authorization request.voiceProfile⟩ fun
      | .ok profile => resolved (some profile)
      | .error error => failWith guard error
  else if request.voiceProfile.isSome then failWith guard .invalidRequest
  else resolved none

/-- `synthesize_authorized`. -/
def synthesizeAuthorized (request : TtsRequest) : SpeechFuture (ServiceResponse TtsResult) :=
  match service.speech.prepareClaim settings context authorization (.tts request) leaseId with
  | .error error => .done (none, .error error)
  | .ok claim =>
      let request := match service.completedOrder settings authorization (.tts request) with
        | .tts request => request
        | .stt _ => request
      .ask ⟨none, .claim claim⟩ fun
        | .error error => .done (none, .error (mapIdempotencyError error))
        | .ok (.acquired lease requestId operationStartedAt) =>
            service.synthesizeAcquired settings context authorization request claim.scope lease
              requestId operationStartedAt
        | .ok (.replay (.tts completed)) =>
            replayed (replayTts authorization context.subjectToken context.requestId completed)
        | .ok (.replay (.stt _)) => .done (none, .error .internal)
        | .ok .keyReused => .done (none, .error .idempotencyKeyReused)
        | .ok (.inProgress retryAfter) => .done (none, .error (.requestInProgress retryAfter))

/-- `transcribe_authorized` once it acquired the lease. -/
def transcribeAcquired (request : SttRequest) (scope : IdempotencyScope)
    (lease : IdempotencyLease) (requestId : RequestId) : SpeechFuture (ServiceResponse SttResult) :=
  runJob (OperationLeaseGuard.new scope lease.id)
    { voiceProfile := none
      scope := scope
      issuingApp := authorization.originatingApplication
      leaseId := lease.id
      firstLine := "" }
    (executeStt service.work authorization context.subjectToken
      (service.apiKeys settings authorization request.providerKeys) requestId request)
    .stt

/-- `transcribe_authorized`. -/
def transcribeAuthorized (request : SttRequest) : SpeechFuture (ServiceResponse SttResult) :=
  match service.speech.prepareClaim settings context authorization (.stt request) leaseId with
  | .error error => .done (none, .error error)
  | .ok claim =>
      let request := match service.completedOrder settings authorization (.stt request) with
        | .stt request => request
        | .tts _ => request
      .ask ⟨none, .claim claim⟩ fun
        | .error error => .done (none, .error (mapIdempotencyError error))
        | .ok (.acquired lease requestId _) =>
            service.transcribeAcquired settings context authorization request claim.scope lease
              requestId
        | .ok (.replay (.stt result)) =>
            replayed (replayStt authorization context.subjectToken context.requestId request result)
        | .ok (.replay (.tts _)) => .done (none, .error .internal)
        | .ok .keyReused => .done (none, .error .idempotencyKeyReused)
        | .ok (.inProgress retryAfter) => .done (none, .error (.requestInProgress retryAfter))

end WaveformService

end Waveform.Service
