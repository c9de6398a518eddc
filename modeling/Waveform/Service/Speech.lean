import Waveform.Control.Settings
import Waveform.Domain.Request
import Waveform.Storage.Proofs
import Waveform.Store.System

/-!
# Speech requests up to the claim, and replays

What `synthesize_authorized` and `transcribe_authorized` do before an attempt runs: they complete
the provider order, validate, read the saved keys, compute the digest and claim the key; a replayed
result is returned once its file may still be read. What follows a granted lease is the protocol of
the stores.
-/

set_option autoImplicit false

namespace Waveform.Service

open Waveform.Domain
open Waveform.Control (Settings)
open Waveform.Storage (StorageAuthorityError)
open Waveform.Store (IdempotencySettings Readings)

/-! ## Errors -/

/-- External dependency named in safe operational errors. -/
inductive Dependency where
  | voiceProfiles
  | providerKeys
  | accounts
  | briefcase
  | audioStore
  | idempotencyStore
  | audioNormalizer
  deriving DecidableEq

/-- The failures of an authorized speech request. -/
inductive WaveformError where
  | storageAuthorizationRequired
  | invalidProviderOptions (reason : String)
  | providerFailed (failure : ProviderError)
  | invalidRequest
  | forbidden
  | payloadTooLarge
  | unsupportedMediaType
  | sourceNotFound
  | idempotencyKeyReused
  | requestInProgress (retryAfter : Nat)
  | providersExhausted
  | dependencyContractUnavailable (dependency : Dependency)
  | dependencyUnavailable (dependency : Dependency)
  | dependencyTimeout (dependency : Dependency)
  | internal
  deriving DecidableEq

/-- Failures of Briefcase. -/
inductive BriefcaseError where
  | unauthorized
  | forbidden
  | notFound
  | mediaTooLarge
  | unsupportedMediaType
  | contractUnavailable
  | unavailable
  | timeout
  | invalidResponse
  deriving DecidableEq

/-- `map_briefcase_error`. -/
def mapBriefcaseError : BriefcaseError → WaveformError
  | .invalidResponse => .internal
  | .forbidden => .forbidden
  | .notFound => .sourceNotFound
  | .mediaTooLarge => .payloadTooLarge
  | .unsupportedMediaType => .unsupportedMediaType
  | .contractUnavailable => .dependencyContractUnavailable .briefcase
  | .unauthorized => .storageAuthorizationRequired
  | .unavailable => .dependencyUnavailable .briefcase
  | .timeout => .dependencyTimeout .briefcase

/-- The errors of `briefcase_authority`, which `map_renewal_error` repeats. -/
def mapAuthorityError : StorageAuthorityError → WaveformError
  | .notAuthorized => .storageAuthorizationRequired
  | .refused => .storageAuthorizationRequired
  | .unavailable => .dependencyUnavailable .accounts
  | .timeout => .dependencyTimeout .accounts

/-- `map_idempotency_error`. -/
def mapIdempotencyError : IdempotencyStoreError → WaveformError
  | .unavailable => .dependencyUnavailable .idempotencyStore
  | .timeout => .dependencyTimeout .idempotencyStore
  | .invalidRecord => .internal
  | .leaseLost => .internal

/-! ## The service -/

/-- The policy of a deployment and the stores it enables. -/
structure SpeechService where
  idempotency : IdempotencySettings
  maxTextChars : Nat
  briefcaseOrigin : Url
  digestKey : DigestKey
  vault : Option Vault
  hasProviderKeys : Bool
  hasProviderOrders : Bool

/-- The headers of a request: its candidate id, the caller's token and the idempotency key. -/
structure SpeechRequestContext where
  requestId : RequestId
  subjectToken : Option AccessToken
  idempotencyKey : IdempotencyKey

/-- `url::Url::origin` of an HTTPS or HTTP URL, whose default ports are 443 and 80. -/
def urlOrigin (url : Url) : String × Option UrlHost × Nat :=
  (url.scheme, url.host, url.port.getD (if url.scheme == "https" then 443 else 80))

/-- A speech request of either operation. -/
inductive SpeechRequest where
  | tts (request : TtsRequest)
  | stt (request : SttRequest)

namespace SpeechRequest

/-- The operation of a request. -/
def operation : SpeechRequest → SpeechOperation
  | tts _ => .tts
  | stt _ => .stt

/-- The prefix the caller asked for. -/
def providerOrder : SpeechRequest → Option (List ProviderName)
  | tts request => request.providerOrder
  | stt request => request.providerOrder

/-- The request-only keys. -/
def providerKeys : SpeechRequest → ProviderApiKeys
  | tts request => request.providerKeys
  | stt request => request.providerKeys

/-- `with_provider_order`. -/
def withProviderOrder : SpeechRequest → List ProviderName → SpeechRequest
  | tts request, order => tts (request.withProviderOrder order)
  | stt request, order => stt (request.withProviderOrder order)

/-- `for_tts` or `for_stt`. -/
def digest (key : DigestKey) : SpeechRequest → RequestDigest
  | tts request => RequestDigest.forTts key request
  | stt request => RequestDigest.forStt key request

/-- The messages that the digest is computed from. -/
def messages (key : DigestKey) : SpeechRequest → List (List UInt8)
  | tts request => RequestDigest.ttsMessages key request
  | stt request => RequestDigest.sttMessages key request

end SpeechRequest

namespace SpeechService

variable (service : SpeechService)

/-- The order a request starts from: the account's, or the chain without a store for orders. -/
def baseOrder (settings : Settings) (authorization : AuthorizedActor)
    (operation : SpeechOperation) : Except WaveformError (List ProviderName) :=
  if service.hasProviderOrders then
    match settings.providerOrder authorization.actor.id operation with
    | some order => .ok order
    | none => .error (.dependencyUnavailable .idempotencyStore)
  else .ok (Settings.chain operation)

/-- `complete_provider_order`. -/
def completeProviderOrder (settings : Settings) (authorization : AuthorizedActor)
    (operation : SpeechOperation) (requested : Option (List ProviderName)) :
    Except WaveformError (List ProviderName) := do
  let base ← service.baseOrder settings authorization operation
  if requested = some [] then .error .invalidRequest
  else
    match (resolveOrder (requested.getD []) base).filter fun order =>
        order.length == (Settings.chain operation).length with
    | some order => .ok order
    | none => .error .invalidRequest

/-- `for_actor`, up to the adapters: the key each provider would be called with, when it is not the
deployment's. A request's key replaces a saved one, and every adapter takes a key. -/
def forActor (settings : Settings) (authorization : AuthorizedActor)
    (requestKeys : ProviderApiKeys) :
    Except WaveformError (ProviderName → Option String) :=
  let saved := if service.hasProviderKeys then
      settings.loadProviderKeys service.vault authorization.actor.id
    else some []
  match saved with
  | none => .error (.dependencyUnavailable .providerKeys)
  | some saved => .ok fun provider => requestKeys.get provider <|> saved.lookup provider

/-- What `synthesize_authorized` checks once the order is complete. The order is never empty. -/
def validateTts (request : TtsRequest) (order : List ProviderName) : Except WaveformError Unit := do
  if request.autoFallback && !request.providerOptions.isEmpty then
    .error (.invalidProviderOptions "Provider-specific controls require auto_fallback=false.")
  else
    match order with
    | [] => .error .internal
    | first :: _ =>
        match request.providerOptions.validateFor first with
        | .error reason => .error (.invalidProviderOptions reason)
        | .ok () =>
            if !request.providerKeys.supportsOnly ttsProviderChain then .error .invalidRequest
            else .ok ()

/-- What is checked before the order is completed. -/
def validateEarly : SpeechRequest → Except WaveformError Unit
  | .tts request =>
      if service.maxTextChars < request.text.characterCount then .error .payloadTooLarge else .ok ()
  | .stt request =>
      if urlOrigin request.sourceUrl.url ≠ urlOrigin service.briefcaseOrigin then
        .error .invalidRequest
      else if !request.providerKeys.supportsOnly sttProviderChain then .error .invalidRequest
      else .ok ()

/-- What is checked once it is complete. -/
def validateLate (request : SpeechRequest) (order : List ProviderName) :
    Except WaveformError Unit :=
  match request with
  | .tts request => validateTts request order
  | .stt _ => .ok ()

/-- The claim of a request whose order is complete. -/
def claimFor (context : SpeechRequestContext) (authorization : AuthorizedActor)
    (request : SpeechRequest) (order : List ProviderName) (leaseId : IdempotencyLeaseId) :
    IdempotencyClaim where
  scope := ⟨Uuid.nil, authorization.actor, request.operation, context.idempotencyKey⟩
  digest := (request.withProviderOrder order).digest service.digestKey
  requestId := context.requestId
  leaseId := leaseId
  leaseDuration := service.idempotency.lease

/-- `synthesize_authorized` and `transcribe_authorized` up to the claim. -/
def prepareClaim (settings : Settings) (context : SpeechRequestContext)
    (authorization : AuthorizedActor) (request : SpeechRequest) (leaseId : IdempotencyLeaseId) :
    Except WaveformError IdempotencyClaim := do
  service.validateEarly request
  let order ← service.completeProviderOrder settings authorization request.operation
    request.providerOrder
  validateLate request order
  let _ ← service.forActor settings authorization request.providerKeys
  return service.claimFor context authorization request order leaseId

end SpeechService

/-! ## Replays -/

/-- What a replay meets: the answers of the proof store and of Briefcase, and the held audio when it
is looked up. -/
structure ReplayCheck where
  briefcaseProof : Option AccessToken → Except StorageAuthorityError BriefcaseProof
  renewRefusedProof : Option AccessToken → BriefcaseProof →
    Except StorageAuthorityError BriefcaseProof
  verifyFileReadAccess : BriefcaseProof → BriefcaseFileUrl → Except BriefcaseError Unit
  db : Store.Db
  now : Nat

namespace ReplayCheck

variable (check : ReplayCheck)

/-- The token that may create a proof: a delegated call only uses a stored one. -/
def subjectToken (authorization : AuthorizedActor) (context : SpeechRequestContext) :
    Option AccessToken :=
  if authorization.isDelegated then none else context.subjectToken

/-- `briefcase_authority`. -/
def briefcaseAuthority (token : Option AccessToken) : Except WaveformError BriefcaseProof :=
  (check.briefcaseProof token).mapError mapAuthorityError

/-- `with_renewal` around the check of read access. -/
def verifyWithRenewal (token : Option AccessToken) (proof : BriefcaseProof)
    (file : BriefcaseFileUrl) : Except WaveformError Unit :=
  match check.verifyFileReadAccess proof file with
  | .ok () => .ok ()
  | .error .unauthorized => do
      let renewed ← (check.renewRefusedProof token proof).mapError mapAuthorityError
      (check.verifyFileReadAccess renewed file).mapError mapBriefcaseError
  | .error error => .error (mapBriefcaseError error)

/-- The checks of `replay_tts`, and those of `transcribe_authorized`, which renews nothing. -/
def checkRead (authorization : AuthorizedActor) (context : SpeechRequestContext)
    (request : SpeechRequest) (response : CompletedSpeechOperation) : Except WaveformError Unit :=
  let token := subjectToken authorization context
  match request, response with
  | .tts _, .tts completed =>
      match completed.storage with
      | .briefcase permanentUrl => do
          let proof ← check.briefcaseAuthority token
          check.verifyWithRenewal token proof permanentUrl
      | .held _ _ _ =>
          if Store.isHeld check.db completed.requestId authorization.actor.id check.now then .ok ()
          else .error .sourceNotFound
  | .stt request, .stt _ => do
      let proof ← check.briefcaseAuthority token
      (check.verifyFileReadAccess proof request.sourceUrl).mapError mapBriefcaseError
  | _, _ => .error .internal

end ReplayCheck

/-- What a request comes to: an error, a stored result, or an attempt that will call a provider. -/
inductive Answer where
  | refused (error : WaveformError)
  | replayed (response : CompletedSpeechOperation)
  | runs (lease : IdempotencyLease) (requestId : RequestId) (operationStartedAt : Nat)
  deriving DecidableEq

/-- What a request does with the decision of the store. -/
def answerDecision (check : ReplayCheck) (authorization : AuthorizedActor)
    (context : SpeechRequestContext) (request : SpeechRequest) : IdempotencyDecision → Answer
  | .acquired lease requestId operationStartedAt => .runs lease requestId operationStartedAt
  | .replay response =>
      match check.checkRead authorization context request response with
      | .ok () => .replayed response
      | .error error => .refused error
  | .keyReused => .refused .idempotencyKeyReused
  | .inProgress retryAfter => .refused (.requestInProgress retryAfter)

/-- The answer to a request made on these settings and this database. -/
def SpeechService.answer (service : SpeechService) (settings : Settings) (db : Store.Db)
    (now : Readings) (check : ReplayCheck) (context : SpeechRequestContext)
    (authorization : AuthorizedActor) (request : SpeechRequest) (leaseId : IdempotencyLeaseId) :
    Answer :=
  match service.prepareClaim settings context authorization request leaseId with
  | .error error => .refused error
  | .ok claim =>
      match Store.claimInner service.idempotency now claim db with
      | .error error => .refused (mapIdempotencyError error)
      | .ok (decision, _) => answerDecision check authorization context request decision

end Waveform.Service
