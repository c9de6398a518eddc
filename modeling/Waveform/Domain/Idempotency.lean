import Waveform.Domain.Speech

/-!
# Idempotency policy values

The scope of an idempotency key, the request digest, leases, and the inputs and results of the
store operations.
-/

set_option autoImplicit false

namespace Waveform.Domain

/-- Operation included in an idempotency scope. -/
inductive SpeechOperation where
  | tts
  | stt
  deriving DecidableEq, Repr

/-- Stable storage label. -/
def SpeechOperation.asStr : SpeechOperation → String
  | tts => "tts"
  | stt => "stt"

/-- The characters of an idempotency key: visible ASCII. -/
def isAsciiGraphic (c : Char) : Bool := 33 ≤ c.toNat && c.toNat ≤ 126

/-- Validated caller idempotency key. -/
structure IdempotencyKey where
  asStr : String
  length : 8 ≤ asStr.utf8ByteSize ∧ asStr.utf8ByteSize ≤ 255
  graphic : asStr.toList.all isAsciiGraphic = true
  deriving DecidableEq

/-- Account and operation boundary of one idempotency key. -/
structure IdempotencyScope where
  planeId : Uuid
  actor : Actor
  operation : SpeechOperation
  key : IdempotencyKey
  deriving DecidableEq

/-- Keyed request digest of 32 bytes. -/
abbrev RequestDigest := Vector UInt8 32

/-- Exclusive right to execute work for a scope. -/
structure IdempotencyLease where
  id : IdempotencyLeaseId
  expiresAt : Nat
  deriving DecidableEq

/-- Atomic store acquisition input. -/
structure IdempotencyClaim where
  scope : IdempotencyScope
  digest : RequestDigest
  requestId : RequestId
  leaseId : IdempotencyLeaseId
  leaseDuration : Nat
  deriving DecidableEq

/-- Durable TTS fields retained for provider-free replay. -/
structure CompletedTtsOperation where
  voiceProfile : Option VoiceProfileRef
  requestId : RequestId
  storage : AudioStorage
  provider : ProviderName
  duration : MediaDuration
  deriving DecidableEq

/-- Encoding of generated speech. -/
inductive TtsOutputFormat where
  | mp3
  deriving DecidableEq

/-- Stable normalized TTS response. -/
structure TtsResult where
  voiceProfile : Option VoiceProfileRef
  requestId : RequestId
  storage : AudioStorage
  provider : ProviderName
  outputFormat : TtsOutputFormat
  duration : MediaDuration
  deriving DecidableEq

/-- `CompletedTtsOperation::from_result`. -/
def CompletedTtsOperation.fromResult (result : TtsResult) : CompletedTtsOperation :=
  ⟨result.voiceProfile, result.requestId, result.storage, result.provider, result.duration⟩

/-- `CompletedTtsOperation::into_result`. -/
def CompletedTtsOperation.intoResult (completed : CompletedTtsOperation) : TtsResult :=
  ⟨completed.voiceProfile, completed.requestId, completed.storage, completed.provider, .mp3,
    completed.duration⟩

/-- Durable success state retained for provider-free replay. -/
inductive CompletedSpeechOperation where
  | tts (result : CompletedTtsOperation)
  | stt (result : SttResult)
  deriving DecidableEq

namespace CompletedSpeechOperation

/-- The response's operation. -/
def operation : CompletedSpeechOperation → SpeechOperation
  | tts _ => .tts
  | stt _ => .stt

/-- `response_request_id`. -/
def requestId : CompletedSpeechOperation → RequestId
  | tts result => result.requestId
  | stt result => result.requestId

end CompletedSpeechOperation

/-- Result of atomically claiming an idempotency scope. -/
inductive IdempotencyDecision where
  | acquired (lease : IdempotencyLease) (requestId : RequestId) (operationStartedAt : Nat)
  | replay (response : CompletedSpeechOperation)
  | keyReused
  | inProgress (retryAfter : Nat)
  deriving DecidableEq

/-- Atomic completion input. -/
structure IdempotencyCompletion where
  scope : IdempotencyScope
  leaseId : IdempotencyLeaseId
  response : CompletedSpeechOperation
  deriving DecidableEq

/-- Stable public error codes. -/
inductive ErrorCode where
  | storageAuthorizationRequired
  | providerFailed
  | invalidRequest
  | unauthenticated
  | forbidden
  | payloadTooLarge
  | unsupportedMediaType
  | sourceNotFound
  | idempotencyKeyReused
  | requestInProgress
  | providersExhausted
  | dependencyContractUnavailable
  | dependencyUnavailable
  | dependencyTimeout
  | internal
  deriving DecidableEq, Repr

/-- The public error-code spelling. -/
def ErrorCode.asStr : ErrorCode → String
  | storageAuthorizationRequired => "storage_authorization_required"
  | providerFailed => "provider_failed"
  | invalidRequest => "invalid_request"
  | unauthenticated => "unauthenticated"
  | forbidden => "forbidden"
  | payloadTooLarge => "payload_too_large"
  | unsupportedMediaType => "unsupported_media_type"
  | sourceNotFound => "source_not_found"
  | idempotencyKeyReused => "idempotency_key_reused"
  | requestInProgress => "request_in_progress"
  | providersExhausted => "providers_exhausted"
  | dependencyContractUnavailable => "dependency_contract_unavailable"
  | dependencyUnavailable => "dependency_unavailable"
  | dependencyTimeout => "dependency_timeout"
  | internal => "internal_error"

/-- Atomic failed-work release input. -/
structure IdempotencyRelease where
  failureCode : Option ErrorCode
  scope : IdempotencyScope
  leaseId : IdempotencyLeaseId
  deriving DecidableEq

/-- Job metadata associated with an acquired lease. -/
structure SpeechJobStart where
  voiceProfile : Option VoiceProfileRef
  scope : IdempotencyScope
  issuingApp : Option ApplicationId
  leaseId : IdempotencyLeaseId
  firstLine : String
  deriving DecidableEq

/-- Failure of an idempotency store operation. -/
inductive IdempotencyStoreError where
  | unavailable
  | timeout
  | invalidRecord
  | leaseLost
  deriving DecidableEq, Repr

end Waveform.Domain
