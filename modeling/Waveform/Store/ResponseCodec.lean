import Waveform.Store.Schema

/-!
# Encoding of completed responses

`encodeResponse` and `decodeResponse` translate between a completed operation and the stored
response. A held result keeps its expiry as whole Unix seconds, so decoding gives the response back
with its expiry cut to the second (`decodeResponse_encodeResponse`); nothing else changes.
-/

set_option autoImplicit false

namespace Waveform.Store

open Waveform.Domain

/-- `OffsetDateTime::unix_timestamp`: the whole seconds. -/
def unixTimestamp (instant : Nat) : Nat := instant / microsPerSecond

/-- `OffsetDateTime::from_unix_timestamp`; its range check admits everything `unixTimestamp`
returns for an instant of the source's type. -/
def fromUnixTimestamp (seconds : Nat) : Nat := seconds * microsPerSecond

/-- The response object that a completed operation is stored as; the provider must be one of the
operation's chain. -/
def encodeResponse : CompletedSpeechOperation → Except IdempotencyStoreError StoredResponse
  | .tts result =>
      if result.provider ∈ ttsProviderChain then
        .ok <| match result.storage with
          | .briefcase permanentUrl =>
              .tts result.voiceProfile result.requestId (some permanentUrl.url) none none none
                result.provider result.duration.asMillis
          | .held reason audioUrl expiresAt =>
              .tts result.voiceProfile result.requestId none (some reason.asStr) (some audioUrl)
                (some (unixTimestamp expiresAt)) result.provider result.duration.asMillis
      else .error .invalidRecord
  | .stt result =>
      if result.provider ∈ sttProviderChain then
        .ok <| .stt result.requestId result.transcript.asStr result.detectedLanguage
          result.provider (result.duration.map MediaDuration.asMillis)
      else .error .invalidRecord

/-- The storage that the four storage columns of a stored TTS response describe. -/
def decodeStorage : Option Url → Option String → Option Url → Option Nat →
    Except IdempotencyStoreError AudioStorage
  | some fileUrl, none, none, none =>
      match BriefcaseFileUrl.new? fileUrl with
      | some permanentUrl => .ok (.briefcase permanentUrl)
      | none => .error .invalidRecord
  | none, some reason, some audioUrl, some heldUntil =>
      match HeldReason.fromStr? reason with
      | some reason => .ok (.held reason audioUrl (fromUnixTimestamp heldUntil))
      | none => .error .invalidRecord
  | _, _, _, _ => .error .invalidRecord

/-- The completed operation that a stored response describes. -/
def decodeResponse : StoredResponse → Except IdempotencyStoreError CompletedSpeechOperation
  | .tts voiceProfile requestId fileUrl heldReason audioUrl heldUntil provider durationMs =>
      if provider ∈ ttsProviderChain then
        (decodeStorage fileUrl heldReason audioUrl heldUntil).map fun storage =>
          .tts ⟨voiceProfile, requestId, storage, provider, ⟨durationMs⟩⟩
      else .error .invalidRecord
  | .stt requestId transcript detectedLanguage provider durationMs =>
      if provider ∈ sttProviderChain then
        match Transcript.new? transcript with
        | some transcript =>
            .ok (.stt ⟨requestId, transcript, detectedLanguage, provider,
              durationMs.map MediaDuration.mk⟩)
        | none => .error .invalidRecord
      else .error .invalidRecord

/-- A held expiry cut to the whole second it is stored as. -/
def storedStorage : AudioStorage → AudioStorage
  | .briefcase permanentUrl => .briefcase permanentUrl
  | .held reason audioUrl expiresAt =>
      .held reason audioUrl (fromUnixTimestamp (unixTimestamp expiresAt))

/-- The response as a replay returns it. -/
def replayedResponse : CompletedSpeechOperation → CompletedSpeechOperation
  | .tts result => .tts { result with storage := storedStorage result.storage }
  | .stt result => .stt result

@[simp] theorem replayedResponse_operation (response : CompletedSpeechOperation) :
    (replayedResponse response).operation = response.operation := by
  cases response <;> rfl

@[simp] theorem replayedResponse_requestId (response : CompletedSpeechOperation) :
    (replayedResponse response).requestId = response.requestId := by
  cases response <;> rfl

/-- Whatever is encoded decodes to the same response, a held expiry cut to the second. -/
theorem decodeResponse_encodeResponse {response : CompletedSpeechOperation}
    {stored : StoredResponse} (h : encodeResponse response = .ok stored) :
    decodeResponse stored = .ok (replayedResponse response) := by
  cases response with
  | tts result =>
      obtain ⟨voiceProfile, requestId, storage, provider, duration⟩ := result
      by_cases hp : provider ∈ ttsProviderChain
      · cases storage with
        | briefcase permanentUrl =>
            simp only [encodeResponse, hp, if_true, Except.ok.injEq] at h
            subst h
            simp [decodeResponse, decodeStorage, hp, replayedResponse, storedStorage, Except.map]
        | held reason audioUrl expiresAt =>
            simp only [encodeResponse, hp, if_true, Except.ok.injEq] at h
            subst h
            simp [decodeResponse, decodeStorage, hp, replayedResponse, storedStorage, Except.map]
      · simp [encodeResponse, hp] at h
  | stt result =>
      obtain ⟨requestId, transcript, detectedLanguage, provider, duration⟩ := result
      by_cases hp : provider ∈ sttProviderChain
      · simp only [encodeResponse, hp, if_true, Except.ok.injEq] at h
        subst h
        cases duration <;> simp [decodeResponse, hp, replayedResponse]
      · simp [encodeResponse, hp] at h

end Waveform.Store
