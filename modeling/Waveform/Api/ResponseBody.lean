import Waveform.Domain.Idempotency
import Waveform.Domain.ValueText

/-!
# Response bodies

The bodies of successful TTS and STT operations, fresh or replayed.
-/

set_option autoImplicit false

namespace Waveform.Domain

/-- Exact explanation for the response. -/
def HeldReason.message : HeldReason → String
  | delegatedCall =>
      "Not stored in Briefcase: another app called Waveform for this account with a proof, and Waveform only stores in Briefcase when the account calls it directly. Fetch audio_url with the same proof before it expires."
  | storageNotAuthorized =>
      "Not stored in Briefcase: Waveform could not get Briefcase access for this account. Run `waveform storage approve` (or sign in again) and retry with a new Idempotency-Key to store future speech."
  | briefcaseRefused =>
      "Not stored in Briefcase: Briefcase refused Waveform's access or the upload. The audio is held by Waveform at audio_url until it expires."
  | briefcaseUnavailable =>
      "Not stored in Briefcase: Briefcase is unavailable. The audio is held by Waveform at audio_url until it expires."
  | briefcaseTimeout =>
      "Not stored in Briefcase: Briefcase did not answer in time. The audio is held by Waveform at audio_url until it expires."
  | briefcaseContractUnavailable =>
      "Not stored in Briefcase: Briefcase does not offer the upload contract Waveform needs yet. The audio is held by Waveform at audio_url until it expires."

/-- Public MIME type. -/
def TtsOutputFormat.asMimeStr : TtsOutputFormat → String
  | mp3 => "audio/mpeg"

end Waveform.Domain

namespace Waveform.Api

open Waveform.Domain

/-- Where the generated MP3 is, and why when it is not in Briefcase. -/
structure StorageBody where
  status : String
  reason : Option String
  message : Option String
  expiresAt : Option String
  deriving DecidableEq

/-- Stable JSON representation of a successful TTS operation. -/
structure TtsResponseBody where
  voiceProfile : Option VoiceProfileRef
  requestId : String
  fileUrl : Option String
  temporaryUrl : Option String
  audioUrl : Option String
  storage : StorageBody
  mediaType : String
  provider : String
  durationMs : Nat
  deriving DecidableEq

/-- Stable JSON representation of a successful STT operation. -/
structure SttResponseBody where
  requestId : String
  transcript : String
  detectedLanguage : Option String
  provider : String
  durationMs : Option Nat
  deriving DecidableEq

section Bodies

variable (urls : UrlText) (rfc3339 : Rfc3339)

/-- `TtsResponseBody::from`. -/
def TtsResponseBody.fromResult (result : TtsResult) : TtsResponseBody :=
  let (fileUrl, audioUrl, storage) : Option String × Option String × StorageBody :=
    match result.storage with
    | .briefcase permanentUrl =>
        (some (urls.asStr permanentUrl.url), none, ⟨"stored", none, none, none⟩)
    | .held reason audioUrl expiresAt =>
        (none, some (urls.asStr audioUrl),
          ⟨"held", some reason.asStr, some reason.message, rfc3339.format expiresAt⟩)
  { voiceProfile := result.voiceProfile
    requestId := String.ofList result.requestId.asUuid.hyphenated
    fileUrl := fileUrl
    temporaryUrl := none
    audioUrl := audioUrl
    storage := storage
    mediaType := result.outputFormat.asMimeStr
    provider := result.provider.asStr
    durationMs := result.duration.asMillis }

/-- `SttResponseBody::from`. -/
def SttResponseBody.fromResult (result : SttResult) : SttResponseBody where
  requestId := String.ofList result.requestId.asUuid.hyphenated
  transcript := result.transcript.asStr
  detectedLanguage := result.detectedLanguage.map (·.asStr)
  provider := result.provider.asStr
  durationMs := result.duration.map (·.asMillis)

/-- The body of an answer. -/
inductive ResponseBody where
  | tts (body : TtsResponseBody)
  | stt (body : SttResponseBody)
  deriving DecidableEq

/-- The body that a completed operation is answered with. -/
def responseBody : CompletedSpeechOperation → ResponseBody
  | .tts completed => .tts (TtsResponseBody.fromResult urls rfc3339 completed.intoResult)
  | .stt result => .stt (SttResponseBody.fromResult result)

end Bodies

end Waveform.Api
