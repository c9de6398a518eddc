import Waveform.Domain.Language
import Waveform.Domain.Request
import Waveform.Domain.Voice

/-!
# Public request bodies

The JSON bodies of the two speech endpoints, once deserialized, and `into_domain`, which turns an
accepted body into a request. The constructors of the domain are given here with their errors.
-/

set_option autoImplicit false

namespace Waveform.Api

open Waveform.Domain

/-! ## Capabilities -/

/-- `TTS_LANGUAGE_HINTS`. -/
def ttsLanguageHints : List String :=
  ["af", "am", "ar", "az", "be", "bg", "bn", "ca", "ceb", "cmn", "cs", "da", "de", "el", "en",
    "es", "et", "eu", "fa", "fi", "fil", "fr", "gl", "gu", "he", "hi", "hr", "ht", "hu", "hy",
    "id", "is", "it", "ja", "jv", "ka", "kn", "ko", "kok", "la", "lb", "lo", "lt", "lv", "mai",
    "mg", "mk", "ml", "mn", "mr", "ms", "my", "nb", "ne", "nl", "nn", "or", "pa", "pl", "ps",
    "pt", "ro", "ru", "sd", "si", "sk", "sl", "sq", "sr", "sv", "sw", "ta", "te", "th", "tr",
    "uk", "ur", "vi"]

/-- `STT_LANGUAGE_HINTS`. -/
def sttLanguageHints : List String :=
  ["de", "en", "es", "fr", "hi", "it", "ja", "nl", "pt", "ru"]

/-- `supports`: the base language of the hint is in the set. -/
def supports (supported : List String) (hint : LanguageHint) : Bool :=
  supported.any fun language => language == hint.primaryLanguage

/-! ## Errors -/

/-- Speech request or provider-output validation failure. -/
inductive SpeechValidationError where
  | blankText
  | textTooLong (characterLimit : Nat)
  | unsupportedTtsLanguage
  | unsupportedSttLanguage
  | transcriptTooLong (byteLimit : Nat)
  deriving DecidableEq

/-- Media validation failure. -/
inductive MediaError where
  | emptyMedia
  | mediaTooLarge (limitBytes : Nat)
  | invalidUrl
  | invalidPermanentUrl
  deriving DecidableEq

/-- Validation failure for a syntactically valid JSON body. -/
inductive RequestBodyError where
  | invalidProviderOptions (message : String)
  | invalidVoiceProfile
  | speech (error : SpeechValidationError)
  | language (error : LanguageHintError)
  | media (error : MediaError)
  | invalidFileUrl
  deriving DecidableEq

/-! ## Constructors of the domain -/

/-- `SpeechText::new`. -/
def speechText (value : String) : Except SpeechValidationError SpeechText :=
  if hblank : isBlank value = false then
    if hlength : value.toList.length ≤ maxTtsTextCharacters then .ok ⟨value, hblank, hlength⟩
    else .error (.textTooLong maxTtsTextCharacters)
  else .error .blankText

/-- `Transcript::new`. -/
def transcript (value : String) : Except SpeechValidationError Transcript :=
  if h : value.utf8ByteSize ≤ maxTranscriptBytes then .ok ⟨value, h⟩
  else .error (.transcriptTooLong maxTranscriptBytes)

/-- `BriefcaseFileUrl::new`. -/
def briefcaseFileUrl (value : Url) : Except MediaError BriefcaseFileUrl :=
  if h : value.validPermanent = true then .ok ⟨value, h⟩
  else if value.validHttps then .error .invalidPermanentUrl
  else .error .invalidUrl

/-- `NormalizedAudio::new`. -/
def normalizedAudio (bytes : List UInt8) (duration : MediaDuration) :
    Except MediaError NormalizedAudio :=
  if hempty : bytes ≠ [] then
    if hlength : bytes.length ≤ maxProviderAudioBytes then .ok ⟨bytes, duration, hempty, hlength⟩
    else .error (.mediaTooLarge maxProviderAudioBytes)
  else .error .emptyMedia

/-! ## Bodies -/

/-- Public text-to-speech JSON body. -/
structure TtsRequestBody where
  autoFallback : Bool
  providerOptions : TtsProviderOptions
  providerKeys : ProviderApiKeys
  text : String
  voiceProfile : Option String
  lang : Option String
  providerOrder : Option (List ProviderName)

/-- Public speech-to-text JSON body. -/
structure SttRequestBody where
  providerKeys : ProviderApiKeys
  fileUrl : String
  language : Option String
  providerOrder : Option (List ProviderName)

/-- `map(|value| LanguageHint::from_str(&value)).transpose()?`. -/
def parseLanguage : Option String → Except RequestBodyError (Option LanguageHint)
  | none => .ok none
  | some value => match LanguageHint.fromStr? value with
      | .ok hint => .ok (some hint)
      | .error error => .error (.language error)

/-- `TtsRequestBody::into_domain`. -/
def TtsRequestBody.intoDomain (body : TtsRequestBody) : Except RequestBodyError TtsRequest := do
  let text ← (speechText body.text).mapError .speech
  let language ← parseLanguage body.lang
  if body.voiceProfile.any fun v => !validProfileId v then
    .error .invalidVoiceProfile
  else if language.any fun hint => !supports ttsLanguageHints hint then
    .error (.speech .unsupportedTtsLanguage)
  else if body.autoFallback && !body.providerOptions.isEmpty then
    .error (.invalidProviderOptions "Provider-specific controls require auto_fallback=false.")
  else if !body.providerKeys.supportsOnly ttsProviderChain then
    .error (.invalidProviderOptions
      "A TTS request accepts keys only for gemini, elevenlabs and openai.")
  else
    .ok ⟨body.autoFallback, body.providerOptions, body.providerKeys, text, body.voiceProfile,
      language, body.providerOrder⟩

/-- `SttRequestBody::into_domain`; `parse` is `Url::parse`. -/
def SttRequestBody.intoDomain (parse : String → Option Url) (body : SttRequestBody) :
    Except RequestBodyError SttRequest := do
  let sourceUrl ← match parse body.fileUrl with
    | none => .error .invalidFileUrl
    | some url => (briefcaseFileUrl url).mapError .media
  let language ← parseLanguage body.language
  if !body.providerKeys.supportsOnly sttProviderChain then
    .error (.invalidProviderOptions
      "An STT request accepts keys only for gemini, openai and deepgram.")
  else if language.any fun hint => !supports sttLanguageHints hint then
    .error (.speech .unsupportedSttLanguage)
  else
    .ok ⟨body.providerKeys, sourceUrl, language, body.providerOrder⟩

end Waveform.Api
