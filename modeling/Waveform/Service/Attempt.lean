import Waveform.Domain.Voice
import Waveform.Library.Cancellable
import Waveform.Service.Renewal

/-!
# The work of an attempt

What runs between the start of a job and its completion. `executeTts` tries the providers in order,
normalizes the audio and stores it; `executeStt` reads the source, measures it and tries the
providers in order. Neither calls the operation store: the calls an attempt makes while it works are
those of `WorkCall`.
-/

set_option autoImplicit false

namespace Waveform.Domain

/-- Mapping for one provider. -/
inductive ProviderVoice where
  | gemini (voice : String)
  | openAi (voice : String)
  | elevenLabs (voice : ElevenLabsVoice)
  deriving DecidableEq

/-- `VoiceProfile::for_provider`. -/
def VoiceProfile.forProvider (profile : VoiceProfile) : ProviderName → Option ProviderVoice
  | .gemini => some (.gemini profile.geminiVoice)
  | .openAi => some (.openAi profile.openaiVoice)
  | .elevenLabs => some (.elevenLabs profile.elevenlabs)
  | .deepgram => none

/-- `TtsProviderOptions::for_provider`. -/
def TtsProviderOptions.forProvider (options : TtsProviderOptions) (provider : ProviderName) :
    TtsProviderOptions where
  gemini := if provider = .gemini then options.gemini else none
  elevenlabs := if provider = .elevenLabs then options.elevenlabs else none
  openai := if provider = .openAi then options.openai else none

/-- `accepts_tts_language_hint`. -/
def ProviderName.acceptsTtsLanguageHint (provider : ProviderName) : Bool := provider == .gemini

/-- Provider-ready TTS input. -/
structure TtsProviderRequest where
  fixtureVoice : Option String
  options : TtsProviderOptions
  text : SpeechText
  voice : Option ProviderVoice
  language : Option LanguageHint

/-- `TtsProviderRequest::for_provider`, with the voice resolved for the request. -/
def TtsProviderRequest.forProvider (request : TtsRequest) (resolvedVoice : Option VoiceProfile)
    (provider : ProviderName) : TtsProviderRequest where
  fixtureVoice := resolvedVoice.map VoiceProfile.geminiVoice
  options := request.providerOptions.forProvider provider
  text := request.text
  voice := resolvedVoice.bind fun voice => voice.forProvider provider
  language := if provider.acceptsTtsLanguageHint then request.language else none

/-- Provider-ready STT input. -/
structure SttProviderRequest where
  media : SourceMedia
  language : Option LanguageHint

/-- Provider transcript before the application adds request metadata. -/
structure SttProviderResult where
  transcript : Transcript
  detectedLanguage : Option LanguageHint
  duration : Option MediaDuration

/-- `SttResult::from_provider`. -/
def SttResult.fromProvider (requestId : RequestId) (provider : ProviderName)
    (result : SttProviderResult) : SttResult :=
  ⟨requestId, result.transcript, result.detectedLanguage, provider, result.duration⟩

/-- Description of raw linear PCM: at most eight channels of 8, 16, 24 or 32 bits. -/
structure PcmSpecification where
  sampleRateHz : Nat
  channels : Nat
  bitsPerSample : Nat
  supported : 0 < sampleRateHz ∧ 0 < channels ∧ channels ≤ 8 ∧ bitsPerSample ∈ [8, 16, 24, 32]

/-- Encodings a provider may return. -/
inductive ProviderAudioFormat where
  | mp3
  | wav
  | linearPcm (specification : PcmSpecification)

/-- Non-empty, bounded audio returned by a provider before MP3 normalization. -/
structure AudioArtifact where
  format : ProviderAudioFormat
  bytes : List UInt8
  nonEmpty : bytes ≠ []
  bounded : bytes.length ≤ maxProviderAudioBytes

end Waveform.Domain

namespace Waveform.Service

open Waveform.Domain

/-- Failures of the audio normalizer. -/
inductive AudioNormalizationError where
  | saturated
  | timeout
  | invalidAudio
  | unavailable
  | failed
  deriving DecidableEq

/-- `map_audio_error`. -/
def mapAudioError : AudioNormalizationError → WaveformError
  | .saturated => .dependencyUnavailable .audioNormalizer
  | .unavailable => .dependencyUnavailable .audioNormalizer
  | .timeout => .dependencyTimeout .audioNormalizer
  | .invalidAudio => .internal
  | .failed => .internal

/-- The calls of an attempt that works. A provider is called with the key that `for_actor` found. -/
inductive WorkCall where
  | port (query : ServiceQuery)
  | synthesize (provider : ProviderName) (apiKey : Option String) (request : TtsProviderRequest)
      (requestId : RequestId)
  | normalizeToMp3 (artifact : AudioArtifact) (requestId : RequestId)
  | sourceDuration (media : SourceMedia) (requestId : RequestId)
  | transcribe (provider : ProviderName) (apiKey : Option String) (request : SttProviderRequest)
      (requestId : RequestId)

/-- What they answer. -/
@[reducible] def WorkAnswer : WorkCall → Type
  | .port query => ServiceAnswer query
  | .synthesize _ _ _ _ => Except ProviderError AudioArtifact
  | .normalizeToMp3 _ _ => Except AudioNormalizationError NormalizedAudio
  | .sourceDuration _ _ => Except AudioNormalizationError MediaDuration
  | .transcribe _ _ _ _ => Except ProviderError SttProviderResult

/-- A program that works. -/
abbrev WorkProgram (α : Type) := Dialogue WorkCall WorkAnswer α

/-- A step at Briefcase, the proof store or the held-audio store. -/
def atPorts {α : Type} (program : ServiceProgram α) : WorkProgram α :=
  program.asking WorkCall.port fun _ answer => answer

/-- What the service reads while it works: its adapters, and the calendar. -/
structure WorkSettings where
  policy : ServicePolicy
  ttsProviders : List ProviderName
  sttProviders : List ProviderName
  utc : Nat → UtcDateTime

section Work

variable (settings : WorkSettings) (authorization : AuthorizedActor)
  (subjectToken : Option AccessToken) (keys : ProviderName → Option String) (requestId : RequestId)

/-- The loop of `execute_tts`: the first provider whose audio could be normalized. -/
def synthesizeFirst (request : TtsRequest) (resolvedVoice : Option VoiceProfile) :
    List ProviderName → WorkProgram (Except WaveformError (ProviderName × NormalizedAudio))
  | [] => .done (.error .providersExhausted)
  | provider :: rest =>
      if settings.ttsProviders.contains provider then
        .ask (.synthesize provider (keys provider) (.forProvider request resolvedVoice provider)
            requestId) fun
          | .error error =>
              if request.autoFallback then synthesizeFirst request resolvedVoice rest
              else .done (.error (.providerFailed error))
          | .ok artifact =>
              .ask (.normalizeToMp3 artifact requestId) fun
                | .ok audio => .done (.ok (provider, audio))
                | .error .invalidAudio =>
                    if request.autoFallback then synthesizeFirst request resolvedVoice rest
                    else .done (.error (.providerFailed (.new provider .invalidResponse)))
                | .error .failed =>
                    if request.autoFallback then synthesizeFirst request resolvedVoice rest
                    else .done (.error (.dependencyUnavailable .audioNormalizer))
                -- A normalizer that is not there, or is busy, ends the attempt at once.
                | .error error => .done (.error (mapAudioError error))
      else .done (.error .internal)

/-- `execute_tts`. -/
def executeTts (operationStartedAt : Nat) (request : TtsRequest)
    (resolvedVoice : Option VoiceProfile) : WorkProgram (Except WaveformError TtsResult) :=
  match resolveOrder (request.providerOrder.getD []) ttsProviderChain with
  | none => .done (.error .invalidRequest)
  | some order =>
      let order := if request.autoFallback then order else order.take 1
      (synthesizeFirst settings keys requestId request resolvedVoice order).andThen
        fun (provider, audio) =>
          (atPorts (storeAudio settings.policy authorization subjectToken
              (.forRequest (settings.utc operationStartedAt) requestId) audio requestId)).andThen
            fun storage =>
              .done (.ok ⟨resolvedVoice.map VoiceProfile.toRef, requestId, storage, provider, .mp3,
                audio.duration⟩)

/-- The loop of `execute_stt`: the first provider that returns a transcript. -/
def transcribeFirst (request : SttProviderRequest) (sourceDuration : MediaDuration) :
    List ProviderName → WorkProgram (Except WaveformError SttResult)
  | [] => .done (.error .providersExhausted)
  | provider :: rest =>
      if settings.sttProviders.contains provider then
        .ask (.transcribe provider (keys provider) request requestId) fun
          | .ok result =>
              .done (.ok (.fromProvider requestId provider
                { result with duration := some sourceDuration }))
          | .error _ => transcribeFirst request sourceDuration rest
      else .done (.error .internal)

/-- `execute_stt`. -/
def executeStt (request : SttRequest) : WorkProgram (Except WaveformError SttResult) :=
  (atPorts (readSource settings.policy authorization subjectToken requestId request)).andThen
    fun media =>
      .ask (.sourceDuration media requestId) fun
        | .error .invalidAudio => .done (.error .unsupportedMediaType)
        | .error other => .done (.error (mapAudioError other))
        | .ok duration =>
            match resolveOrder (request.providerOrder.getD []) sttProviderChain with
            | none => .done (.error .invalidRequest)
            | some order =>
                transcribeFirst settings keys requestId ⟨media, request.language⟩ duration order

end Work

end Waveform.Service
