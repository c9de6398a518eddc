import Waveform.Service.Attempt

/-!
# What the speech adapters send

Each adapter builds one HTTP request for speech out of the provider-ready request, its own controls
and its own voice mapping, under one key. The bodies are the records that the adapters serialize.

- `synthesisRequest_congr`: a provider's request is a function of what is its own.
-/

set_option autoImplicit false

namespace Waveform.Providers

open Waveform.Domain

/-! ## Gemini -/

/-- `GeminiTtsRequest`, for audio. -/
structure GeminiTtsRequest where
  model : String
  input : String
  voice : String
  language : Option String
  deriving DecidableEq

/-- `GeminiTtsOptions::prompt`: the documented prompt sections before the text. -/
def prompt (options : GeminiTtsOptions) (transcript : String) : String :=
  let sections := [("# AUDIO PROFILE", options.audioProfile), ("## THE SCENE", options.scene),
    ("### DIRECTOR'S NOTES", options.directorNotes), ("### SAMPLE CONTEXT", options.sampleContext)]
  let headed := sections.filterMap fun entry => entry.2.map fun value => entry.1 ++ "\n" ++
    value ++ "\n\n"
  let lead := String.join headed
  if lead.isEmpty then transcript else lead ++ "#### TRANSCRIPT\n" ++ transcript

/-! ## ElevenLabs -/

/-- `ElevenLabsSpeechSettings`. -/
structure ElevenLabsSpeechSettings where
  stability : Option Double
  similarityBoost : Option Double
  style : Option Double
  useSpeakerBoost : Option Bool
  speed : Option Double
  deriving DecidableEq

/-- The double of a setting of a voice profile. -/
def Double.ofSetting (setting : Rat) : Double :=
  ⟨decide (setting < 0), |setting|, abs_nonneg setting⟩

/-- The settings of a voice profile. -/
def ElevenLabsSpeechSettings.ofProfile (settings : ElevenLabsVoiceSettings) :
    ElevenLabsSpeechSettings where
  stability := some (Double.ofSetting settings.stability)
  similarityBoost := some (Double.ofSetting settings.similarityBoost)
  style := some (Double.ofSetting settings.style)
  useSpeakerBoost := some settings.useSpeakerBoost
  speed := some (Double.ofSetting settings.speed)

/-- `merged`: the controls of the request over the settings of the profile; nothing when there are
none. -/
def ElevenLabsSpeechSettings.merged (profile : Option ElevenLabsVoiceSettings)
    (options : Option ElevenLabsTtsOptions) :
    Option ElevenLabsSpeechSettings :=
  let base := (profile.map ofProfile).getD ⟨none, none, none, none, none⟩
  let result : ElevenLabsSpeechSettings :=
    match options with
    | none => base
    | some options =>
        { stability := options.stability <|> base.stability
          similarityBoost := options.similarityBoost <|> base.similarityBoost
          style := options.style <|> base.style
          useSpeakerBoost := options.useSpeakerBoost <|> base.useSpeakerBoost
          speed := options.speed <|> base.speed }
  if result.stability.isSome || result.similarityBoost.isSome || result.style.isSome ||
      result.useSpeakerBoost.isSome || result.speed.isSome then some result
  else none

/-- `ElevenLabsSpeechRequest`, and the voice in the path of its URL. -/
structure ElevenLabsSpeechRequest where
  voiceId : String
  text : String
  modelId : String
  voiceSettings : Option ElevenLabsSpeechSettings
  seed : Option Nat
  previousText : Option String
  nextText : Option String
  applyTextNormalization : Option String
  deriving DecidableEq

/-! ## OpenAI -/

/-- `OpenAiSpeechRequest`, for MP3. -/
structure OpenAiSpeechRequest where
  model : String
  input : String
  voice : String
  speed : Option Double
  instructions : Option String
  deriving DecidableEq

/-! ## The adapters -/

/-- What the deployment sets of the adapters: the shared keys, and the models and voices they fall
back to. -/
structure SpeechAdapters where
  sharedKey : ProviderName → String
  geminiTtsModel : String
  geminiVoice : String
  elevenLabsModel : String
  elevenLabsVoiceId : String
  openAiTtsModel : String
  openAiVoice : String

/-- A request for speech with the key in its header. -/
inductive SynthesisRequest where
  | gemini (apiKey : String) (body : GeminiTtsRequest)
  | elevenLabs (apiKey : String) (body : ElevenLabsSpeechRequest)
  | openAi (apiKey : String) (body : OpenAiSpeechRequest)
  deriving DecidableEq

namespace SpeechAdapters

variable (adapters : SpeechAdapters)

/-- The key of an adapter: `with_api_key` replaces the shared one. -/
def apiKey (provider : ProviderName) (key : Option String) : String :=
  key.getD (adapters.sharedKey provider)

/-- `synthesize_audio` of Gemini. -/
def geminiBody (text : String) (language voice : Option String)
    (options : Option GeminiTtsOptions) : GeminiTtsRequest where
  model := adapters.geminiTtsModel
  input := (options.map fun options => prompt options text).getD text
  voice := ((options.bind GeminiTtsOptions.voice) <|> voice).getD adapters.geminiVoice
  language := language

/-- `synthesize_audio` of ElevenLabs. -/
def elevenLabsBody (text : String) (voice : Option ElevenLabsVoice)
    (options : Option ElevenLabsTtsOptions) :
    ElevenLabsSpeechRequest where
  voiceId := (options.bind ElevenLabsTtsOptions.voiceId).getD
    ((voice.map ElevenLabsVoice.voiceId).getD
    adapters.elevenLabsVoiceId)
  text := text
  modelId := (options.bind ElevenLabsTtsOptions.modelId).getD
    ((voice.map ElevenLabsVoice.modelId).getD
    adapters.elevenLabsModel)
  voiceSettings := ElevenLabsSpeechSettings.merged (voice.map ElevenLabsVoice.voiceSettings) options
  seed := options.bind ElevenLabsTtsOptions.seed
  previousText := options.bind ElevenLabsTtsOptions.previousText
  nextText := options.bind ElevenLabsTtsOptions.nextText
  applyTextNormalization := options.bind ElevenLabsTtsOptions.applyTextNormalization

/-- `synthesize_audio` of OpenAI. -/
def openAiBody (text : String) (voice : Option String) (options : Option OpenAiTtsOptions) :
    OpenAiSpeechRequest where
  model := (options.bind OpenAiTtsOptions.model).getD adapters.openAiTtsModel
  input := text
  voice := ((options.bind OpenAiTtsOptions.voice) <|> voice).getD adapters.openAiVoice
  speed := options.bind OpenAiTtsOptions.speed
  instructions := options.bind OpenAiTtsOptions.instructions

/-- What `synthesize` of a provider sends; Deepgram has no speech. -/
def synthesisRequest (provider : ProviderName) (key : Option String)
    (request : TtsProviderRequest) :
    Option SynthesisRequest :=
  match provider with
  | .gemini =>
      let voice := match request.voice with
        | some (.gemini voice) => some voice
        | _ => none
      some (.gemini (adapters.apiKey .gemini key)
        (adapters.geminiBody request.text.asStr (request.language.map LanguageHint.asStr) voice
          request.options.gemini))
  | .elevenLabs =>
      let voice := match request.voice with
        | some (.elevenLabs voice) => some voice
        | _ => none
      some (.elevenLabs (adapters.apiKey .elevenLabs key)
        (adapters.elevenLabsBody request.text.asStr voice request.options.elevenlabs))
  | .openAi =>
      let voice := match request.voice with
        | some (.openAi voice) => some voice
        | _ => none
      some (.openAi (adapters.apiKey .openAi key)
        (adapters.openAiBody request.text.asStr voice request.options.openai))
  | .deepgram => none

end SpeechAdapters

/-- Two provider-ready requests that agree in what the provider's adapter reads. -/
structure SameOwn (request request' : TtsProviderRequest) : Prop where
  text : request.text = request'.text
  options : request.options = request'.options
  voice : request.voice = request'.voice
  language : request.language = request'.language

/-- **A provider's request is a function of what is its own**; the fixture voice is not among it. -/
theorem synthesisRequest_congr {adapters : SpeechAdapters} {provider : ProviderName}
    {key : Option String}
    {request request' : TtsProviderRequest} (h : SameOwn request request') :
    adapters.synthesisRequest provider key request = adapters.synthesisRequest provider key
      request' := by
  unfold SpeechAdapters.synthesisRequest
  rw [h.text, h.options, h.voice, h.language]

end Waveform.Providers
