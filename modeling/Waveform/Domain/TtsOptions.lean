import Mathlib.Data.Rat.Defs
import Mathlib.Algebra.Order.Ring.Unbundled.Rat
import Waveform.Domain.Provider

/-!
# Provider controls of a synthesis request

The controls a caller may set for the first selected provider, and their validation. A JSON number
is always finite, so a double is its sign and the rational number it stands for; the bounds that are
no doubles themselves are the doubles nearest to them.
-/

set_option autoImplicit false

namespace Waveform.Domain

/-- A finite double. A zero has a sign too, which JSON keeps. -/
structure Double where
  negative : Bool
  magnitude : Rat
  nonneg : 0 ≤ magnitude
  deriving DecidableEq

/-- The number that a double stands for. -/
def Double.value (double : Double) : Rat :=
  if double.negative then -double.magnitude else double.magnitude

/-- Gemini performance instructions and voice selection. -/
structure GeminiTtsOptions where
  voice : Option String
  scene : Option String
  audioProfile : Option String
  directorNotes : Option String
  sampleContext : Option String
  deriving DecidableEq

/-- ElevenLabs delivery controls and voice selection. -/
structure ElevenLabsTtsOptions where
  voiceId : Option String
  modelId : Option String
  stability : Option Double
  similarityBoost : Option Double
  style : Option Double
  speed : Option Double
  useSpeakerBoost : Option Bool
  seed : Option Nat
  previousText : Option String
  nextText : Option String
  applyTextNormalization : Option String
  deriving DecidableEq

/-- OpenAI model, voice and delivery controls. -/
structure OpenAiTtsOptions where
  voice : Option String
  model : Option String
  instructions : Option String
  speed : Option Double
  deriving DecidableEq

/-- Controls for one selected TTS provider; omitted values retain voice defaults. -/
structure TtsProviderOptions where
  gemini : Option GeminiTtsOptions
  elevenlabs : Option ElevenLabsTtsOptions
  openai : Option OpenAiTtsOptions
  deriving DecidableEq

/-- `GeminiTtsOptions::default()`. -/
def GeminiTtsOptions.default : GeminiTtsOptions := ⟨none, none, none, none, none⟩

/-- `ElevenLabsTtsOptions::default()`. -/
def ElevenLabsTtsOptions.default : ElevenLabsTtsOptions :=
  ⟨none, none, none, none, none, none, none, none, none, none, none⟩

/-- `OpenAiTtsOptions::default()`. -/
def OpenAiTtsOptions.default : OpenAiTtsOptions := ⟨none, none, none, none⟩

/-- `TtsProviderOptions::default()`. -/
def TtsProviderOptions.default : TtsProviderOptions := ⟨none, none, none⟩

/-! ## Values -/

/-- `char::is_whitespace`: the Unicode property `White_Space`. -/
def isWhitespace (c : Char) : Bool :=
  let n := c.toNat
  (9 ≤ n && n ≤ 13) || n == 0x20 || n == 0x85 || n == 0xA0 || n == 0x1680 ||
    (0x2000 ≤ n && n ≤ 0x200A) || n == 0x2028 || n == 0x2029 || n == 0x202F || n == 0x205F ||
    n == 0x3000

/-- `str::trim` leaves nothing. -/
def isBlank (value : String) : Bool := value.toList.all isWhitespace

/-- `u8::is_ascii_alphabetic`; every byte of a longer character fails it. -/
def isAsciiAlphabetic (c : Char) : Bool :=
  ('a' ≤ c && c ≤ 'z') || ('A' ≤ c && c ≤ 'Z')

/-- `valid_identifier`. -/
def validIdentifier (value : String) (limit : Nat) : Bool :=
  !value.isEmpty && decide (value.utf8ByteSize ≤ limit) &&
    value.toList.all fun c =>
      isAsciiAlphabetic c || ('0' ≤ c && c ≤ '9') || c == '_' || c == '-'

/-- `valid_text`. -/
def validText (value : Option String) (limit : Nat) : Bool :=
  value.all fun text =>
    !isBlank text && decide (text.toList.length ≤ limit) && !text.toList.contains (Char.ofNat 0)

/-- `valid_range`. -/
def validRange (value : Option Rat) (min max : Rat) : Bool :=
  value.all fun v => decide (min ≤ v) && decide (v ≤ max)

/-- The double nearest to 0.7. -/
def slowestSpeed : Rat := 6305039478318694 / 9007199254740992

/-- The double nearest to 1.2. -/
def fastestSpeed : Rat := 5404319552844595 / 4503599627370496

/-! ## Validation -/

/-- `GeminiTtsOptions::validate`. -/
def GeminiTtsOptions.validate (options : GeminiTtsOptions) : Except String Unit :=
  if options.voice.any fun v =>
      v.isEmpty || decide (64 < v.utf8ByteSize) || !v.toList.all isAsciiAlphabetic then
    .error "Gemini voice must be a supported prebuilt name containing 1–64 ASCII letters."
  else if [options.scene, options.audioProfile, options.directorNotes, options.sampleContext].any
      fun v => !validText v 4096 then
    .error "Each Gemini direction field must contain 1–4096 characters, with no NUL character."
  else .ok ()

/-- `ElevenLabsTtsOptions::validate`. -/
def ElevenLabsTtsOptions.validate (options : ElevenLabsTtsOptions) : Except String Unit :=
  if [options.voiceId, options.modelId].any fun v => v.any fun v => !validIdentifier v 128 then
    .error
      "ElevenLabs voice_id and model_id must contain 1–128 letters, digits, underscores or hyphens."
  else if ([options.stability, options.similarityBoost, options.style].any fun v =>
      !validRange (v.map Double.value) 0 1) ||
      !validRange (options.speed.map Double.value) slowestSpeed fastestSpeed then
    .error "ElevenLabs stability, similarity_boost and style must be 0–1; speed must be 0.7–1.2."
  else if !validText options.previousText 4096 || !validText options.nextText 4096 then
    .error
      "ElevenLabs previous_text and next_text must each contain 1–4096 characters, with no NUL character."
  else if options.applyTextNormalization.any fun v => !(["auto", "on", "off"].contains v) then
    .error "ElevenLabs apply_text_normalization must be auto, on or off."
  else .ok ()

/-- The model that takes instructions and the newer voices. -/
def openAiInstructionModel : String := "gpt-4o-mini-tts"

/-- `OpenAiTtsOptions::validate`. -/
def OpenAiTtsOptions.validate (options : OpenAiTtsOptions) : Except String Unit :=
  let instructed := options.model == some openAiInstructionModel
  if options.model.any fun v => !(["tts-1", "tts-1-hd", openAiInstructionModel].contains v) then
    .error "OpenAI model must be tts-1, tts-1-hd or gpt-4o-mini-tts."
  else if options.instructions.isSome && !instructed then
    .error
      "OpenAI instructions require model gpt-4o-mini-tts explicitly; tts-1 and tts-1-hd do not support them."
  else if !validText options.instructions 4096 ||
      !validRange (options.speed.map Double.value) (1 / 4) 4 then
    .error "OpenAI instructions must contain 1–4096 characters without NUL; speed must be 0.25–4."
  else if options.voice.any fun voice =>
      let legacy :=
        ["alloy", "ash", "coral", "echo", "fable", "onyx", "nova", "sage", "shimmer"].contains voice
      let modern := instructed && ["ballad", "verse", "marin", "cedar"].contains voice
      !legacy && !modern then
    .error
      "OpenAI voice is not supported by the selected model; newer voices require gpt-4o-mini-tts explicitly."
  else .ok ()

namespace TtsProviderOptions

/-- `is_empty`: no controls were supplied, empty objects included. -/
def isEmpty (options : TtsProviderOptions) : Bool :=
  (options.gemini.all fun v => v == GeminiTtsOptions.default) &&
    (options.elevenlabs.all fun v => v == ElevenLabsTtsOptions.default) &&
    options.openai.all fun v => v == OpenAiTtsOptions.default

/-- `for_other_providers`. -/
def forOtherProviders (options : TtsProviderOptions) (provider : ProviderName) :
    TtsProviderOptions where
  gemini := if provider ≠ .gemini then options.gemini else none
  elevenlabs := if provider ≠ .elevenLabs then options.elevenlabs else none
  openai := if provider ≠ .openAi then options.openai else none

/-- `validate_for`: controls for another provider and invalid values are refused. -/
def validateFor (options : TtsProviderOptions) (provider : ProviderName) : Except String Unit := do
  if !(options.forOtherProviders provider).isEmpty then
    .error
      "provider_options must belong to the first selected provider. Set provider_order to match the controls."
  else
    options.gemini.forM GeminiTtsOptions.validate
    options.elevenlabs.forM ElevenLabsTtsOptions.validate
    options.openai.forM OpenAiTtsOptions.validate

end TtsProviderOptions

end Waveform.Domain
