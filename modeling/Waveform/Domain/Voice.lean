import Waveform.Domain.Speech
import Waveform.Domain.TtsOptions

/-!
# Voice profiles

Named voice profiles and what makes a stored mapping usable. The settings come from a JSON column,
so they are finite.
-/

set_option autoImplicit false

namespace Waveform.Domain

/-- Delivery controls supported by multilingual v2. -/
structure ElevenLabsVoiceSettings where
  stability : Rat
  similarityBoost : Rat
  style : Rat
  useSpeakerBoost : Bool
  speed : Rat
  deriving DecidableEq

/-- ElevenLabs mapping for the fixed fallback model. -/
structure ElevenLabsVoice where
  voiceId : String
  modelId : String
  voiceSettings : ElevenLabsVoiceSettings
  deriving DecidableEq

/-- Full, versioned mapping resolved once per synthesis attempt. -/
structure VoiceProfile where
  id : String
  name : String
  description : String
  revision : Int
  auditioned : Bool
  geminiVoice : String
  openaiVoice : String
  elevenlabs : ElevenLabsVoice
  deriving DecidableEq

/-- A character of a profile slug. -/
def profileIdChar (c : Char) : Bool := c.isLower || c.isDigit || c == '-'

/-- `valid_profile_id`. -/
def validProfileId (value : String) : Bool :=
  !value.toList.isEmpty && decide (value.utf8ByteSize ≤ 64) && value.toList.all profileIdChar

/-- `VoiceProfile::is_valid`. -/
def VoiceProfile.isValid (profile : VoiceProfile) : Bool :=
  let settings := profile.elevenlabs.voiceSettings
  validProfileId profile.id && decide (0 < profile.revision) &&
    !profile.geminiVoice.toList.isEmpty && decide (profile.geminiVoice.utf8ByteSize ≤ 64) &&
    profile.geminiVoice.toList.all isAsciiAlphabetic &&
    ["alloy", "ash", "coral", "echo", "fable", "onyx", "nova", "sage", "shimmer"].contains
      profile.openaiVoice &&
    profile.elevenlabs.modelId == "eleven_multilingual_v2" &&
    validIdentifier profile.elevenlabs.voiceId 128 &&
    ([settings.stability, settings.similarityBoost, settings.style].all fun v =>
      validRange (some v) 0 1) &&
    validRange (some settings.speed) slowestSpeed fastestSpeed

/-- `VoiceProfileRef::from`. -/
def VoiceProfile.toRef (profile : VoiceProfile) : VoiceProfileRef := ⟨profile.id, profile.revision⟩

end Waveform.Domain
