import Waveform.Audio.Normalizer
import Waveform.Providers.Runtime

/-!
# The audio a provider answers with

`audio_artifact` reads the media type of a provider's audio. For raw PCM it takes the rate and the
channels out of the parameters, and its description goes on to the normalizer, which writes it out
and reads it again.

- `audioArtifact_pcm`: the description of raw PCM that is accepted.
- `pcm_under_one_description`: it is the description FFmpeg is given, and the one the duration is
  counted under.
-/

set_option autoImplicit false

namespace Waveform.Providers

open Domain (trim eqIgnoreAsciiCase pieces essence splitOnceEq parseUnsigned AudioArtifact
  ProviderAudioFormat
  PcmSpecification maxProviderAudioBytes)
open Audio (AudioNormalizerConfig normalizeToMp3 artifactBytes ffmpegArgs)

/-- `PcmSpecification::new`. -/
def newPcmSpecification (sampleRateHz channels bitsPerSample : Nat) : Option PcmSpecification :=
  if h : 0 < sampleRateHz ∧ 0 < channels ∧ channels ≤ 8 ∧ bitsPerSample ∈ [8, 16, 24, 32] then
    some ⟨sampleRateHz, channels, bitsPerSample, h⟩
  else none

/-- `AudioArtifact::new`. -/
def newAudioArtifact (format : ProviderAudioFormat) (bytes : List UInt8) : Option AudioArtifact :=
  if hempty : bytes ≠ [] then
    if hlength : bytes.length ≤ maxProviderAudioBytes then some ⟨format, bytes, hempty, hlength⟩
      else none
  else none

/-- `media_parameter`: the first parameter of that name, in any case. -/
def mediaParameter (mediaType : String) (expected : String) : Option (List Char) :=
  (pieces mediaType).tail.findSome? fun parameter =>
    (splitOnceEq (trim parameter)).bind fun (name, text) =>
      if eqIgnoreAsciiCase (trim name) expected then some (trim text) else none

/-- `channels`: one if the parameter is missing, and nothing if it is no number. -/
def channelsParameter (mediaType : String) : Option Nat :=
  match mediaParameter mediaType "channels" with
  | none => some 1
  | some text => parseUnsigned 32 text

/-- The description of `audio/L16`. -/
def pcmFormat (mediaType : String) : Option ProviderAudioFormat := do
  let rate ← (mediaParameter mediaType "rate").bind (parseUnsigned 32)
  let channels ← channelsParameter mediaType
  let specification ← newPcmSpecification rate channels 16
  some (.linearPcm specification)

/-- The format of a media type. -/
def audioFormat (mediaType : String) : Option ProviderAudioFormat :=
  if eqIgnoreAsciiCase (essence mediaType) "audio/mpeg" || eqIgnoreAsciiCase (essence mediaType)
    "audio/mp3" then some .mp3
  else if eqIgnoreAsciiCase (essence mediaType) "audio/wav" || eqIgnoreAsciiCase (essence mediaType)
    "audio/x-wav" then
    some .wav
  else if eqIgnoreAsciiCase (essence mediaType) "audio/l16" then pcmFormat mediaType
  else none

/-- `audio_artifact`: every refusal is the one error. -/
def audioArtifact (bytes : List UInt8) (mediaType : String) : Except ProviderError AudioArtifact :=
  match (audioFormat mediaType).bind fun format => newAudioArtifact format bytes with
  | some artifact => .ok artifact
  | none => .error .invalidResponse

/-! ## Raw PCM that is accepted -/

theorem newAudioArtifact_eq {format : ProviderAudioFormat} {bytes : List UInt8}
    {artifact : AudioArtifact}
    (h : newAudioArtifact format bytes = some artifact) : artifact.format = format ∧
    artifact.bytes = bytes := by
  unfold newAudioArtifact at h
  split at h
  · split at h
    · cases h
      exact ⟨rfl, rfl⟩
    · cases h
  · cases h

theorem newPcmSpecification_eq {rate channels bits : Nat} {specification : PcmSpecification}
    (h : newPcmSpecification rate channels bits = some specification) :
    specification.sampleRateHz = rate ∧ specification.channels = channels ∧
      specification.bitsPerSample = bits := by
  unfold newPcmSpecification at h
  split at h
  · cases h
    exact ⟨rfl, rfl, rfl⟩
  · cases h

/-- A media type that is one essence in any case is no other. -/
theorem eqIgnoreAsciiCase_ne {chars : List Char} {text other : String}
    (h : eqIgnoreAsciiCase chars text = true)
    (hne : Domain.toAsciiLowercase text.toList ≠ Domain.toAsciiLowercase other.toList) :
    eqIgnoreAsciiCase chars other = false := by
  unfold eqIgnoreAsciiCase at h ⊢
  rw [beq_iff_eq] at h
  rw [beq_eq_false_iff_ne, h]
  exact hne

/-- What is accepted as `audio/L16`: 16 bits, and a rate of 32 bits. -/
theorem audioArtifact_pcm {bytes : List UInt8} {mediaType : String} {artifact : AudioArtifact}
    (hessence : eqIgnoreAsciiCase (essence mediaType) "audio/l16" = true)
    (h : audioArtifact bytes mediaType = .ok artifact) :
    artifact.bytes = bytes ∧ ∃ specification, artifact.format = .linearPcm specification ∧
      specification.bitsPerSample = 16 ∧ specification.sampleRateHz < 2 ^ 32 := by
  have hformat : audioFormat mediaType = pcmFormat mediaType := by
    rw [audioFormat, eqIgnoreAsciiCase_ne hessence (by decide),
      eqIgnoreAsciiCase_ne hessence (by decide),
      eqIgnoreAsciiCase_ne hessence (by decide), eqIgnoreAsciiCase_ne hessence (by decide),
      hessence]
    rfl
  unfold audioArtifact at h
  rw [hformat] at h
  cases hnew : (pcmFormat mediaType).bind fun format => newAudioArtifact format bytes with
  | none =>
      rw [hnew] at h
      cases h
  | some built =>
      rw [hnew] at h
      obtain rfl := Except.ok.inj h
      obtain ⟨format, hpcm, hbuilt⟩ := Option.bind_eq_some_iff.mp hnew
      obtain ⟨hsame, hbytes⟩ := newAudioArtifact_eq hbuilt
      obtain ⟨rate, hrate, hrest⟩ := Option.bind_eq_some_iff.mp hpcm
      obtain ⟨channels, -, hrest⟩ := Option.bind_eq_some_iff.mp hrest
      obtain ⟨specification, hspecification, hrest⟩ := Option.bind_eq_some_iff.mp hrest
      obtain ⟨hsampleRate, -, hbits⟩ := newPcmSpecification_eq hspecification
      obtain ⟨text, -, hparsed⟩ := Option.bind_eq_some_iff.mp hrate
      refine ⟨hbytes, specification, ?_, hbits, ?_⟩
      · rw [hsame]
        exact (Option.some.inj hrest).symm
      · rw [hsampleRate]
        exact Domain.parseUnsigned_lt hparsed

/-- Raw PCM is measured and decoded under one description. Whatever `audio/L16` a provider's audio
is accepted as, the normalizer refuses it or runs FFmpeg once, with the rate and the channels of the
artifact's specification; it never panics, and the duration it reports is that of a whole number of
frames, rounded up. -/
theorem pcm_under_one_description {bytes : List UInt8} {mediaType : String}
    {artifact : AudioArtifact}
    (config : AudioNormalizerConfig)
    (hessence : eqIgnoreAsciiCase (essence mediaType) "audio/l16" = true)
    (h : audioArtifact bytes mediaType = .ok artifact) :
    ∃ specification, artifact.format = .linearPcm specification ∧ specification.bitsPerSample = 16 ∧
      ∀ calls result, Dialogue.Runs (normalizeToMp3 config artifact) calls result →
        result.Safe ∧
        ((calls = [] ∧ ∃ failure, result = .error failure) ∨
          ∃ answer, calls = [⟨.run ⟨config.ffmpegPath,
            ffmpegArgs (some ⟨specification.sampleRateHz, specification.channels⟩)
              config.bitrateKbps⟩
            (artifactBytes artifact), answer⟩]) ∧
        ∀ audio, result = .value audio →
          ∃ frames, bytes.length = frames * (2 * specification.channels) ∧
            audio.duration = ⟨(1000 * frames) ⌈/⌉ specification.sampleRateHz⟩ := by
  obtain ⟨rfl, specification, hformat, hbits, hrate⟩ := audioArtifact_pcm hessence h
  refine ⟨specification, hformat, hbits, fun calls result hruns => ?_⟩
  rcases Audio.runs_normalizeToMp3_pcm hformat hbits hrate hruns with
    ⟨hcalls, failure, rfl⟩ | ⟨frames, answer, hframes, hcalls, rfl⟩
  · exact ⟨trivial, .inl ⟨hcalls, failure, rfl⟩, fun _ haudio => by cases haudio⟩
  · obtain ⟨hsafe, hduration⟩ :=
      Audio.ofOutput_exact ((1000 * frames) ⌈/⌉ specification.sampleRateHz) answer
    exact ⟨hsafe, .inr ⟨answer, hcalls⟩,
      fun audio haudio => ⟨frames, hframes, hduration audio haudio⟩⟩

/-- Two stereo frames of 24 kHz, described by a provider that writes its media types another way. -/
def stereoPcm : AudioArtifact :=
  ⟨.linearPcm ⟨24000, 2, 16, by decide⟩, [1, 2, 3, 4, 5, 6, 7, 8], by decide, by decide⟩

def stereoMediaType : String := "Audio/l16 ; Rate=24000 ;channels=+02"

def smallConfig : AudioNormalizerConfig := ⟨"ffmpeg", 1024, 1024, 128⟩

theorem pcm_under_one_description_sample :
    audioArtifact stereoPcm.bytes stereoMediaType = .ok stereoPcm ∧
    ∀ calls result, Dialogue.Runs (normalizeToMp3 smallConfig stereoPcm) calls result →
      (calls = [] ∧ ∃ failure, result = .error failure) ∨
        ∃ answer, calls =
          [⟨.run ⟨"ffmpeg", ffmpegArgs (some ⟨24000, 2⟩) 128⟩ (artifactBytes stereoPcm),
            answer⟩] := by
  refine ⟨rfl, fun calls result hruns => ?_⟩
  obtain ⟨specification, hformat, -, hall⟩ :=
    @pcm_under_one_description stereoPcm.bytes stereoMediaType stereoPcm smallConfig (by decide) rfl
  cases hformat
  exact (hall calls result hruns).2.1

end Waveform.Providers
