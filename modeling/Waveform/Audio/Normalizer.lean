import Waveform.Audio.Mp3Duration
import Waveform.Domain.MediaTypeText
import Waveform.Library.Dialogue
import Waveform.Service.Attempt

/-!
# Normalizing audio to MP3

`FfmpegAudioNormalizer` passes an MP3 on and has FFmpeg convert the rest. Raw PCM is described by an
artifact's specification; the description is written as a media type and read again where the
command is built. A process is what the model asks for; the bytes it answers with are its output
within the limit.

- `rawPcmSpecification_pcmMediaType`: the description that is read is the one that was written.
- `pcmDurationMs_eq`: the duration of whole frames, rounded up.
-/

set_option autoImplicit false

namespace Waveform.Audio

open Outcome
open Domain (trim eqIgnoreAsciiCase toAsciiLowercase pieces essence splitOnceEq parseUnsigned
  decimal MediaDuration
  NormalizedAudio AudioArtifact ProviderAudioFormat PcmSpecification maxProviderAudioBytes)
open Service (AudioNormalizationError)

/-- `AudioError`, with the error that measuring returns. -/
inductive NormalizerError where
  | emptyInput
  | inputTooLarge
  | processUnavailable
  | timeout
  | processFailed
  | outputTooLarge
  | mp3 (failure : AudioError)
  | invalidFormat
  | invalidConfiguration
  deriving DecidableEq

/-- `map_audio_error`. -/
def NormalizerError.mapped : NormalizerError → AudioNormalizationError
  | .emptyInput | .inputTooLarge | .outputTooLarge | .mp3 _ | .invalidFormat => .invalidAudio
  | .processUnavailable | .invalidConfiguration => .unavailable
  | .timeout => .timeout
  | .processFailed => .failed

/-! ## The description of raw PCM -/

/-- `RawPcmSpecification`. -/
structure RawPcmSpecification where
  sampleRateHz : Nat
  channels : Nat
  deriving DecidableEq

/-- One parameter of the media type; what is no number leaves its place empty. -/
def pcmParameter (found : Option Nat × Option Nat) (piece : List Char) :
    Except NormalizerError (Option Nat × Option Nat) :=
  match splitOnceEq (trim piece) with
  | none => .error .invalidFormat
  | some (name, text) =>
      if toAsciiLowercase (trim name) = ['r', 'a', 't', 'e']
        then .ok (parseUnsigned 32 (trim text), found.2)
      else if toAsciiLowercase (trim name) = ['c', 'h', 'a', 'n', 'n', 'e', 'l', 's'] then
        .ok (found.1, parseUnsigned 8 (trim text))
      else if toAsciiLowercase (trim name) = ['c', 'o', 'd', 'e', 'c'] then
        if eqIgnoreAsciiCase (trim text) "pcm" then .ok found else .error .invalidFormat
      else .ok found

/-- What the parameters have to hold: a rate of 8,000 to 384,000 and, one if not given, one to eight
channels. -/
def checkedPcm (found : Option Nat × Option Nat) :
    Except NormalizerError (Option RawPcmSpecification) :=
  if !(decide (1 ≤ found.2.getD 1) && decide (found.2.getD 1 ≤ 8)) then .error .invalidFormat
  else
    match found.1.filter fun rate => decide (8000 ≤ rate) && decide (rate ≤ 384000) with
    | none => .error .invalidFormat
    | some rate => .ok (some ⟨rate, found.2.getD 1⟩)

/-- `raw_pcm_specification`. -/
def rawPcmSpecification (mediaType : String) :
    Except NormalizerError (Option RawPcmSpecification) :=
  if !eqIgnoreAsciiCase (essence mediaType) "audio/l16" then .ok none
  else ((pieces mediaType).tail.foldlM pcmParameter (none, none)).bind checkedPcm

/-- `is_mp3_media_type`. -/
def isMp3MediaType (mediaType : String) : Bool :=
  eqIgnoreAsciiCase (essence mediaType) "audio/mpeg" ||
    eqIgnoreAsciiCase (essence mediaType) "audio/mp3"

/-! ## FFmpeg -/

/-- `AudioNormalizerConfig`, but for the timeout of the process. -/
structure AudioNormalizerConfig where
  ffmpegPath : String
  maxInputBytes : Nat
  maxOutputBytes : Nat
  bitrateKbps : Nat

/-- The program and its arguments. -/
structure FfmpegCommand where
  path : String
  args : List String
  deriving DecidableEq

/-- The input options that describe raw PCM. -/
def pcmArgs (pcm : RawPcmSpecification) : List String :=
  ["-f", "s16le", "-ar", String.ofList (decimal pcm.sampleRateHz), "-ac",
    String.ofList (decimal pcm.channels)]

/-- The arguments of the command. -/
def ffmpegArgs (pcm : Option RawPcmSpecification) (bitrateKbps : Nat) : List String :=
  ["-hide_banner", "-loglevel", "error", "-nostdin", "-protocol_whitelist", "pipe"] ++
    (pcm.map pcmArgs).getD [] ++
    ["-i", "pipe:0", "-map_metadata", "-1", "-vn", "-codec:a", "libmp3lame", "-b:a",
      String.ofList (decimal bitrateKbps) ++ "k", "-f", "mp3", "pipe:1"]

/-- `fixed_ffmpeg_command`. -/
def fixedFfmpegCommand (path mediaType : String) (bitrateKbps : Nat) :
    Except NormalizerError FfmpegCommand :=
  if !(decide (32 ≤ bitrateKbps) && decide (bitrateKbps ≤ 320)) then .error .invalidConfiguration
  else (rawPcmSpecification mediaType).map fun pcm => ⟨path, ffmpegArgs pcm bitrateKbps⟩

/-- A process of FFmpeg, with what it is given to read. -/
inductive FfmpegCall where
  | run (command : FfmpegCommand) (input : ByteSlice)

/-- The output, or why there is none: the process could not be started, ran too long, failed, or
wrote too much. -/
@[reducible] def FfmpegAnswer : FfmpegCall → Type
  | .run _ _ => Except NormalizerError ByteSlice

/-- A program that runs FFmpeg. -/
abbrev FfmpegProgram (α : Type) := Dialogue FfmpegCall FfmpegAnswer α

theorem mp3DurationMs_isSome (bytes : ByteSlice) : (mp3DurationMs bytes).isSome = true := by
  rcases mp3DurationMs_cases bytes with ⟨ms, h⟩ | h
  · rw [h]
    rfl
  · rw [h]
    rfl

/-- `mp3_duration_ms`, which ends. -/
def measuredMs (bytes : ByteSlice) : Outcome NormalizerError Nat :=
  match (mp3DurationMs bytes).get (mp3DurationMs_isSome bytes) with
  | .value ms => .value ms
  | .error failure => .error (.mp3 failure)
  | .panic reason => .panic reason

/-- `NormalizedAudio::new`, whose errors are all taken for an invalid MP3. -/
def normalizedAudio (bytes : ByteSlice) (ms : Nat) : Outcome NormalizerError NormalizedAudio :=
  if hempty : bytes.toList ≠ [] then
    if hlength : bytes.toList.length ≤ maxProviderAudioBytes
      then .value ⟨bytes.toList, ⟨ms⟩, hempty, hlength⟩
    else .error (.mp3 .invalidMp3)
  else .error (.mp3 .invalidMp3)

/-- `validate_input_size`. -/
def inputSizeError (config : AudioNormalizerConfig) (input : ByteSlice) : Option NormalizerError :=
  if input.toList.isEmpty then some .emptyInput
  else if config.maxInputBytes < input.toList.length then some .inputTooLarge
  else none

/-- What `normalize` makes of FFmpeg's output. -/
def ofOutput (exactDurationMs : Option Nat) : Except NormalizerError ByteSlice →
    Outcome NormalizerError NormalizedAudio
  | .error failure => .error failure
  | .ok output => measuredMs output >>= fun ms => normalizedAudio output (exactDurationMs.getD ms)

/-- `normalize`. -/
def normalize (config : AudioNormalizerConfig) (input : ByteSlice) (mediaType : String)
    (exactDurationMs : Option Nat) : FfmpegProgram (Outcome NormalizerError NormalizedAudio) :=
  match inputSizeError config input with
  | some failure => .done (.error failure)
  | none =>
      if isMp3MediaType mediaType then
        if config.maxOutputBytes < input.toList.length then .done (.error .outputTooLarge)
        else .done (measuredMs input >>= normalizedAudio input)
      else
        match fixedFfmpegCommand config.ffmpegPath mediaType config.bitrateKbps with
        | .error failure => .done (.error failure)
        | .ok command => .ask (.run command input) fun answer =>
            .done (ofOutput exactDurationMs answer)

/-! ## The normalizer's port -/

/-- `pcm_duration_ms`, for a length of a `usize` and `u32` parts. -/
def pcmDurationMs (byteLength sampleRateHz channels bitsPerSample : Nat) :
    Outcome AudioNormalizationError Nat := do
  let bytesPerSample ← okOr .invalidAudio <|
    (some (bitsPerSample / 8)).filter fun bytes => decide (0 < bytes) && bitsPerSample % 8 == 0
  let bytesPerFrame ← okOr .invalidAudio <| (checkedMul 32 channels bytesPerSample).filter
    fun bytes => decide (0 < bytes)
  let byteLength ← okOr .invalidAudio (tryFrom 128 byteLength)
  if byteLength % bytesPerFrame != 0 || sampleRateHz == 0 then .error .invalidAudio
  else do
    let sampleFrames ← div byteLength bytesPerFrame
    let numerator ← okOr .invalidAudio (checkedMul 128 sampleFrames 1000)
    let padding ← sub sampleRateHz 1
    let padded ← okOr .invalidAudio (checkedAdd 128 numerator padding)
    let milliseconds ← div padded sampleRateHz
    okOr .invalidAudio (tryFrom 64 milliseconds)

/-- The media type that describes raw PCM of 16 bits. -/
def pcmMediaType (sampleRateHz channels : Nat) : String :=
  String.ofList ("audio/L16;codec=pcm;rate=".toList ++ decimal sampleRateHz ++
    ";channels=".toList ++ decimal channels)

/-- `exact_duration_ms`: known for raw PCM only. -/
def exactDuration (artifact : AudioArtifact) : Outcome AudioNormalizationError (Option Nat) :=
  match artifact.format with
  | .linearPcm specification => do
      let ms ← pcmDurationMs artifact.bytes.length specification.sampleRateHz specification.channels
        specification.bitsPerSample
      .value (some ms)
  | .mp3 | .wav => .value none

/-- `media_type`. -/
def artifactMediaType (artifact : AudioArtifact) : Outcome AudioNormalizationError String :=
  match artifact.format with
  | .mp3 => .value "audio/mpeg"
  | .wav => .value "audio/wav"
  | .linearPcm specification =>
      if specification.bitsPerSample ≠ 16 then .error .invalidAudio
      else .value (pcmMediaType specification.sampleRateHz specification.channels)

/-- An artifact's bytes are a slice. -/
def artifactBytes (artifact : AudioArtifact) : ByteSlice where
  toList := artifact.bytes
  bounded := lt_of_le_of_lt artifact.bounded (by decide)

/-- `map_err(map_audio_error)`. -/
def mapError : Outcome NormalizerError NormalizedAudio →
    Outcome AudioNormalizationError NormalizedAudio
  | .value audio => .value audio
  | .error failure => .error failure.mapped
  | .panic reason => .panic reason

/-- `normalize_to_mp3`. -/
def normalizeToMp3 (config : AudioNormalizerConfig) (artifact : AudioArtifact) :
    FfmpegProgram (Outcome AudioNormalizationError NormalizedAudio) :=
  match exactDuration artifact >>= fun exact => artifactMediaType artifact >>= fun mediaType =>
    .value (exact, mediaType) with
  | .value (exact, mediaType) => (normalize config (artifactBytes artifact) mediaType exact).bind
      fun result =>
      .done (mapError result)
  | .error failure => .done (.error failure)
  | .panic reason => .done (.panic reason)

/-! ## The description that is read again -/

/-- The parts of the media type that describes raw PCM. -/
def pcmPieces (rate channels : Nat) : List (List Char) :=
  ["audio/L16".toList, "codec=pcm".toList, "rate".toList ++ '=' :: decimal rate,
    "channels".toList ++ '=' :: decimal channels]

theorem intercalate_pieces (a b c d rate channels : List Char) :
    [';'].intercalate [a, b, c ++ '=' :: rate, d ++ '=' :: channels] =
      a ++ [';'] ++ (b ++ [';'] ++ (c ++ ['='])) ++ rate ++ ([';'] ++ (d ++ ['='])) ++
        channels := by
  simp [List.intercalate]

theorem pieces_pcmMediaType (rate channels : Nat) :
    pieces (pcmMediaType rate channels) = pcmPieces rate channels := by
  have hhead : "audio/L16;codec=pcm;rate=".toList =
      "audio/L16".toList ++ [';'] ++ ("codec=pcm".toList ++ [';'] ++ ("rate".toList ++ ['='])) := by
        simp
  have htail : ";channels=".toList = [';'] ++ ("channels".toList ++ ['=']) := by decide
  have hchars : (pcmMediaType rate channels).toList =
      [';'].intercalate (pcmPieces rate channels) := by
    unfold pcmMediaType pcmPieces
    rw [String.toList_ofList, hhead, htail]
    exact (intercalate_pieces _ _ _ _ _ _).symm
  rw [pieces, hchars]
  refine List.splitOn_intercalate ';' ?_ (by rw [pcmPieces]; exact List.cons_ne_nil _ _)
  have hdigits (n : Nat) : ';' ∉ decimal n := fun h =>
    (Domain.digit_plain (Domain.isDigit_of_mem_decimal h)).2.1 rfl
  intro piece hpiece
  simp only [pcmPieces, List.mem_cons, List.not_mem_nil, or_false] at hpiece
  rcases hpiece with rfl | rfl | rfl | rfl
  · decide
  · decide
  · simp [hdigits rate]
  · simp [hdigits channels]

theorem decimal_plain {n : Nat} : ∀ c ∈ decimal n, Domain.isWhitespace c = false :=
  fun _ hc => (Domain.digit_plain (Domain.isDigit_of_mem_decimal hc)).1

theorem plain_of_all {text : List Char} (h : (text.all fun c => !Domain.isWhitespace c) = true) :
    ∀ c ∈ text, Domain.isWhitespace c = false := by
  intro c hc
  have hplain := List.all_eq_true.mp h c hc
  simpa using hplain

/-- A parameter whose name and value have no white space is taken apart at its sign. -/
theorem splitOnceEq_trim {name text : List Char} (hname : ∀ c ∈ name, Domain.isWhitespace c = false)
    (htext : ∀ c ∈ text, Domain.isWhitespace c = false) (hsign : '=' ∉ name) :
    splitOnceEq (trim (name ++ '=' :: text)) = some (name, text) ∧ trim name = name ∧
      trim text = text := by
  refine ⟨?_, Domain.trim_eq_self hname, Domain.trim_eq_self htext⟩
  rw [Domain.trim_eq_self, Domain.splitOnceEq_append hsign]
  intro c hc
  rcases List.mem_append.mp hc with hc | hc
  · exact hname c hc
  · rcases List.mem_cons.mp hc with rfl | hc
    · decide
    · exact htext c hc

theorem pcmParameter_codec (found : Option Nat × Option Nat) :
    pcmParameter found "codec=pcm".toList = .ok found := by
  have hsplit : splitOnceEq (trim "codec=pcm".toList) = some ("codec".toList, "pcm".toList) := by
    decide
  have hname : toAsciiLowercase (trim "codec".toList) = ['c', 'o', 'd', 'e', 'c'] := by decide
  have htext : eqIgnoreAsciiCase (trim "pcm".toList) "pcm" = true := by decide
  have hrate : ¬(['c', 'o', 'd', 'e', 'c'] = ['r', 'a', 't', 'e']) := by decide
  have hchannels : ¬(['c', 'o', 'd', 'e', 'c'] = ['c', 'h', 'a', 'n', 'n', 'e', 'l', 's']) := by
    decide
  simp only [pcmParameter, hsplit, hname, htext, if_neg hrate, if_neg hchannels, if_true]

theorem pcmParameter_rate (found : Option Nat × Option Nat) {rate : Nat} (h : rate < 2 ^ 32) :
    pcmParameter found ("rate".toList ++ '=' :: decimal rate) = .ok (some rate, found.2) := by
  obtain ⟨hsplit, -, htext⟩ := splitOnceEq_trim (@plain_of_all "rate".toList (by decide))
    (decimal_plain (n := rate)) (by decide)
  have hname : toAsciiLowercase (trim "rate".toList) = ['r', 'a', 't', 'e'] := by decide
  simp only [pcmParameter, hsplit, hname, htext, if_true, Domain.parseUnsigned_decimal h]

theorem pcmParameter_channels (found : Option Nat × Option Nat) {channels : Nat}
    (h : channels < 2 ^ 8) :
    pcmParameter found ("channels".toList ++ '=' :: decimal channels) =
      .ok (found.1, some channels) := by
  obtain ⟨hsplit, -, htext⟩ := splitOnceEq_trim (@plain_of_all "channels".toList (by decide))
    (decimal_plain (n := channels)) (by decide)
  have hname : toAsciiLowercase (trim "channels".toList) =
    ['c', 'h', 'a', 'n', 'n', 'e', 'l', 's'] := by decide
  have hne : ¬(['c', 'h', 'a', 'n', 'n', 'e', 'l', 's'] = ['r', 'a', 't', 'e']) := by decide
  simp only [pcmParameter, hsplit, hname, htext, if_neg hne, if_true,
    Domain.parseUnsigned_decimal h]

/-- **The description that is read is the one that was written**, where the rate is one FFmpeg is
asked for; any other is refused. -/
theorem rawPcmSpecification_pcmMediaType {rate channels : Nat} (hrate : rate < 2 ^ 32)
    (hchannels : 1 ≤ channels ∧ channels ≤ 8) :
    rawPcmSpecification (pcmMediaType rate channels) =
      if 8000 ≤ rate ∧ rate ≤ 384000 then .ok (some ⟨rate, channels⟩)
        else .error .invalidFormat := by
  obtain ⟨hone, height⟩ := hchannels
  have hessence : eqIgnoreAsciiCase (essence (pcmMediaType rate channels)) "audio/l16" = true := by
    rw [essence, pieces_pcmMediaType]
    show eqIgnoreAsciiCase (trim "audio/L16".toList) "audio/l16" = true
    decide
  have hfold : (pcmPieces rate channels).tail.foldlM pcmParameter (none, none) =
      .ok (some rate, some channels) := by
    show List.foldlM pcmParameter (none, none)
      ["codec=pcm".toList, "rate".toList ++ '=' :: decimal rate,
      "channels".toList ++ '=' :: decimal channels] = _
    rw [List.foldlM_cons, pcmParameter_codec]
    show List.foldlM pcmParameter (none, none) ["rate".toList ++ '=' :: decimal rate,
      "channels".toList ++ '=' :: decimal channels] = _
    rw [List.foldlM_cons, pcmParameter_rate _ hrate]
    show List.foldlM pcmParameter (some rate, none)
      ["channels".toList ++ '=' :: decimal channels] = _
    rw [List.foldlM_cons, pcmParameter_channels _ (by omega)]
    rfl
  rw [rawPcmSpecification, hessence, pieces_pcmMediaType, hfold]
  show checkedPcm (some rate, some channels) = _
  have hcount : (!(decide (1 ≤ channels) && decide (channels ≤ 8))) = false := by
    rw [decide_eq_true hone, decide_eq_true height]
    rfl
  simp only [checkedPcm, Option.getD_some, hcount, Bool.false_eq_true, if_false]
  by_cases hrange : 8000 ≤ rate ∧ rate ≤ 384000
  · rw [if_pos hrange, Option.filter_some, if_pos (by simp [hrange])]
  · rw [if_neg hrange, Option.filter_some, if_neg (by simpa using hrange)]

/-! ## The exact duration -/

/-- The duration of whole frames of 16 bits, rounded up; a partial frame is refused. No operation
leaves its range. -/
theorem pcmDurationMs_eq {byteLength rate channels : Nat}
    (hlength : byteLength ≤ maxProviderAudioBytes)
    (hrate : 0 < rate ∧ rate < 2 ^ 32) (hchannels : 0 < channels ∧ channels ≤ 8) :
    pcmDurationMs byteLength rate channels 16 =
      if byteLength % (channels * 2) = 0
        then .value ((1000 * (byteLength / (channels * 2))) ⌈/⌉ rate)
      else .error .invalidAudio := by
  obtain ⟨hrate, hwidth⟩ := hrate
  obtain ⟨hchannels, height⟩ := hchannels
  have hmax : byteLength < 2 ^ 40 := lt_of_le_of_lt hlength (by decide)
  have hframe : checkedMul 32 channels 2 = some (channels * 2) := checkedMul_eq (by omega)
  have hwhole : tryFrom 128 byteLength = some byteLength := tryFrom_eq (by omega)
  have hfilter : (some (channels * 2)).filter
      (fun bytes => decide (0 < bytes)) = some (channels * 2) := by
    rw [Option.filter_some, if_pos (decide_eq_true (by omega))]
  have hzero : (rate == 0) = false := beq_eq_false_iff_ne.mpr (by omega)
  unfold pcmDurationMs
  show (okOr AudioNormalizationError.invalidAudio
    ((checkedMul 32 channels 2).filter fun bytes => decide (0 < bytes)) >>= _) = _
  rw [hframe, hfilter, okOr, value_bind, hwhole, okOr, value_bind, hzero, Bool.or_false]
  by_cases hpartial : byteLength % (channels * 2) = 0
  · have hframes : byteLength / (channels * 2) ≤ byteLength := Nat.div_le_self _ _
    rw [if_neg (by simpa using hpartial), if_pos hpartial, div_eq (by omega), value_bind,
      checkedMul_eq (by omega), okOr, value_bind, sub_eq hrate, value_bind,
      checkedAdd_eq (by omega), okOr, value_bind,
      div_eq (by omega), value_bind]
    have hms : (byteLength / (channels * 2) * 1000 + (rate - 1)) / rate < 2 ^ 64 :=
      lt_of_le_of_lt (Nat.div_le_self _ _) (by omega)
    rw [tryFrom_eq hms, okOr, Nat.ceilDiv_eq_add_pred_div, Nat.mul_comm 1000,
      Nat.add_sub_assoc hrate]
  · rw [if_pos (by simpa using hpartial), if_neg hpartial]

/-! ## Runs on raw PCM -/

theorem measuredMs_safe (bytes : ByteSlice) : (measuredMs bytes).Safe := by
  unfold measuredMs
  rcases mp3DurationMs_cases bytes with ⟨ms, h⟩ | h
  · simp [h]
  · simp [h]

theorem normalizedAudio_safe (bytes : ByteSlice) (ms : Nat) : (normalizedAudio bytes ms).Safe := by
  unfold normalizedAudio
  split
  · split
    · trivial
    · trivial
  · trivial

theorem normalizedAudio_duration {bytes : ByteSlice} {ms : Nat} {audio : NormalizedAudio}
    (h : normalizedAudio bytes ms = .value audio) : audio.duration = ⟨ms⟩ := by
  unfold normalizedAudio at h
  split at h
  · split at h
    · cases h
      rfl
    · cases h
  · cases h

/-- What is made of FFmpeg's output: no panic, and a duration that is known beforehand is the one
reported. -/
theorem ofOutput_exact (ms : Nat) (answer : Except NormalizerError ByteSlice) :
    (mapError (ofOutput (some ms) answer)).Safe ∧
      ∀ audio, mapError (ofOutput (some ms) answer) = .value audio → audio.duration = ⟨ms⟩ := by
  cases answer with
  | error failure => exact ⟨trivial, fun _ h => by cases h⟩
  | ok output =>
      have hsafe : (ofOutput (some ms) (.ok output)).Safe :=
        bind_safe (measuredMs_safe output) fun _ _ => normalizedAudio_safe _ _
      cases hout : ofOutput (some ms) (.ok output) with
      | value audio =>
          refine ⟨trivial, fun audio' h => ?_⟩
          obtain rfl := Outcome.value.inj h
          obtain ⟨_, -, hnew⟩ := bind_eq_value_iff.mp (hout : measuredMs output >>= _ = _)
          exact normalizedAudio_duration hnew
      | error failure => exact ⟨trivial, fun _ h => by cases h⟩
      | panic reason =>
          rw [hout] at hsafe
          exact hsafe.elim

theorem isMp3MediaType_pcmMediaType (rate channels : Nat) :
    isMp3MediaType (pcmMediaType rate channels) = false := by
  rw [isMp3MediaType, essence, pieces_pcmMediaType]
  show (eqIgnoreAsciiCase (trim "audio/L16".toList) "audio/mpeg" ||
    eqIgnoreAsciiCase (trim "audio/L16".toList) "audio/mp3") = false
  decide

/-- The command for raw PCM names the rate and the channels it was described with, or there is
none. -/
theorem fixedFfmpegCommand_pcm {path : String} {rate channels bitrateKbps : Nat}
    (hrate : rate < 2 ^ 32)
    (hchannels : 1 ≤ channels ∧ channels ≤ 8) {command : FfmpegCommand}
    (h : fixedFfmpegCommand path (pcmMediaType rate channels) bitrateKbps = .ok command) :
    command = ⟨path, ffmpegArgs (some ⟨rate, channels⟩) bitrateKbps⟩ := by
  unfold fixedFfmpegCommand at h
  split at h
  · cases h
  · rw [rawPcmSpecification_pcmMediaType hrate hchannels] at h
    split at h
    · exact (Except.ok.inj h).symm
    · cases h

/-- Raw PCM of 16 bits is refused, or FFmpeg is run on it once, with the rate and the channels of
its description; what is made of the output has the duration of its frames. -/
theorem runs_normalizeToMp3_pcm {config : AudioNormalizerConfig} {artifact : AudioArtifact}
    {specification : PcmSpecification} (hformat : artifact.format = .linearPcm specification)
    (hbits : specification.bitsPerSample = 16) (hrate : specification.sampleRateHz < 2 ^ 32)
    {calls : List (Dialogue.Exchange FfmpegCall FfmpegAnswer)}
    {result : Outcome AudioNormalizationError NormalizedAudio}
    (h : Dialogue.Runs (normalizeToMp3 config artifact) calls result) :
    (calls = [] ∧ ∃ failure, result = .error failure) ∨
      ∃ frames answer, artifact.bytes.length = frames * (2 * specification.channels) ∧
        calls =
          [⟨.run ⟨config.ffmpegPath,
            ffmpegArgs (some ⟨specification.sampleRateHz, specification.channels⟩)
              config.bitrateKbps⟩ (artifactBytes artifact), answer⟩] ∧
        result = mapError (ofOutput (some ((1000 * frames) ⌈/⌉ specification.sampleRateHz))
          answer) := by
  obtain ⟨hpos, hchannels, height, -⟩ := specification.supported
  have hexact := pcmDurationMs_eq artifact.bounded ⟨hpos, hrate⟩ ⟨hchannels, height⟩
  have hmedia : artifactMediaType artifact =
      .value (pcmMediaType specification.sampleRateHz specification.channels) := by
    simp [artifactMediaType, hformat, hbits]
  by_cases hpartial : artifact.bytes.length % (specification.channels * 2) = 0
  · rw [if_pos hpartial] at hexact
    have hduration : exactDuration artifact = .value
        (some ((1000 * (artifact.bytes.length / (specification.channels * 2))) ⌈/⌉
          specification.sampleRateHz)) := by
      simp only [exactDuration, hformat, hbits, hexact, value_bind]
    rw [normalizeToMp3, hduration, value_bind, hmedia, value_bind] at h
    obtain ⟨calls₁, made, calls₂, rfl, hmade, hend⟩ := Dialogue.runs_bind_iff.mp h
    obtain ⟨rfl, rfl⟩ := Dialogue.runs_done_iff.mp hend
    rw [List.append_nil]
    unfold normalize at hmade
    cases hsize : inputSizeError config (artifactBytes artifact) with
    | some failure =>
        rw [hsize] at hmade
        obtain ⟨rfl, rfl⟩ := Dialogue.runs_done_iff.mp hmade
        exact .inl ⟨rfl, _, rfl⟩
    | none =>
        simp only [hsize, isMp3MediaType_pcmMediaType, Bool.false_eq_true, if_false] at hmade
        cases hcommand : fixedFfmpegCommand config.ffmpegPath
            (pcmMediaType specification.sampleRateHz specification.channels) config.bitrateKbps with
        | error failure =>
            rw [hcommand] at hmade
            obtain ⟨rfl, rfl⟩ := Dialogue.runs_done_iff.mp hmade
            exact .inl ⟨rfl, _, rfl⟩
        | ok command =>
            rw [hcommand] at hmade
            obtain ⟨answer, rest, rfl, hrest⟩ := Dialogue.runs_ask_iff.mp hmade
            obtain ⟨rfl, rfl⟩ := Dialogue.runs_done_iff.mp hrest
            obtain rfl := fixedFfmpegCommand_pcm hrate ⟨hchannels, height⟩ hcommand
            refine .inr ⟨_, answer, ?_, rfl, rfl⟩
            rw [Nat.mul_comm 2]
            exact (Nat.div_mul_cancel (Nat.dvd_of_mod_eq_zero hpartial)).symm
  · -- a partial frame has no duration, and FFmpeg is not run
    rw [if_neg hpartial] at hexact
    have hduration : exactDuration artifact = .error .invalidAudio := by
      simp only [exactDuration, hformat, hbits, hexact, error_bind]
    rw [normalizeToMp3, hduration, error_bind] at h
    obtain ⟨rfl, rfl⟩ := Dialogue.runs_done_iff.mp h
    exact .inl ⟨rfl, _, rfl⟩

end Waveform.Audio
