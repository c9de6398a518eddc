import Mathlib.Algebra.Order.Floor.Div
import Waveform.Library.LengthPrefixed
import Waveform.Library.Outcome

/-!
# The duration of an MP3

`mp3_duration_ms` walks the frames of a byte string. Offsets and lengths are `usize` at 64 bits; a
slice is never longer than `isize::MAX` bytes. `Mp3Layout` is what an MP3 is made of, in terms of
parts and not of a walk.
-/

set_option autoImplicit false

namespace Waveform.Audio

open Outcome
open LengthPrefixed (readBigEndian)

/-- The errors of the audio boundary that measuring returns. -/
inductive AudioError where
  | invalidMp3
  deriving DecidableEq, Repr

/-- A byte slice. -/
structure ByteSlice where
  toList : List UInt8
  bounded : toList.length < 2 ^ 63

/-- `b"..."`. -/
def ascii (text : String) : List UInt8 := text.toList.map fun c => UInt8.ofNat c.toNat

/-! ## Tags -/

/-- `id3v2_end`. -/
def id3v2End (bytes : List UInt8) : Outcome AudioError Nat :=
  if !(ascii "ID3").isPrefixOf bytes then .value 0
  else do
    let header ← okOr .invalidMp3 (getRange bytes 0 10)
    let sizeBytes ← slice header 6 10
    if sizeBytes.any fun byte => byte &&& 0x80 != 0 then .error .invalidMp3
    else do
      let size := sizeBytes.foldl (fun value byte => (value <<< 7) % 2 ^ 64 ||| byte.toNat) 0
      let flags ← index header 5
      let footer := if flags &&& 0x10 != 0 then 10 else 0
      okOr .invalidMp3 <|
        ((checkedAdd 64 10 size).bind fun value => checkedAdd 64 value footer).filter fun stop =>
          decide (stop ≤ bytes.length)

/-- `is_trailing_tag`. -/
def isTrailingTag (bytes : List UInt8) : Bool :=
  (bytes.length == 128 && (ascii "TAG").isPrefixOf bytes) || (ascii "APETAGEX").isPrefixOf bytes

/-! ## Frame headers -/

inductive MpegVersion where
  | one
  | two
  | twoPointFive
  deriving DecidableEq, Repr

inductive MpegLayer where
  | one
  | two
  | three
  deriving DecidableEq, Repr

structure FrameHeader where
  frameLen : Nat
  sampleRate : Nat
  samplesPerFrame : Nat
  deriving DecidableEq, Repr

/-- `sample_rate`. -/
def sampleRate (version : MpegVersion) (i : Nat) : Outcome AudioError Nat := do
  let base ← index [44100, 48000, 32000] i
  match version with
  | .one => .value base
  | .two => .value (base / 2)
  | .twoPointFive => .value (base / 4)

/-- The tables of `bitrate_kbps`. -/
def bitrateTable : MpegVersion → MpegLayer → List Nat
  | .one, .one => [0, 32, 64, 96, 128, 160, 192, 224, 256, 288, 320, 352, 384, 416, 448, 0]
  | .one, .two => [0, 32, 48, 56, 64, 80, 96, 112, 128, 160, 192, 224, 256, 320, 384, 0]
  | .one, .three => [0, 32, 40, 48, 56, 64, 80, 96, 112, 128, 160, 192, 224, 256, 320, 0]
  | _, .one => [0, 32, 48, 56, 64, 80, 96, 112, 128, 144, 160, 176, 192, 224, 256, 0]
  | _, _ => [0, 8, 16, 24, 32, 40, 48, 56, 64, 80, 96, 112, 128, 144, 160, 0]

/-- `bitrate_kbps`. -/
def bitrateKbps (version : MpegVersion) (layer : MpegLayer) (i : Nat) : Outcome AudioError Nat :=
  index (bitrateTable version layer) i

/-- The version of a header's two version bits. -/
def versionOf : Nat → Outcome AudioError MpegVersion
  | 0b11 => .value .one
  | 0b10 => .value .two
  | 0b00 => .value .twoPointFive
  | _ => .error .invalidMp3

/-- The layer of a header's two layer bits. -/
def layerOf : Nat → Outcome AudioError MpegLayer
  | 0b11 => .value .one
  | 0b10 => .value .two
  | 0b01 => .value .three
  | _ => .error .invalidMp3

/-- `(factor * bitrate / sample_rate) as usize + padding`. -/
def lengthFor (factor bitrate rate padding : Nat) : Outcome AudioError Nat := do
  let scaled ← mul 32 factor bitrate
  let whole ← div scaled rate
  add 64 whole padding

/-- The length and the samples of a frame. -/
def frameSize (version : MpegVersion) (layer : MpegLayer) (bitrate rate padding : Nat) :
    Outcome AudioError (Nat × Nat) :=
  match layer, version with
  | .one, _ => do
      let slots ← lengthFor 12 bitrate rate padding
      let frameLen ← mul 64 slots 4
      .value (frameLen, 384)
  | .two, _ => do
      let frameLen ← lengthFor 144 bitrate rate padding
      .value (frameLen, 1152)
  | .three, .one => do
      let frameLen ← lengthFor 144 bitrate rate padding
      .value (frameLen, 1152)
  | .three, _ => do
      let frameLen ← lengthFor 72 bitrate rate padding
      .value (frameLen, 576)

/-- `parse_frame_header` behind the layer. -/
def frameHeader (version : MpegVersion) (layer : MpegLayer)
    (bitrateIndex sampleRateIndex padding : Nat) : Outcome AudioError FrameHeader :=
  if layer ≠ .three then .error .invalidMp3
  else if bitrateIndex = 0 ∨ bitrateIndex = 15 ∨ sampleRateIndex = 3 then .error .invalidMp3
  else do
    let rate ← sampleRate version sampleRateIndex
    let kbps ← bitrateKbps version layer bitrateIndex
    let bitrate ← okOr .invalidMp3 (checkedMul 32 kbps 1000)
    let (frameLen, samplesPerFrame) ← frameSize version layer bitrate rate padding
    if frameLen < 4 then .error .invalidMp3 else .value ⟨frameLen, rate, samplesPerFrame⟩

/-- `parse_frame_header` behind the sync word. -/
def headerFields (raw : Nat) : Outcome AudioError FrameHeader := do
  let versionBits := (raw >>> 19) &&& 0b11
  let layerBits := (raw >>> 17) &&& 0b11
  let bitrateIndex := (raw >>> 12) &&& 0b1111
  let sampleRateIndex := (raw >>> 10) &&& 0b11
  let padding := (raw >>> 9) &&& 1
  let version ← versionOf versionBits
  let layer ← layerOf layerBits
  frameHeader version layer bitrateIndex sampleRateIndex padding

/-- `parse_frame_header`. -/
def parseFrameHeader (bytes : List UInt8) (offset : Nat) : Outcome AudioError FrameHeader := do
  let headerBytes ← okOr .invalidMp3 (getRange bytes offset (saturatingAdd 64 offset 4))
  let b0 ← index headerBytes 0
  let b1 ← index headerBytes 1
  let b2 ← index headerBytes 2
  let b3 ← index headerBytes 3
  let raw := readBigEndian [b0, b1, b2, b3]
  if raw &&& 0xffe00000 ≠ 0xffe00000 then .error .invalidMp3 else headerFields raw

/-! ## The walk over the frames -/

/-- The variables of the loop. -/
structure WalkState where
  offset : Nat
  frameCount : Nat := 0
  totalSamples : Nat := 0
  streamShape : Option (Nat × Nat) := none

/-- A turn of the loop of `mp3_duration_ms`. -/
def walkTurn (bytes : List UInt8) (s : WalkState) : Outcome AudioError (Turn WalkState) :=
  if s.offset < bytes.length then do
    let rest ← slice bytes s.offset bytes.length
    if isTrailingTag rest then .value (.exit s)
    else do
      let header ← parseFrameHeader bytes s.offset
      let stop ← okOr .invalidMp3 (checkedAdd 64 s.offset header.frameLen)
      if bytes.length < stop then .error .invalidMp3
      else
        let shape := (header.sampleRate, header.samplesPerFrame)
        if s.streamShape.any (· ≠ shape) then .error .invalidMp3
        else do
          let totalSamples ← okOr .invalidMp3
            (checkedAdd 128 s.totalSamples header.samplesPerFrame)
          .value (.again ⟨stop, saturatingAdd 64 s.frameCount 1, totalSamples, some shape⟩)
  else .value (.exit s)

/-- What `mp3_duration_ms` does once the loop has ended. -/
def walkedDuration (s : WalkState) : Outcome AudioError Nat :=
  if s.frameCount = 0 then .error .invalidMp3
  else do
    let (rate, _) ← okOr .invalidMp3 s.streamShape
    let numerator ← okOr .invalidMp3 (checkedMul 128 s.totalSamples 1000)
    let padding ← sub rate 1
    let padded ← okOr .invalidMp3 (checkedAdd 128 numerator padding)
    let millis ← div padded rate
    okOr .invalidMp3 (tryFrom 64 millis)

/-- `mp3_duration_ms`, whose loop is given a turn for each byte and one more. -/
def mp3DurationMs (bytes : ByteSlice) : Option (Outcome AudioError Nat) :=
  match id3v2End bytes.toList with
  | .value offset =>
      (loop (walkTurn bytes.toList) (bytes.toList.length + 1) { offset }).map (· >>= walkedDuration)
  | .error e => some (.error e)
  | .panic reason => some (.panic reason)

/-! ## What an MP3 is made of -/

/-- Samples per second. -/
def layer3Rate (version : MpegVersion) (rateIndex : Nat) : Nat :=
  let base := [44100, 48000, 32000].getD rateIndex 0
  match version with
  | .one => base
  | .two => base / 2
  | .twoPointFive => base / 4

/-- Samples in a frame. -/
def layer3Samples : MpegVersion → Nat
  | .one => 1152
  | _ => 576

/-- Bytes in a frame: its share of the bitrate, and the padding. -/
def layer3Length (version : MpegVersion) (bitrateIndex rateIndex padding : Nat) : Nat :=
  let bitrate := (bitrateTable version .three).getD bitrateIndex 0 * 1000
  layer3Samples version / 8 * bitrate / layer3Rate version rateIndex + padding

/-- The fields of a Layer III frame header. -/
structure Layer3Header where
  version : MpegVersion
  bitrateIndex : Nat
  rateIndex : Nat
  padding : Nat
  bitrateValid : 1 ≤ bitrateIndex ∧ bitrateIndex ≤ 14
  rateValid : rateIndex ≤ 2
  paddingValid : padding ≤ 1

namespace Layer3Header

/-- Bytes in the frame. -/
def length (header : Layer3Header) : Nat :=
  layer3Length header.version header.bitrateIndex header.rateIndex header.padding

/-- The sample rate and the samples in a frame. -/
def shape (header : Layer3Header) : Nat × Nat :=
  (layer3Rate header.version header.rateIndex, layer3Samples header.version)

/-- The four bytes of a frame header, read as a number. -/
structure SpelledBy (header : Layer3Header) (raw : Nat) : Prop where
  sync : raw / 2 ^ 21 = 2 ^ 11 - 1
  version : versionOf (raw / 2 ^ 19 % 2 ^ 2) = .value header.version
  layer : raw / 2 ^ 17 % 2 ^ 2 = 0b01
  bitrateIndex : raw / 2 ^ 12 % 2 ^ 4 = header.bitrateIndex
  rateIndex : raw / 2 ^ 10 % 2 ^ 2 = header.rateIndex
  padding : raw / 2 ^ 9 % 2 = header.padding

end Layer3Header

/-- A whole frame with this header. -/
structure IsFrame (header : Layer3Header) (frame : List UInt8) : Prop where
  spelled : header.SpelledBy (readBigEndian (frame.take 4))
  whole : frame.length = header.length

/-- The number that a synchsafe size spells. -/
def synchsafeSize (size : List UInt8) : Nat :=
  size.foldl (fun value byte => value * 128 + byte.toNat) 0

/-- An ID3v2 tag: its header, and a body as long as the synchsafe size says and the footer flag
adds. -/
structure Id3v2Tag where
  major : UInt8
  revision : UInt8
  flags : UInt8
  size : List UInt8
  body : List UInt8
  sizeLength : size.length = 4
  synchsafe : ∀ byte ∈ size, byte.toNat < 128
  bodyLength : body.length = synchsafeSize size + flags.toNat / 16 % 2 * 10

/-- The bytes of a tag. -/
def Id3v2Tag.bytes (tag : Id3v2Tag) : List UInt8 :=
  ascii "ID3" ++ ([tag.major, tag.revision, tag.flags] ++ (tag.size ++ tag.body))

/-- What may follow the last frame: nothing, an ID3v1 tag, or an APE tag and anything. -/
def IsTrailer (bytes : List UInt8) : Prop :=
  bytes = [] ∨ (bytes.length = 128 ∧ ascii "TAG" <+: bytes) ∨ ascii "APETAGEX" <+: bytes

/-- The parts of an MP3: the tag in front of the frames, one or more whole frames of one shape, and
what follows them. -/
structure Mp3Layout where
  tag : Option Id3v2Tag
  shape : Nat × Nat
  frames : List (List UInt8)
  trailer : List UInt8
  nonEmpty : frames ≠ []
  uniform : ∀ frame ∈ frames, ∃ header : Layer3Header, IsFrame header frame ∧ header.shape = shape
  ended : IsTrailer trailer

namespace Mp3Layout

/-- The bytes of the tag, when there is one. -/
def tagBytes (layout : Mp3Layout) : List UInt8 := (layout.tag.map Id3v2Tag.bytes).getD []

/-- The bytes of the parts. -/
def bytes (layout : Mp3Layout) : List UInt8 :=
  layout.tagBytes ++ (layout.frames.flatten ++ layout.trailer)

/-- The samples of all the frames. -/
def totalSamples (layout : Mp3Layout) : Nat := layout.frames.length * layout.shape.2

/-- The duration in whole milliseconds, rounded up once. -/
def durationMs (layout : Mp3Layout) : Nat := (1000 * layout.totalSamples) ⌈/⌉ layout.shape.1

end Mp3Layout

end Waveform.Audio
