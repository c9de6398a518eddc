import Waveform.Domain.Media
import Waveform.Domain.Provider

/-!
# Speech results

What a completed operation keeps: the transcript of an STT request, the voice profile of a TTS
request, and the first line shown in the job history.
-/

set_option autoImplicit false

namespace Waveform.Domain

/-- Validated, casing-normalized BCP 47 language hint. -/
structure LanguageHint where
  asStr : String
  deriving DecidableEq

/-- Voice profile identity recorded with results and history. -/
structure VoiceProfileRef where
  id : String
  revision : Int
  deriving DecidableEq

/-- Longest transcript accepted from a provider, in bytes. -/
def maxTranscriptBytes : Nat := 1024 * 1024

/-- Private transcript text within the byte ceiling. -/
structure Transcript where
  asStr : String
  bounded : asStr.utf8ByteSize ≤ maxTranscriptBytes
  deriving DecidableEq

theorem transcriptBounded_hello : "Hello".utf8ByteSize ≤ maxTranscriptBytes := by decide

/-- `Transcript::new`. -/
def Transcript.new? (value : String) : Option Transcript :=
  if h : value.utf8ByteSize ≤ maxTranscriptBytes then some ⟨value, h⟩ else none

@[simp] theorem Transcript.new?_asStr (transcript : Transcript) :
    Transcript.new? transcript.asStr = some transcript := by
  simp [Transcript.new?, transcript.bounded]

/-- Stable normalized STT response. -/
structure SttResult where
  requestId : RequestId
  transcript : Transcript
  detectedLanguage : Option LanguageHint
  provider : ProviderName
  duration : Option MediaDuration
  deriving DecidableEq

/-- `str::lines().next().unwrap_or_default()`: up to the first line feed, without the carriage
return that precedes that line feed. -/
def firstLineOf (text : String) : String :=
  let line := text.toList.takeWhile (· != '\n')
  if line.length < text.toList.length && line.getLast? == some '\r' then
    String.ofList line.dropLast
  else
    String.ofList line

/-- `chars().take(n).collect()`. -/
def takeChars (n : Nat) (text : String) : String :=
  String.ofList (text.toList.take n)

/-- Characters of the first line that the job history keeps. -/
def maxFirstLineChars : Nat := 512

end Waveform.Domain
