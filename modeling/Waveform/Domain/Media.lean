import Mathlib.Algebra.Group.Nat.Defs
import Waveform.Domain.Identity

/-!
# Media values

Durations, URLs and the place a generated MP3 ended up. `BriefcaseFileUrl` carries the check that
`BriefcaseFileUrl::new` makes, so a value of the type is a URL that the constructor accepts again.
-/

set_option autoImplicit false

namespace Waveform.Domain

/-- Measured audio duration in milliseconds. -/
structure MediaDuration where
  asMillis : Nat
  deriving DecidableEq

/-- `url::Host`. -/
inductive UrlHost where
  | domain (name : String)
  | ipv4 (address : Nat)
  | ipv6 (address : Nat)
  deriving DecidableEq

/-- The parts of a parsed URL that the program reads. Writing a URL out and parsing it again gives
the same parts. -/
structure Url where
  scheme : String
  username : String
  password : Option String
  host : Option UrlHost
  port : Option Nat
  path : String
  query : Option String
  fragment : Option String
  deriving DecidableEq

/-- `is_loopback_host`: hosts that never leave this machine. -/
def Url.isLoopbackHost (url : Url) : Bool :=
  match url.host with
  | some (.domain name) =>
      let domain := ((name.toList.reverse.dropWhile (· == '.')).reverse).map Char.toLower
      domain == "localhost".toList || ".localhost".toList.isSuffixOf domain
  | some (.ipv4 address) => address / 2 ^ 24 == 127
  | some (.ipv6 address) => address == 1
  | none => false

/-- `validate_https_url`: HTTPS, or HTTP on this machine, a host, and no credentials. -/
def Url.validHttps (url : Url) : Bool :=
  (url.scheme == "https" || (url.scheme == "http" && url.isLoopbackHost)) && url.host.isSome &&
    url.username == "" && url.password.isNone

/-- The checks of `BriefcaseFileUrl::new`. -/
def Url.validPermanent (url : Url) : Bool :=
  url.validHttps && url.query.isNone && url.fragment.isNone

/-- Stable authenticated Briefcase URL. -/
structure BriefcaseFileUrl where
  url : Url
  valid : url.validPermanent = true
  deriving DecidableEq

/-- `BriefcaseFileUrl::new`. -/
def BriefcaseFileUrl.new? (url : Url) : Option BriefcaseFileUrl :=
  if h : url.validPermanent = true then some ⟨url, h⟩ else none

@[simp] theorem BriefcaseFileUrl.new?_url (file : BriefcaseFileUrl) :
    BriefcaseFileUrl.new? file.url = some file := by
  simp [BriefcaseFileUrl.new?, file.valid]

/-- Why Waveform kept generated audio itself instead of storing it in Briefcase. -/
inductive HeldReason where
  | delegatedCall
  | storageNotAuthorized
  | briefcaseRefused
  | briefcaseUnavailable
  | briefcaseTimeout
  | briefcaseContractUnavailable
  deriving DecidableEq, Repr

namespace HeldReason

/-- Stable wire label. -/
def asStr : HeldReason → String
  | delegatedCall => "delegated_call"
  | storageNotAuthorized => "storage_not_authorized"
  | briefcaseRefused => "briefcase_refused"
  | briefcaseUnavailable => "briefcase_unavailable"
  | briefcaseTimeout => "briefcase_timeout"
  | briefcaseContractUnavailable => "briefcase_contract_unavailable"

/-- The list that `HeldReason::from_str` searches. -/
def all : List HeldReason :=
  [delegatedCall, storageNotAuthorized, briefcaseRefused, briefcaseUnavailable, briefcaseTimeout,
    briefcaseContractUnavailable]

/-- `HeldReason::from_str`: the first reason with this label. -/
def fromStr? (value : String) : Option HeldReason :=
  all.find? fun reason => reason.asStr == value

@[simp] theorem fromStr?_asStr (reason : HeldReason) : fromStr? reason.asStr = some reason := by
  cases reason <;> decide

end HeldReason

/-- Where a generated MP3 ended up. -/
inductive AudioStorage where
  | briefcase (permanentUrl : BriefcaseFileUrl)
  | held (reason : HeldReason) (audioUrl : Url) (expiresAt : Nat)
  deriving DecidableEq

/-- Safe filename for generated TTS audio. -/
structure GeneratedAudioFileName where
  value : String
  deriving DecidableEq

/-- A number in a base, padded with zeros to a width that holds it. -/
def fixedDigits (base : Nat) : Nat → Nat → List Char
  | 0, _ => []
  | width + 1, n => fixedDigits base width (n / base) ++ [Nat.digitChar (n % base)]

@[simp] theorem fixedDigits_length (base width n : Nat) :
    (fixedDigits base width n).length = width := by
  induction width generalizing n with
  | zero => rfl
  | succ width ih => simp [fixedDigits, ih]

/-- The hyphenated lower-case form of a UUID. -/
def Uuid.hyphenated (uuid : Uuid) : List Char :=
  let digits := fixedDigits 16 32 uuid
  digits.take 8 ++ '-' :: (digits.drop 8).take 4 ++ '-' :: (digits.drop 12).take 4 ++
    '-' :: (digits.drop 16).take 4 ++ '-' :: digits.drop 20

/-- The calendar parts of an instant in UTC. -/
structure UtcDateTime where
  year : Nat
  month : Nat
  day : Nat
  hour : Nat
  minute : Nat
  second : Nat
  bounds : year ≤ 9999 ∧ 1 ≤ month ∧ month ≤ 12 ∧ 1 ≤ day ∧ day ≤ 31 ∧ hour ≤ 23 ∧ minute ≤ 59 ∧
    second ≤ 59
  deriving DecidableEq

/-- The start of a year. -/
def UtcDateTime.newYear : UtcDateTime := ⟨2026, 1, 1, 0, 0, 0, by decide⟩

/-- The characters of a generated file name. -/
def generatedFileName (utc : UtcDateTime) (requestId : RequestId) : List Char :=
  ['t', 't', 's', '_'] ++ fixedDigits 10 4 utc.year ++ fixedDigits 10 2 utc.month ++
    fixedDigits 10 2 utc.day ++ ['_'] ++ fixedDigits 10 2 utc.hour ++ fixedDigits 10 2 utc.minute ++
    fixedDigits 10 2 utc.second ++ ['_'] ++ requestId.asUuid.hyphenated ++ ['.', 'm', 'p', '3']

/-- `GeneratedAudioFileName::for_request`; the instant is given by its parts in UTC. -/
def GeneratedAudioFileName.forRequest (utc : UtcDateTime) (requestId : RequestId) :
    GeneratedAudioFileName :=
  ⟨String.ofList (generatedFileName utc requestId)⟩

/-- Largest audio a provider may return or Waveform may hold. -/
def maxProviderAudioBytes : Nat := 25 * 1024 * 1024

/-- A validated MP3: nonempty bytes up to the provider limit, and a measured duration. -/
structure NormalizedAudio where
  bytes : List UInt8
  duration : MediaDuration
  nonEmpty : bytes ≠ []
  bounded : bytes.length ≤ maxProviderAudioBytes
  deriving DecidableEq

/-- Media types accepted for transcription. -/
inductive SourceMediaType where
  | mpeg
  | wav
  | flac
  | ogg
  | webM
  | mp4
  | aac
  | m4a
  | mp4Video
  | mpegVideo
  | webMVideo
  deriving DecidableEq

/-- `MAX_SOURCE_MEDIA_BYTES`. -/
def maxSourceMediaBytes : Nat := 25 * 1024 * 1024

/-- Deployment media-size limit. -/
structure MediaSizeLimit where
  get : Nat
  bounds : 0 < get ∧ get ≤ maxSourceMediaBytes
  deriving DecidableEq

/-- Authorized, bounded media loaded from Briefcase for transcription. -/
structure SourceMedia where
  mediaType : SourceMediaType
  bytes : List UInt8
  nonEmpty : bytes ≠ []
  bounded : bytes.length ≤ maxSourceMediaBytes
  deriving DecidableEq

end Waveform.Domain
