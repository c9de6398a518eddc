import Waveform.Domain.LanguageCase
import Waveform.Domain.Provider
import Waveform.Domain.ValueText
import Waveform.Library.Json

/-!
# The stored response as JSON

The JSON value that `response_body` holds has the tag `operation` and the fields of one of two
records. URLs, UUIDs, the language and the provider are text in it, and the expiry of held audio is
in whole seconds since 1970. A field without a value is left out of the record of a TTS operation,
and null in that of an STT operation; where a value is read, both mean none, and a language is
canonicalized again.

- `StoredObject`: the two records; `StoredObject.fromValue_toValue` and
  `StoredObject.valid_of_fromValue` say which of them are read back, and that every one that is read
  is.
-/

set_option autoImplicit false

namespace Waveform.Store

open Waveform.Domain Json

/-! ## The records -/

/-- The fields of `StoredResponse::Tts`. -/
structure StoredTts where
  voiceProfile : Option VoiceProfileRef
  requestId : RequestId
  fileUrl : Option String
  heldReason : Option String
  audioUrl : Option String
  heldUntil : Option Int
  provider : ProviderName
  durationMs : Nat

/-- The fields of `StoredResponse::Stt`. -/
structure StoredStt where
  requestId : RequestId
  transcript : String
  detectedLanguage : Option LanguageHint
  provider : ProviderName
  durationMs : Option Nat

/-- `StoredResponse`. -/
inductive StoredObject where
  | tts (stored : StoredTts)
  | stt (stored : StoredStt)

/-! ## How the fields are written -/

/-- `RequestId`, through `Uuid`. -/
def requestIdCodec : Codec RequestId :=
  .text (fun requestId => String.ofList requestId.asUuid.hyphenated)
    (fun text => (Uuid.parseStr? text).bind fun uuid =>
      if h : uuid ≠ Uuid.nil then some ⟨uuid, h⟩ else none)
    (fun requestId => requestId.asUuid < 2 ^ 128)
    (by
      intro requestId hwide
      rw [Uuid.parseStr?_hyphenated hwide, Option.bind_some, dif_pos requestId.nonNil])
    (by
      intro text requestId h
      obtain ⟨uuid, huuid, hnonNil⟩ := Option.bind_eq_some_iff.mp h
      split at hnonNil
      · obtain rfl := Option.some.inj hnonNil
        exact Uuid.parseStr?_lt huuid
      · cases hnonNil)

/-- `ProviderName`. -/
def providerCodec : Codec ProviderName :=
  .enumeration ProviderName.asStr ProviderName.ofStr? ProviderName.ofStr?_asStr

/-- `LanguageHint`, through `String`: it is canonicalized where it is read. -/
def languageCodec : Codec LanguageHint :=
  .text LanguageHint.asStr (fun text => (LanguageHint.fromStr? text).toOption)
    (fun hint => LanguageHint.fromStr? hint.asStr = .ok hint)
    (by
      intro hint hcanonical
      rw [hcanonical]
      rfl)
    (by
      intro text hint h
      cases hparsed : canonicalize text with
      | error error =>
          simp [LanguageHint.fromStr?, hparsed, Except.map, Except.toOption] at h
      | ok canonical =>
          simp only [LanguageHint.fromStr?, hparsed, Except.map, Except.toOption,
            Option.some.injEq] at h
          subst h
          rw [LanguageHint.fromStr?, canonicalize_stable hparsed]
          rfl)

/-- `i32`, `i64` and `u64`. -/
def revisionCodec : Codec Int := .signed 32
def secondsCodec : Codec Int := .signed 64
def millisCodec : Codec Nat := .unsigned 64

/-- The fields of `VoiceProfileRef`. -/
def voiceProfileFields : List String := ["id", "revision"]

/-- `VoiceProfileRef`. -/
def voiceProfileCodec : Codec VoiceProfileRef where
  encode profile :=
    .object (Codec.string.field "id" profile.id ++ revisionCodec.field "revision" profile.revision)
  decode json := do
    let entries ← json.fields voiceProfileFields
    let id ← Codec.string.required "id" entries
    let revision ← revisionCodec.required "revision" entries
    return ⟨id, revision⟩
  Valid profile := revisionCodec.Valid profile.revision
  decode_encode profile hvalid := by
    have hid : Codec.string.required "id" (Codec.string.field "id" profile.id ++
        revisionCodec.field "revision" profile.revision) = some profile.id := by
      apply Codec.required_of_lookup trivial
      simp [List.lookup_append]
    have hrevision : revisionCodec.required "revision" (Codec.string.field "id" profile.id ++
        revisionCodec.field "revision" profile.revision) = some profile.revision := by
      apply Codec.required_of_lookup hvalid
      simp [List.lookup_append]
    simp [Json.fields, hid, hrevision]
  valid_of_decode json profile h := by
    simp only [Option.bind_eq_bind, Option.bind_eq_some_iff, Option.pure_def] at h
    obtain ⟨entries, _, id, _, revision, hrevision, hprofile⟩ := h
    obtain rfl := Option.some.inj hprofile
    exact Codec.valid_of_required hrevision
  decode_null := rfl

/-! ## Reading and writing the records -/

namespace StoredTts

/-- The fields, in the order of the source. -/
def names : List String :=
  ["voice_profile", "request_id", "file_url", "held_reason", "audio_url", "held_until", "provider",
    "duration_ms"]

def entries (stored : StoredTts) : List (String × Json) :=
  voiceProfileCodec.skipped "voice_profile" stored.voiceProfile ++
    requestIdCodec.field "request_id" stored.requestId ++
    Codec.string.skipped "file_url" stored.fileUrl ++
    Codec.string.skipped "held_reason" stored.heldReason ++
    Codec.string.skipped "audio_url" stored.audioUrl ++
    secondsCodec.skipped "held_until" stored.heldUntil ++
    providerCodec.field "provider" stored.provider ++
    millisCodec.field "duration_ms" stored.durationMs

def read (entries : List (String × Json)) : Option StoredTts := do
  let voiceProfile ← voiceProfileCodec.optional "voice_profile" entries
  let requestId ← requestIdCodec.required "request_id" entries
  let fileUrl ← Codec.string.optional "file_url" entries
  let heldReason ← Codec.string.optional "held_reason" entries
  let audioUrl ← Codec.string.optional "audio_url" entries
  let heldUntil ← secondsCodec.optional "held_until" entries
  let provider ← providerCodec.required "provider" entries
  let durationMs ← millisCodec.required "duration_ms" entries
  return { voiceProfile, requestId, fileUrl, heldReason, audioUrl, heldUntil, provider, durationMs }

/-- The values that the types of the source have. -/
structure Valid (stored : StoredTts) : Prop where
  voiceProfile : ∀ profile ∈ stored.voiceProfile, voiceProfileCodec.Valid profile
  requestId : requestIdCodec.Valid stored.requestId
  heldUntil : ∀ seconds ∈ stored.heldUntil, secondsCodec.Valid seconds
  durationMs : millisCodec.Valid stored.durationMs

/-- Entries in which every field is found are read as the record. -/
theorem read_of_lookup {stored : StoredTts} (hvalid : stored.Valid) {found : List (String × Json)}
    (hfound : ∀ name ∈ names, found.lookup name = stored.entries.lookup name) :
    read found = some stored := by
  have hvoiceProfile : voiceProfileCodec.optional "voice_profile"
      found = some stored.voiceProfile := by
    apply Codec.optional_of_lookup hvalid.voiceProfile
    rw [hfound _ (by simp [names])]
    simp [entries, List.lookup_append]
  have hrequestId : requestIdCodec.required "request_id" found = some stored.requestId := by
    apply Codec.required_of_lookup hvalid.requestId
    rw [hfound _ (by simp [names])]
    simp [entries, List.lookup_append]
  have hfileUrl : Codec.string.optional "file_url" found = some stored.fileUrl := by
    apply Codec.optional_of_lookup fun _ _ => trivial
    rw [hfound _ (by simp [names])]
    simp [entries, List.lookup_append]
  have hheldReason : Codec.string.optional "held_reason" found = some stored.heldReason := by
    apply Codec.optional_of_lookup fun _ _ => trivial
    rw [hfound _ (by simp [names])]
    simp [entries, List.lookup_append]
  have haudioUrl : Codec.string.optional "audio_url" found = some stored.audioUrl := by
    apply Codec.optional_of_lookup fun _ _ => trivial
    rw [hfound _ (by simp [names])]
    simp [entries, List.lookup_append]
  have hheldUntil : secondsCodec.optional "held_until" found = some stored.heldUntil := by
    apply Codec.optional_of_lookup hvalid.heldUntil
    rw [hfound _ (by simp [names])]
    simp [entries, List.lookup_append]
  have hprovider : providerCodec.required "provider" found = some stored.provider := by
    apply Codec.required_of_lookup trivial
    rw [hfound _ (by simp [names])]
    simp [entries, List.lookup_append]
  have hdurationMs : millisCodec.required "duration_ms" found = some stored.durationMs := by
    apply Codec.required_of_lookup hvalid.durationMs
    rw [hfound _ (by simp [names])]
    simp [entries, List.lookup_append]
  simp [read, hvoiceProfile, hrequestId, hfileUrl, hheldReason, haudioUrl, hheldUntil, hprovider,
    hdurationMs]

theorem valid_of_read {found : List (String × Json)} {stored : StoredTts}
    (h : read found = some stored) : stored.Valid := by
  simp only [read, Option.bind_eq_bind, Option.bind_eq_some_iff, Option.pure_def] at h
  obtain ⟨_, hvoiceProfile, _, hrequestId, _, _, _, _, _, _, _, hheldUntil, _, _, _, hdurationMs,
    hstored⟩ := h
  obtain rfl := Option.some.inj hstored
  exact ⟨Codec.valid_of_optional hvoiceProfile, Codec.valid_of_required hrequestId,
    Codec.valid_of_optional hheldUntil, Codec.valid_of_required hdurationMs⟩

end StoredTts

namespace StoredStt

/-- The fields, in the order of the source. -/
def names : List String :=
  ["request_id", "transcript", "detected_language", "provider", "duration_ms"]

def entries (stored : StoredStt) : List (String × Json) :=
  requestIdCodec.field "request_id" stored.requestId ++
    Codec.string.field "transcript" stored.transcript ++
    languageCodec.nulled "detected_language" stored.detectedLanguage ++
    providerCodec.field "provider" stored.provider ++
    millisCodec.nulled "duration_ms" stored.durationMs

def read (entries : List (String × Json)) : Option StoredStt := do
  let requestId ← requestIdCodec.required "request_id" entries
  let transcript ← Codec.string.required "transcript" entries
  let detectedLanguage ← languageCodec.optional "detected_language" entries
  let provider ← providerCodec.required "provider" entries
  let durationMs ← millisCodec.optional "duration_ms" entries
  return { requestId, transcript, detectedLanguage, provider, durationMs }

/-- The values that the types of the source have. -/
structure Valid (stored : StoredStt) : Prop where
  requestId : requestIdCodec.Valid stored.requestId
  detectedLanguage : ∀ hint ∈ stored.detectedLanguage, languageCodec.Valid hint
  durationMs : ∀ millis ∈ stored.durationMs, millisCodec.Valid millis

theorem read_of_lookup {stored : StoredStt} (hvalid : stored.Valid) {found : List (String × Json)}
    (hfound : ∀ name ∈ names, found.lookup name = stored.entries.lookup name) :
    read found = some stored := by
  have hrequestId : requestIdCodec.required "request_id" found = some stored.requestId := by
    apply Codec.required_of_lookup hvalid.requestId
    rw [hfound _ (by simp [names])]
    simp [entries, List.lookup_append]
  have htranscript : Codec.string.required "transcript" found = some stored.transcript := by
    apply Codec.required_of_lookup trivial
    rw [hfound _ (by simp [names])]
    simp [entries, List.lookup_append]
  have hlanguage : languageCodec.optional "detected_language" found =
      some stored.detectedLanguage := by
    apply Codec.optional_of_lookup hvalid.detectedLanguage
    rw [hfound _ (by simp [names])]
    simp [entries, List.lookup_append]
  have hprovider : providerCodec.required "provider" found = some stored.provider := by
    apply Codec.required_of_lookup trivial
    rw [hfound _ (by simp [names])]
    simp [entries, List.lookup_append]
  have hdurationMs : millisCodec.optional "duration_ms" found = some stored.durationMs := by
    apply Codec.optional_of_lookup hvalid.durationMs
    rw [hfound _ (by simp [names])]
    simp [entries, List.lookup_append]
  simp [read, hrequestId, htranscript, hlanguage, hprovider, hdurationMs]

theorem valid_of_read {found : List (String × Json)} {stored : StoredStt}
    (h : read found = some stored) : stored.Valid := by
  simp only [read, Option.bind_eq_bind, Option.bind_eq_some_iff, Option.pure_def] at h
  obtain ⟨_, hrequestId, _, _, _, hlanguage, _, _, _, hdurationMs, hstored⟩ := h
  obtain rfl := Option.some.inj hstored
  exact ⟨Codec.valid_of_required hrequestId, Codec.valid_of_optional hlanguage,
    Codec.valid_of_optional hdurationMs⟩

end StoredStt

namespace StoredObject

/-- `serde_json::to_value`. -/
def toValue : StoredObject → Json
  | tts stored => .object (("operation", .string "tts") :: stored.entries)
  | stt stored => .object (("operation", .string "stt") :: stored.entries)

/-- `serde_json::from_value`. -/
def fromValue (json : Json) : Option StoredObject :=
  match json.tagged "operation" with
  | some (.string "tts", rest) => ((rest.fields StoredTts.names).bind StoredTts.read).map tts
  | some (.string "stt", rest) => ((rest.fields StoredStt.names).bind StoredStt.read).map stt
  | _ => none

/-- The values that the types of the source have. -/
def Valid : StoredObject → Prop
  | tts stored => stored.Valid
  | stt stored => stored.Valid

/-- **A record is read back from the value that it is written as.** -/
theorem fromValue_toValue {object : StoredObject} (h : object.Valid) :
    fromValue object.toValue = some object := by
  have hfound : ∀ {entries : List (String × Json)} {names : List String}, "operation" ∉ names →
      ∀ name ∈ names, (entries.filter fun entry => entry.1 ≠ "operation").lookup name =
        entries.lookup name := by
    intro entries names htag name hname
    exact lookup_filter_ne fun hsame => htag (hsame ▸ hname)
  cases object with
  | tts stored =>
      have hread := StoredTts.read_of_lookup h (hfound (by decide))
      simp only [toValue, fromValue, tagged_object_cons, Json.fields, Option.bind_some]
      rw [hread]
      rfl
  | stt stored =>
      have hread := StoredStt.read_of_lookup h (hfound (by decide))
      simp only [toValue, fromValue, tagged_object_cons, Json.fields, Option.bind_some]
      rw [hread]
      rfl

/-- Every record that is read has such values. -/
theorem valid_of_fromValue {json : Json} {object : StoredObject}
    (h : fromValue json = some object) :
    object.Valid := by
  unfold fromValue at h
  split at h
  · obtain ⟨stored, hread, rfl⟩ := Option.map_eq_some_iff.mp h
    obtain ⟨entries, _, hentries⟩ := Option.bind_eq_some_iff.mp hread
    exact StoredTts.valid_of_read hentries
  · obtain ⟨stored, hread, rfl⟩ := Option.map_eq_some_iff.mp h
    obtain ⟨entries, _, hentries⟩ := Option.bind_eq_some_iff.mp hread
    exact StoredStt.valid_of_read hentries
  · cases h

end StoredObject

end Waveform.Store
