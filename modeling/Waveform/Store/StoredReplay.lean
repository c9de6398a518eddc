import Waveform.Api.ResponseBody
import Waveform.Store.ResponseCodec
import Waveform.Store.StoredJson

/-!
# What a replay answers

`encode_response` writes a completed operation as the JSON value of `response_body`, and
`decode_response` reads it back for a replay.

- `encodeObject_eq`, `decodeObject_written`: this is the codec of the speech stores, with URLs and
  seconds written out.
- `storedResponse_replays`: the replay answers the same body exactly when no expiry of held audio
  has a fraction of a second; and what is decoded is encoded and decoded to the same.
-/

set_option autoImplicit false

namespace Waveform.Store

open Waveform.Domain Waveform.Api

section Codec

variable (urls : UrlText)

/-! ## Encoding -/

/-- `unix_timestamp`. -/
def unixSeconds (instant : Nat) : Int := unixTimestamp instant - unixEpoch

/-- `encode_response`, up to the record. -/
def encodeObject : CompletedSpeechOperation → Except IdempotencyStoreError StoredObject
  | .tts result =>
      if result.provider ∈ ttsProviderChain then
        let (fileUrl, heldReason, audioUrl, heldUntil) :
            Option String × Option String × Option String × Option Int :=
          match result.storage with
          | .briefcase permanentUrl => (some (urls.asStr permanentUrl.url), none, none, none)
          | .held reason audioUrl expiresAt =>
              (none, some reason.asStr, some (urls.asStr audioUrl), some (unixSeconds expiresAt))
        .ok <| .tts
          { voiceProfile := result.voiceProfile
            requestId := result.requestId
            fileUrl, heldReason, audioUrl, heldUntil
            provider := result.provider
            durationMs := result.duration.asMillis }
      else .error .invalidRecord
  | .stt result =>
      if result.provider ∈ sttProviderChain then
        .ok <| .stt
          { requestId := result.requestId
            transcript := result.transcript.asStr
            detectedLanguage := result.detectedLanguage
            provider := result.provider
            durationMs := result.duration.map MediaDuration.asMillis }
      else .error .invalidRecord

/-- `encode_response`. -/
def encodeValue (response : CompletedSpeechOperation) : Except IdempotencyStoreError Json :=
  (encodeObject urls response).map StoredObject.toValue

/-! ## Decoding -/

/-- `OffsetDateTime::from_unix_timestamp`. -/
def fromUnixSeconds? (seconds : Int) : Option Nat :=
  if -(unixEpoch : Int) ≤ seconds ∧ seconds < (yearTenThousand : Int) - unixEpoch then
    some (fromUnixTimestamp (seconds + unixEpoch).toNat)
  else none

/-- The storage that the four fields describe: of Briefcase, or held, and nothing between. -/
def readStorage : Option String → Option String → Option String → Option Int →
    Except IdempotencyStoreError AudioStorage
  | some fileUrl, none, none, none =>
      match (urls.parse fileUrl).bind BriefcaseFileUrl.new? with
      | some permanentUrl => .ok (.briefcase permanentUrl)
      | none => .error .invalidRecord
  | none, some reason, some audioUrl, some heldUntil =>
      match HeldReason.fromStr? reason, urls.parse audioUrl, fromUnixSeconds? heldUntil with
      | some reason, some audioUrl, some expiresAt => .ok (.held reason audioUrl expiresAt)
      | _, _, _ => .error .invalidRecord
  | _, _, _, _ => .error .invalidRecord

/-- `decode_response`, from the record. -/
def decodeObject : StoredObject → Except IdempotencyStoreError CompletedSpeechOperation
  | .tts stored =>
      if stored.provider ∈ ttsProviderChain then
        (readStorage urls stored.fileUrl stored.heldReason stored.audioUrl stored.heldUntil).map
          fun storage =>
            .tts ⟨stored.voiceProfile, stored.requestId, storage, stored.provider,
              ⟨stored.durationMs⟩⟩
      else .error .invalidRecord
  | .stt stored =>
      if stored.provider ∈ sttProviderChain then
        match Transcript.new? stored.transcript with
        | some transcript =>
            .ok (.stt ⟨stored.requestId, transcript, stored.detectedLanguage, stored.provider,
              stored.durationMs.map MediaDuration.mk⟩)
        | none => .error .invalidRecord
      else .error .invalidRecord

/-- `decode_response`. -/
def decodeValue (value : Json) : Except IdempotencyStoreError CompletedSpeechOperation :=
  match StoredObject.fromValue value with
  | some object => decodeObject urls object
  | none => .error .invalidRecord

/-! ## The codec of the speech stores -/

/-- The record with its URLs and seconds written out. -/
def written : StoredResponse → StoredObject
  | .tts voiceProfile requestId fileUrl heldReason audioUrl heldUntil provider durationMs =>
      .tts
        { voiceProfile, requestId, heldReason, provider, durationMs
          fileUrl := fileUrl.map urls.asStr
          audioUrl := audioUrl.map urls.asStr
          heldUntil := heldUntil.map fun (seconds : Nat) => (seconds : Int) - unixEpoch }
  | .stt requestId transcript detectedLanguage provider durationMs =>
      .stt { requestId, transcript, detectedLanguage, provider, durationMs }

theorem encodeObject_eq (response : CompletedSpeechOperation) :
    encodeObject urls response = (encodeResponse response).map (written urls) := by
  cases response with
  | tts result =>
      obtain ⟨voiceProfile, requestId, storage, provider, duration⟩ := result
      by_cases hprovider : provider ∈ ttsProviderChain
      · cases storage with
        | briefcase permanentUrl =>
            simp [encodeObject, encodeResponse, hprovider, Except.map, written]
        | held reason audioUrl expiresAt =>
            simp [encodeObject, encodeResponse, hprovider, Except.map, written, unixSeconds]
      · simp [encodeObject, encodeResponse, hprovider, Except.map]
  | stt result =>
      by_cases hprovider : result.provider ∈ sttProviderChain
      · simp [encodeObject, encodeResponse, hprovider, Except.map, written]
      · simp [encodeObject, encodeResponse, hprovider, Except.map]

/-- A URL that was read from text. -/
def Parsed (url : Url) : Prop := ∃ text, urls.parse text = some url

variable {urls}

theorem Parsed.parse_asStr {url : Url} (h : Parsed urls url) :
    urls.parse (urls.asStr url) = some url := by
  obtain ⟨text, htext⟩ := h
  exact urls.parse_asStr text url htext

/-- Whole seconds within the instants of the type are read back. -/
theorem fromUnixSeconds?_sub {seconds : Nat} (h : seconds < yearTenThousand) :
    fromUnixSeconds? ((seconds : Int) - unixEpoch) = some (fromUnixTimestamp seconds) := by
  unfold fromUnixSeconds?
  rw [if_pos (by omega)]
  congr 2
  omega

/-- The storage of a record whose URLs and seconds are written out. -/
theorem readStorage_written {fileUrl audioUrl : Option Url} {heldReason : Option String}
    {heldUntil : Option Nat} (hfile : ∀ url ∈ fileUrl, Parsed urls url)
    (haudio : ∀ url ∈ audioUrl, Parsed urls url)
    (hseconds : ∀ seconds ∈ heldUntil, seconds < yearTenThousand) :
    readStorage urls (fileUrl.map urls.asStr) heldReason (audioUrl.map urls.asStr)
        (heldUntil.map fun (seconds : Nat) => (seconds : Int) - unixEpoch) =
      decodeStorage fileUrl heldReason audioUrl heldUntil := by
  cases fileUrl with
  | some fileUrl =>
      have hparse := (hfile fileUrl rfl).parse_asStr
      cases heldReason with
      | some heldReason => rfl
      | none =>
          cases audioUrl with
          | some audioUrl => rfl
          | none =>
              cases heldUntil with
              | some heldUntil => rfl
              | none =>
                  cases hnew : BriefcaseFileUrl.new? fileUrl with
                  | none =>
                      simp only [Option.map_some, Option.map_none, readStorage, hparse,
                        Option.bind_some, decodeStorage, hnew]
                  | some permanentUrl =>
                      simp only [Option.map_some, Option.map_none, readStorage, hparse,
                        Option.bind_some, decodeStorage, hnew]
  | none =>
      cases heldReason with
      | none => rfl
      | some heldReason =>
          cases audioUrl with
          | none => rfl
          | some audioUrl =>
              have hparse := (haudio audioUrl rfl).parse_asStr
              cases heldUntil with
              | none => rfl
              | some heldUntil =>
                  have hinstant := fromUnixSeconds?_sub (hseconds heldUntil rfl)
                  simp only [Option.map_some, Option.map_none, readStorage, hparse, hinstant,
                    decodeStorage]
                  cases HeldReason.fromStr? heldReason with
                  | none => rfl
                  | some reason => rfl

/-- The URLs of a stored response were read from text, and its expiry is an instant of the type. -/
def Readable (urls : UrlText) : StoredResponse → Prop
  | .tts _ _ fileUrl _ audioUrl heldUntil _ _ =>
      (∀ url ∈ fileUrl, Parsed urls url) ∧ (∀ url ∈ audioUrl, Parsed urls url) ∧
        ∀ seconds ∈ heldUntil, seconds < yearTenThousand
  | .stt _ _ _ _ _ => True

theorem decodeObject_written {stored : StoredResponse} (h : Readable urls stored) :
    decodeObject urls (written urls stored) = decodeResponse stored := by
  cases stored with
  | tts voiceProfile requestId fileUrl heldReason audioUrl heldUntil provider durationMs =>
      obtain ⟨hfile, haudio, hseconds⟩ := h
      simp only [written, decodeObject, decodeResponse, readStorage_written hfile haudio hseconds]
  | stt requestId transcript detectedLanguage provider durationMs => rfl

/-! ## What the values of the source are -/

/-- Storage as the source's types have it: URLs that were read, and an instant of the type. -/
def StorageInTypes (urls : UrlText) : AudioStorage → Prop
  | .briefcase permanentUrl => Parsed urls permanentUrl.url
  | .held _ audioUrl expiresAt =>
      Parsed urls audioUrl ∧ expiresAt < yearTenThousand * microsPerSecond

/-- A completed operation as the source's types have it, by a provider of the operation's chain. -/
inductive InTypes (urls : UrlText) : CompletedSpeechOperation → Prop where
  | tts {result : CompletedTtsOperation} (provider : result.provider ∈ ttsProviderChain)
      (voiceProfile : ∀ profile ∈ result.voiceProfile, voiceProfileCodec.Valid profile)
      (requestId : requestIdCodec.Valid result.requestId)
      (storage : StorageInTypes urls result.storage)
      (duration : millisCodec.Valid result.duration.asMillis) : InTypes urls (.tts result)
  | stt {result : SttResult} (provider : result.provider ∈ sttProviderChain)
      (requestId : requestIdCodec.Valid result.requestId)
      (detectedLanguage : ∀ hint ∈ result.detectedLanguage, languageCodec.Valid hint)
      (duration : ∀ duration ∈ result.duration, millisCodec.Valid duration.asMillis) :
      InTypes urls (.stt result)

/-- Such an operation is encoded, to a record that is read back. -/
theorem InTypes.encodeObject {response : CompletedSpeechOperation} (h : InTypes urls response) :
    ∃ object, encodeObject urls response = .ok object ∧ object.Valid ∧
      decodeObject urls object = .ok (replayedResponse response) := by
  have hencoded : ∃ stored, encodeResponse response = .ok stored ∧ Readable urls stored ∧
      (written urls stored).Valid := by
    cases h with
    | @tts result provider voiceProfile requestId storage duration =>
        cases hstorage : result.storage with
        | briefcase permanentUrl =>
            rw [hstorage] at storage
            refine ⟨_, by simp only [encodeResponse, provider, if_true, hstorage]; rfl, ?_, ?_⟩
            · exact ⟨by simpa [StorageInTypes] using storage, by simp, by simp⟩
            · exact ⟨voiceProfile, requestId, by simp, duration⟩
        | held reason audioUrl expiresAt =>
            rw [hstorage] at storage
            have hseconds : unixTimestamp expiresAt < yearTenThousand := by
              have hlt := storage.2
              unfold unixTimestamp
              exact Nat.div_lt_of_lt_mul (Nat.mul_comm yearTenThousand microsPerSecond ▸ hlt)
            refine ⟨_, by simp only [encodeResponse, provider, if_true, hstorage]; rfl, ?_, ?_⟩
            · exact ⟨by simp, by simpa using storage.1, by simpa using hseconds⟩
            · refine ⟨voiceProfile, requestId, ?_, duration⟩
              simp only [Option.map_some, Option.mem_some]
              rintro seconds rfl
              change -2 ^ 63 ≤ _ ∧ _ < 2 ^ 63
              unfold yearTenThousand at hseconds
              unfold unixEpoch
              omega
    | @stt result provider requestId detectedLanguage duration =>
        refine ⟨_, by simp only [encodeResponse, provider, if_true]; rfl, ?_, ?_⟩
        · trivial
        · refine ⟨requestId, detectedLanguage, ?_⟩
          intro millis hmillis
          obtain ⟨measured, hmeasured, rfl⟩ := Option.map_eq_some_iff.mp hmillis
          exact duration measured hmeasured
  obtain ⟨stored, hstored, hreadable, hvalid⟩ := hencoded
  refine ⟨written urls stored, ?_, hvalid, ?_⟩
  · rw [encodeObject_eq, hstored]
    rfl
  · rw [decodeObject_written hreadable]
    exact decodeResponse_encodeResponse hstored

theorem InTypes.encodeValue {response : CompletedSpeechOperation} (h : InTypes urls response) :
    ∃ value, encodeValue urls response = .ok value ∧
      decodeValue urls value = .ok (replayedResponse response) := by
  obtain ⟨object, hencode, hvalid, hdecode⟩ := h.encodeObject
  refine ⟨object.toValue, ?_, ?_⟩
  · rw [Store.encodeValue, hencode]
    rfl
  · rw [decodeValue, StoredObject.fromValue_toValue hvalid]
    exact hdecode

/-- Seconds that are read are an instant of the type, without a fraction. -/
theorem fromUnixSeconds?_eq_some {seconds : Int} {instant : Nat}
    (h : fromUnixSeconds? seconds = some instant) :
    instant < yearTenThousand * microsPerSecond ∧
      fromUnixTimestamp (unixTimestamp instant) = instant := by
  obtain ⟨hrange, hinstant⟩ := Option.ite_none_right_eq_some.mp h
  obtain rfl := Option.some.inj hinstant
  have hpos : 0 < microsPerSecond := by decide
  constructor
  · exact Nat.mul_lt_mul_of_pos_right (by omega) hpos
  · rw [fromUnixTimestamp, unixTimestamp, fromUnixTimestamp, Nat.mul_div_cancel _ hpos]

/-- Storage that is read was read from URLs, and its expiry has no fraction. -/
theorem storageInTypes_of_readStorage {fileUrl heldReason audioUrl : Option String}
    {heldUntil : Option Int} {storage : AudioStorage}
    (h : readStorage urls fileUrl heldReason audioUrl heldUntil = .ok storage) :
    StorageInTypes urls storage ∧ storedStorage storage = storage := by
  unfold readStorage at h
  split at h
  · rename_i fileUrl
    cases hfile : (urls.parse fileUrl).bind BriefcaseFileUrl.new? with
    | none => simp [hfile] at h
    | some permanentUrl =>
        simp only [hfile, Except.ok.injEq] at h
        subst h
        obtain ⟨url, hparse, hnew⟩ := Option.bind_eq_some_iff.mp hfile
        obtain ⟨hvalid, hsame⟩ := Option.dite_none_right_eq_some.mp hnew
        obtain rfl := Option.some.inj hsame
        exact ⟨⟨fileUrl, hparse⟩, rfl⟩
  · rename_i reason audioUrl heldUntil
    split at h
    · rename_i reason url instant _ hparse hinstant
      obtain rfl := Except.ok.inj h
      obtain ⟨hrange, hwhole⟩ := fromUnixSeconds?_eq_some hinstant
      exact ⟨⟨⟨audioUrl, hparse⟩, hrange⟩, congrArg (AudioStorage.held reason url) hwhole⟩
    · cases h
  · cases h

/-- What is decoded is such an operation. -/
theorem inTypes_of_decodeObject {object : StoredObject} (hvalid : object.Valid)
    {response : CompletedSpeechOperation} (h : decodeObject urls object = .ok response) :
    InTypes urls response ∧ replayedResponse response = response := by
  cases object with
  | tts stored =>
      simp only [decodeObject] at h
      split at h
      · rename_i hprovider
        cases hstorage : readStorage urls stored.fileUrl stored.heldReason stored.audioUrl
            stored.heldUntil with
        | error error =>
            rw [hstorage] at h
            cases h
        | ok storage =>
            rw [hstorage] at h
            obtain rfl := Except.ok.inj h
            obtain ⟨htypes, hwhole⟩ := storageInTypes_of_readStorage hstorage
            refine ⟨.tts hprovider hvalid.voiceProfile hvalid.requestId htypes hvalid.durationMs,
              ?_⟩
            simp only [replayedResponse, hwhole]
      · cases h
  | stt stored =>
      simp only [decodeObject] at h
      split at h
      · rename_i hprovider
        split at h
        · obtain rfl := Except.ok.inj h
          refine ⟨.stt hprovider hvalid.requestId hvalid.detectedLanguage ?_, rfl⟩
          intro duration hduration
          obtain ⟨millis, hmillis, rfl⟩ := Option.map_eq_some_iff.mp hduration
          exact hvalid.durationMs millis hmillis
        · cases h
      · cases h

/-! ## The body of a replay -/

/-- No expiry of held audio has a fraction of a second. -/
def WholeSecond : CompletedSpeechOperation → Prop
  | .tts result =>
      match result.storage with
      | .briefcase _ => True
      | .held _ _ expiresAt => expiresAt % microsPerSecond = 0
  | .stt _ => True

/-- What the service can build: its held audio expires in a year that RFC 3339 has. -/
structure Built (urls : UrlText) (response : CompletedSpeechOperation) : Prop where
  inTypes : InTypes urls response
  year : ∀ result reason audioUrl expiresAt, response = .tts result →
    result.storage = .held reason audioUrl expiresAt → yearZero * microsPerSecond ≤ expiresAt

theorem fromUnixTimestamp_unixTimestamp (instant : Nat) :
    fromUnixTimestamp (unixTimestamp instant) = instant ↔ instant % microsPerSecond = 0 := by
  have hdivision := Nat.div_add_mod' instant microsPerSecond
  unfold fromUnixTimestamp unixTimestamp
  omega

/-- **The body of a replay is that of the first answer exactly when no expiry has a fraction.** -/
theorem responseBody_replayed_iff (rfc3339 : Rfc3339) {response : CompletedSpeechOperation}
    (h : Built urls response) :
    responseBody urls rfc3339 (replayedResponse response) = responseBody urls rfc3339 response ↔
      WholeSecond response := by
  cases response with
  | stt result => exact iff_of_true rfl trivial
  | tts result =>
      obtain ⟨voiceProfile, requestId, storage, provider, duration⟩ := result
      cases storage with
      | briefcase permanentUrl => exact iff_of_true rfl trivial
      | held reason audioUrl expiresAt =>
          change _ ↔ expiresAt % microsPerSecond = 0
          rw [← fromUnixTimestamp_unixTimestamp]
          constructor
          · intro hbody
            have hexpires : rfc3339.format (fromUnixTimestamp (unixTimestamp expiresAt)) =
                rfc3339.format expiresAt := by
              have hstorage := congrArg (fun body => match body with
                | ResponseBody.tts body => body.storage.expiresAt
                | ResponseBody.stt _ => none) hbody
              exact hstorage
            have hrange : expiresAt < yearTenThousand * microsPerSecond := by
              cases h.inTypes with
              | tts _ _ _ storage _ => exact storage.2
            obtain ⟨text, htext⟩ := Option.isSome_iff_exists.mp
              (rfc3339.defined expiresAt (h.year _ _ _ _ rfl rfl) hrange)
            exact rfc3339.distinct _ _ text (hexpires.trans htext) htext
          · intro hwhole
            simp only [replayedResponse, storedStorage, hwhole]

/-- The record describes one kind of storage. -/
def OneStorage : StoredObject → Prop
  | .tts stored =>
      stored.fileUrl.isSome = true ∧ stored.heldReason = none ∧ stored.audioUrl = none ∧
          stored.heldUntil = none ∨
        stored.fileUrl = none ∧ stored.heldReason.isSome = true ∧ stored.audioUrl.isSome = true ∧
          stored.heldUntil.isSome = true
  | .stt _ => True

/-- The provider is one of the operation's chain. -/
def ProviderOfChain : CompletedSpeechOperation → Prop
  | .tts result => result.provider ∈ ttsProviderChain
  | .stt result => result.provider ∈ sttProviderChain

theorem oneStorage_of_decodeObject {object : StoredObject} {response : CompletedSpeechOperation}
    (h : decodeObject urls object = .ok response) : OneStorage object := by
  cases object with
  | stt stored => trivial
  | tts stored =>
      obtain ⟨voiceProfile, requestId, fileUrl, heldReason, audioUrl, heldUntil, provider,
        durationMs⟩ := stored
      simp only [decodeObject] at h
      split at h
      · cases hstorage : readStorage urls fileUrl heldReason audioUrl heldUntil with
        | error error =>
            simp only [hstorage] at h
            cases h
        | ok storage =>
            unfold readStorage at hstorage
            split at hstorage
            · exact .inl ⟨rfl, rfl, rfl, rfl⟩
            · exact .inr ⟨rfl, rfl, rfl, rfl⟩
            · cases hstorage
      · cases h

variable (urls)

/-- **The stored response.** What the service can build is encoded and decoded, and the replay
answers the same body exactly when no expiry of held audio has a fraction of a second. And whatever
is decoded describes one kind of storage and a provider of the operation's chain, and is encoded and
decoded to the same. -/
theorem storedResponse_replays (rfc3339 : Rfc3339) :
    (∀ response, Built urls response → ∃ value replayed, encodeValue urls response = .ok value ∧
      decodeValue urls value = .ok replayed ∧
      (responseBody urls rfc3339 replayed = responseBody urls rfc3339 response ↔
        WholeSecond response)) ∧
    ∀ value response, decodeValue urls value = .ok response →
      (∃ object, StoredObject.fromValue value = some object ∧ OneStorage object) ∧
      ProviderOfChain response ∧
      ∃ value', encodeValue urls response = .ok value' ∧
        decodeValue urls value' = .ok response := by
  constructor
  · intro response h
    obtain ⟨value, hencode, hdecode⟩ := h.inTypes.encodeValue
    exact ⟨value, _, hencode, hdecode, responseBody_replayed_iff rfc3339 h⟩
  · intro value response h
    cases hobject : StoredObject.fromValue value with
    | none =>
        rw [decodeValue, hobject] at h
        cases h
    | some object =>
        rw [decodeValue, hobject] at h
        obtain ⟨htypes, hwhole⟩ := inTypes_of_decodeObject
          (StoredObject.valid_of_fromValue hobject) h
        obtain ⟨value', hencode, hdecode⟩ := htypes.encodeValue
        rw [hwhole] at hdecode
        refine ⟨⟨object, rfl, oneStorage_of_decodeObject h⟩, ?_, value', hencode, hdecode⟩
        cases htypes with
        | tts provider _ _ _ _ => exact provider
        | stt provider _ _ _ => exact provider

end Codec

/-! ## Audio that is held for a fraction of a second more -/

/-- Where the audio is served. -/
def heldAudioUrl : Url :=
  ⟨"https", "", none, some (.domain "waveform.example.test"), none,
    "/api/v1/audio/00000000-0000-0000-0000-00000000002b", none, none⟩

/-- The URL as text. -/
def heldAudioText : String :=
  "https://waveform.example.test/api/v1/audio/00000000-0000-0000-0000-00000000002b"

/-- This URL alone. -/
def heldAudioUrls : UrlText where
  parse text := if text = heldAudioText then some heldAudioUrl else none
  asStr _ := heldAudioText
  parse_asStr text url h := by
    obtain ⟨_, hsame⟩ := Option.ite_none_right_eq_some.mp h
    rw [if_pos rfl, hsame]

theorem heldAudioUrl_parsed : Parsed heldAudioUrls heldAudioUrl :=
  ⟨heldAudioText, by simp [heldAudioUrls]⟩

/-- 17 March 2030, 17:46:40. -/
def marchInstant : Nat := (1900000000 + unixEpoch) * microsPerSecond

/-- Half a second later. -/
def halfSecondLater : Nat := marchInstant + 500000

/-- The two instants as RFC 3339 writes them, and others by as many marks as they have
microseconds. -/
def marchText (instant : Nat) : String :=
  if instant = marchInstant then "2030-03-17T17:46:40Z"
  else if instant = halfSecondLater then "2030-03-17T17:46:40.5Z"
  else String.ofList (List.replicate (instant + 1) 'x')

theorem marchText_injective {instant other : Nat} (h : marchText instant = marchText other) :
    instant = other := by
  have hmark : ∀ {instant : Nat} {text : String}, text.toList.head? = some '2' →
      String.ofList (List.replicate (instant + 1) 'x') ≠ text := by
    intro instant text hhead hsame
    rw [← hsame, String.toList_ofList, List.replicate_succ] at hhead
    simp at hhead
  unfold marchText at h
  split at h
  · split at h
    · omega
    · split at h
      · simp at h
      · exact absurd h.symm (hmark rfl)
  · split at h
    · split at h
      · simp at h
      · split at h
        · omega
        · exact absurd h.symm (hmark rfl)
    · split at h
      · exact absurd h (hmark rfl)
      · split at h
        · exact absurd h (hmark rfl)
        · have hlength := congrArg (fun text => text.toList.length) h
          simp only [String.toList_ofList, List.length_replicate] at hlength
          omega

def marchRfc3339 : Rfc3339 where
  format instant := some (marchText instant)
  defined _ _ _ := rfl
  distinct _ _ _ h h' :=
    marchText_injective ((Option.some.inj h).trans (Option.some.inj h').symm)

/-- Audio held for an app that called for the account. -/
def heldUntil (expiresAt : Nat) : CompletedSpeechOperation :=
  .tts ⟨none, ⟨43, by decide⟩, .held .delegatedCall heldAudioUrl expiresAt, .openAi, ⟨900⟩⟩

theorem heldUntil_built {expiresAt : Nat} (hyear : yearZero * microsPerSecond ≤ expiresAt)
    (hrange : expiresAt < yearTenThousand * microsPerSecond) :
    Built heldAudioUrls (heldUntil expiresAt) where
  inTypes := by
    refine .tts ?_ (by simp) ?_ ⟨heldAudioUrl_parsed, hrange⟩ ?_
    · change ProviderName.openAi ∈ ttsProviderChain
      decide
    · change (43 : Nat) < 2 ^ 128
      decide
    · change (900 : Nat) < 2 ^ 64
      decide
  year result reason audioUrl expires hresponse hstorage := by
    obtain rfl := CompletedSpeechOperation.tts.inj hresponse
    cases hstorage
    exact hyear

/-- Audio held for whole seconds is answered the same. -/
theorem storedResponse_replays_march :
    ∃ value replayed, encodeValue heldAudioUrls (heldUntil marchInstant) = .ok value ∧
      decodeValue heldAudioUrls value = .ok replayed ∧
      responseBody heldAudioUrls marchRfc3339 replayed =
        responseBody heldAudioUrls marchRfc3339 (heldUntil marchInstant) := by
  have hbuilt : Built heldAudioUrls (heldUntil marchInstant) :=
    heldUntil_built (by decide) (by decide)
  obtain ⟨value, replayed, hencode, hdecode, hbody⟩ :=
    (storedResponse_replays heldAudioUrls marchRfc3339).1 (heldUntil marchInstant) hbuilt
  have hwhole : marchInstant % microsPerSecond = 0 := by decide
  exact ⟨value, replayed, hencode, hdecode, hbody.mpr hwhole⟩

/-- **A replay does not always answer the same body.** The first answer says half a second more. -/
theorem not_forall_sameBody :
    ¬ ∀ (urls : UrlText) (rfc3339 : Rfc3339) (response : CompletedSpeechOperation),
      Built urls response → ∃ value replayed, encodeValue urls response = .ok value ∧
        decodeValue urls value = .ok replayed ∧
        responseBody urls rfc3339 replayed = responseBody urls rfc3339 response := by
  intro hall
  have hbuilt : Built heldAudioUrls (heldUntil halfSecondLater) :=
    heldUntil_built (by decide) (by decide)
  obtain ⟨value, replayed, hencode, hdecode, hbody⟩ :=
    hall heldAudioUrls marchRfc3339 (heldUntil halfSecondLater) hbuilt
  obtain ⟨value', hencode', hdecode'⟩ := hbuilt.inTypes.encodeValue
  obtain rfl := Except.ok.inj (hencode.symm.trans hencode')
  obtain rfl := Except.ok.inj (hdecode.symm.trans hdecode')
  have hwhole : halfSecondLater % microsPerSecond = 0 :=
    (responseBody_replayed_iff marchRfc3339 hbuilt).mp hbody
  exact absurd hwhole (by decide)

end Waveform.Store
