import Waveform.Domain.Bytes
import Waveform.Domain.Idempotency
import Waveform.Domain.TtsOptions
import Waveform.Library.LengthPrefixed

/-!
# Speech requests and their digests

The digest of a request binds what the caller sent to its idempotency key: HMAC-SHA-256 over the
fields, each after its length, and over the digest so far where optional controls are added. The MAC
and the JSON form of the controls come from other packages and are parameters.

- `forTts_inj_order`, `forStt_inj_order`: without a collision, requests that differ in their
  provider order only have different digests.
-/

set_option autoImplicit false

namespace Waveform.Domain

open LengthPrefixed (lengthPrefixed bigEndian)

/-! ## Requests -/

/-- `MAX_TTS_TEXT_CHARACTERS`. -/
def maxTtsTextCharacters : Nat := 4096

/-- Validated private TTS input text. -/
structure SpeechText where
  asStr : String
  notBlank : isBlank asStr = false
  bounded : asStr.toList.length ≤ maxTtsTextCharacters
  deriving DecidableEq

theorem notBlank_hello : isBlank "Hello" = false := by decide

theorem bounded_hello : "Hello".toList.length ≤ maxTtsTextCharacters := by decide

/-- `character_count`. -/
def SpeechText.characterCount (text : SpeechText) : Nat := text.asStr.toList.length

/-- What the deserializer of `ProviderApiKeys` accepts. -/
def validApiKey (key : String) : Bool :=
  !key.isEmpty && decide (key.utf8ByteSize ≤ 16384) && key.toList.all isAsciiGraphic

/-- Request-local provider credentials. -/
structure ProviderApiKeys where
  get : ProviderName → Option String
  valid : ∀ provider, (get provider).all validApiKey = true

namespace ProviderApiKeys

/-- The names in the order that `iter` goes through them. -/
def names : List ProviderName := [.gemini, .elevenLabs, .openAi, .deepgram]

theorem mem_names (provider : ProviderName) : provider ∈ names := by
  cases provider <;> decide

/-- `iter`. -/
def iter (keys : ProviderApiKeys) : List (ProviderName × String) :=
  names.filterMap fun name => (keys.get name).map fun key => (name, key)

/-- `is_empty`. -/
def isEmpty (keys : ProviderApiKeys) : Bool := keys.iter.isEmpty

/-- `supports_only`. -/
def supportsOnly (keys : ProviderApiKeys) (providers : List ProviderName) : Bool :=
  keys.iter.all fun entry => providers.contains entry.1

/-- A request without keys. -/
def empty : ProviderApiKeys := ⟨fun _ => none, fun _ => rfl⟩

end ProviderApiKeys

/-- Validated public text-to-speech request. The voice is resolved after the claim. -/
structure TtsRequest where
  autoFallback : Bool
  providerOptions : TtsProviderOptions
  providerKeys : ProviderApiKeys
  text : SpeechText
  voiceProfile : Option String
  language : Option LanguageHint
  providerOrder : Option (List ProviderName)

/-- Validated public speech-to-text request. -/
structure SttRequest where
  providerKeys : ProviderApiKeys
  sourceUrl : BriefcaseFileUrl
  language : Option LanguageHint
  providerOrder : Option (List ProviderName)

/-- `with_provider_order`. -/
def TtsRequest.withProviderOrder (request : TtsRequest) (order : List ProviderName) : TtsRequest :=
  { request with providerOrder := some order }

/-- `with_provider_order`. -/
def SttRequest.withProviderOrder (request : SttRequest) (order : List ProviderName) : SttRequest :=
  { request with providerOrder := some order }

/-! ## Digests -/

/-- What the digests use of other packages, and the secret key. -/
structure DigestKey where
  /-- HMAC-SHA-256 under the secret key. -/
  hmac : List UInt8 → RequestDigest
  /-- `serde_json::to_vec`. -/
  optionsJson : TtsProviderOptions → List UInt8
  /-- `Url::as_str`. -/
  urlText : Url → String

/-- What `digest_fields` feeds to the MAC. -/
def requestMessage (operation : SpeechOperation) (primary : String) (language : Option String)
    (providerOrder : Option (List ProviderName)) : List UInt8 :=
  utf8 "silicon-waveform:request:v1" ++ [0] ++ lengthPrefixed (utf8 operation.asStr) ++
    lengthPrefixed (utf8 primary) ++
    (match language with
      | some value => 1 :: lengthPrefixed (utf8 value)
      | none => [0]) ++
    match providerOrder with
      | some order => 1 :: bigEndian 8 (min order.length LengthPrefixed.maxLength) ++
          (order.map fun provider => utf8 provider.asStr).flatMap lengthPrefixed
      | none => [0]

/-- What each stage after `digest_fields` feeds to the MAC: its label, the digest so far, and what
it adds. -/
def stageMessage (label : String) (original : RequestDigest) (added : List UInt8) : List UInt8 :=
  utf8 label ++ [0] ++ (original.toList ++ added)

/-- The keys of a request, each name and credential after its length. -/
def keyFields (keys : ProviderApiKeys) : List UInt8 :=
  keys.iter.flatMap fun entry =>
    lengthPrefixed (utf8 entry.1.asStr) ++ lengthPrefixed (utf8 entry.2)

namespace RequestDigest

variable (key : DigestKey)

/-- `digest_fields` of a TTS request. -/
def ttsFields (request : TtsRequest) : RequestDigest :=
  key.hmac <| requestMessage .tts request.text.asStr (request.language.map LanguageHint.asStr)
    request.providerOrder

/-- The digest once a voice profile has been bound. -/
def ttsVoice (request : TtsRequest) : RequestDigest :=
  let original := ttsFields key request
  match request.voiceProfile with
  | some profile =>
      key.hmac <| stageMessage "silicon-waveform:voice-profile:v1" original
        (lengthPrefixed (utf8 profile))
  | none => original

/-- The controls that the last stage binds. -/
def controlFields (request : TtsRequest) : List UInt8 :=
  (if request.autoFallback then 1 else 0) ::
    lengthPrefixed (key.optionsJson request.providerOptions) ++
    keyFields request.providerKeys

/-- `for_tts`. -/
def forTts (request : TtsRequest) : RequestDigest :=
  let original := ttsVoice key request
  if request.autoFallback && request.providerOptions.isEmpty && request.providerKeys.isEmpty then
    original
  else
    key.hmac <| stageMessage "silicon-waveform:tts-controls:v1" original (controlFields key request)

/-- `digest_fields` of an STT request. -/
def sttFields (request : SttRequest) : RequestDigest :=
  key.hmac <| requestMessage .stt (key.urlText request.sourceUrl.url)
    (request.language.map LanguageHint.asStr) request.providerOrder

/-- `for_stt`. -/
def forStt (request : SttRequest) : RequestDigest :=
  let original := sttFields key request
  if request.providerKeys.isEmpty then original
  else
    key.hmac <| stageMessage "silicon-waveform:stt-keys:v1" original
      (keyFields request.providerKeys)

/-! ## What a digest binds -/

/-- The messages that the digest of a TTS request is computed from. -/
def ttsMessages (request : TtsRequest) : List (List UInt8) :=
  [requestMessage .tts request.text.asStr (request.language.map LanguageHint.asStr)
      request.providerOrder] ++
    (request.voiceProfile.toList.map fun profile =>
      stageMessage "silicon-waveform:voice-profile:v1" (ttsFields key request)
        (lengthPrefixed (utf8 profile))) ++
    if request.autoFallback && request.providerOptions.isEmpty && request.providerKeys.isEmpty
      then []
    else [stageMessage "silicon-waveform:tts-controls:v1" (ttsVoice key request)
      (controlFields key request)]

/-- The messages that the digest of an STT request is computed from. -/
def sttMessages (request : SttRequest) : List (List UInt8) :=
  [requestMessage .stt (key.urlText request.sourceUrl.url)
      (request.language.map LanguageHint.asStr) request.providerOrder] ++
    if request.providerKeys.isEmpty then []
    else [stageMessage "silicon-waveform:stt-keys:v1" (sttFields key request)
      (keyFields request.providerKeys)]

/-- No message of the one list has the MAC of another message of the other list. -/
def CollisionFree (messages messages' : List (List UInt8)) : Prop :=
  ∀ m ∈ messages, ∀ m' ∈ messages', key.hmac m = key.hmac m' → m = m'

end RequestDigest

/-- A list of providers is determined by its names, each after its length. -/
theorem providerFields_inj {order order' : List ProviderName}
    (h : (order.map fun provider => utf8 provider.asStr).flatMap lengthPrefixed =
      (order'.map fun provider => utf8 provider.asStr).flatMap lengthPrefixed) :
      order = order' := by
  have hfits : ∀ order : List ProviderName,
      ∀ field ∈ order.map fun provider => utf8 provider.asStr,
        field.length ≤ LengthPrefixed.maxLength := by
    intro order field hmem
    obtain ⟨provider, _, rfl⟩ := List.mem_map.mp hmem
    cases provider <;> decide
  have hnames := LengthPrefixed.flatMap_lengthPrefixed_inj (hfits order) (hfits order') h
  apply List.map_injective_iff.mpr _ hnames
  intro a b hab
  cases a <;> cases b <;> first | rfl | exact absurd hab (by decide)

/-- Two messages that differ in the provider order at most are equal only under the same order. -/
theorem requestMessage_inj_order {operation : SpeechOperation} {primary : String}
    {language : Option String} {order order' : List ProviderName}
    (h : requestMessage operation primary language (some order) =
      requestMessage operation primary language (some order')) : order = order' := by
  have hfields := List.append_cancel_left h
  obtain ⟨_, hnames⟩ := List.append_inj (List.cons.inj hfields).2 (by simp)
  exact providerFields_inj hnames

/-- A stage binds the digest it starts from. -/
theorem stageMessage_inj {label : String} {d d' : RequestDigest} {added added' : List UInt8}
    (h : stageMessage label d added = stageMessage label d' added') : d = d' := by
  have hrest := List.append_cancel_left h
  have hdigest := (List.append_inj hrest (by simp)).1
  exact Vector.toList_inj.mp hdigest

namespace RequestDigest

variable {key : DigestKey}

/-- The digest of the fields determines the provider order. -/
theorem ttsFields_inj_order {request : TtsRequest} {order order' : List ProviderName}
    (hfree : CollisionFree key (ttsMessages key (request.withProviderOrder order))
      (ttsMessages key (request.withProviderOrder order')))
    (h : ttsFields key (request.withProviderOrder order) =
      ttsFields key (request.withProviderOrder order')) : order = order' := by
  apply requestMessage_inj_order
  refine hfree _ ?_ _ ?_ h
  · exact List.mem_append_left _ (List.mem_append_left _ List.mem_cons_self)
  · exact List.mem_append_left _ (List.mem_append_left _ List.mem_cons_self)

/-- The digest with the voice profile determines the provider order. -/
theorem ttsVoice_inj_order {request : TtsRequest} {order order' : List ProviderName}
    (hfree : CollisionFree key (ttsMessages key (request.withProviderOrder order))
      (ttsMessages key (request.withProviderOrder order')))
    (h : ttsVoice key (request.withProviderOrder order) =
      ttsVoice key (request.withProviderOrder order')) : order = order' := by
  apply ttsFields_inj_order hfree
  cases hprofile : request.voiceProfile with
  | none => simpa [ttsVoice, TtsRequest.withProviderOrder, hprofile] using h
  | some profile =>
      simp only [ttsVoice, TtsRequest.withProviderOrder, hprofile] at h
      apply stageMessage_inj
      refine hfree _ ?_ _ ?_ h
      · simp [ttsMessages, TtsRequest.withProviderOrder, hprofile]
      · simp [ttsMessages, TtsRequest.withProviderOrder, hprofile]

/-- **Without a collision, the digest of a TTS request determines its provider order.** -/
theorem forTts_inj_order {request : TtsRequest} {order order' : List ProviderName}
    (hfree : CollisionFree key (ttsMessages key (request.withProviderOrder order))
      (ttsMessages key (request.withProviderOrder order')))
    (h : forTts key (request.withProviderOrder order) =
      forTts key (request.withProviderOrder order')) : order = order' := by
  apply ttsVoice_inj_order hfree
  by_cases hplain : (request.autoFallback && request.providerOptions.isEmpty &&
      request.providerKeys.isEmpty) = true
  · simpa only [forTts, TtsRequest.withProviderOrder, hplain, if_true] using h
  · simp only [forTts, TtsRequest.withProviderOrder, hplain, if_false, Bool.false_eq_true] at h
    apply stageMessage_inj
    refine hfree _ ?_ _ ?_ h
    · simp only [ttsMessages, TtsRequest.withProviderOrder, hplain, if_false, Bool.false_eq_true]
      exact List.mem_append_right _ List.mem_cons_self
    · simp only [ttsMessages, TtsRequest.withProviderOrder, hplain, if_false, Bool.false_eq_true]
      exact List.mem_append_right _ List.mem_cons_self

/-- **Without a collision, the digest of an STT request determines its provider order.** -/
theorem forStt_inj_order {request : SttRequest} {order order' : List ProviderName}
    (hfree : CollisionFree key (sttMessages key (request.withProviderOrder order))
      (sttMessages key (request.withProviderOrder order')))
    (h : forStt key (request.withProviderOrder order) =
      forStt key (request.withProviderOrder order')) : order = order' := by
  have hfields : sttFields key (request.withProviderOrder order) =
      sttFields key (request.withProviderOrder order') := by
    by_cases hplain : request.providerKeys.isEmpty = true
    · simpa only [forStt, SttRequest.withProviderOrder, hplain, if_true] using h
    · simp only [forStt, SttRequest.withProviderOrder, hplain, if_false, Bool.false_eq_true] at h
      apply stageMessage_inj
      refine hfree _ ?_ _ ?_ h
      · simp only [sttMessages, SttRequest.withProviderOrder, hplain, if_false, Bool.false_eq_true]
        exact List.mem_append_right _ List.mem_cons_self
      · simp only [sttMessages, SttRequest.withProviderOrder, hplain, if_false, Bool.false_eq_true]
        exact List.mem_append_right _ List.mem_cons_self
  apply requestMessage_inj_order
  refine hfree _ ?_ _ ?_ hfields
  · exact List.mem_append_left _ List.mem_cons_self
  · exact List.mem_append_left _ List.mem_cons_self

end RequestDigest

end Waveform.Domain
