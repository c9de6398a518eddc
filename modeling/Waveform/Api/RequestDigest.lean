import Waveform.Api.Model

/-!
# What a request digest binds

Every field that enters a digest is framed, and every message begins with a label that ends in a
zero byte, so a message can be read in one way only. Without a collision of the MAC, equal digests
then mean equal messages, stage by stage.

- `requestMessage_inj`, `stageMessage_read`, `keyFields_inj`: the messages determine what they
  frame.
- `ttsVoice_inj`, `forTts_inj`: so do the digests of the stages.
- `digest_binds_request`: a digest binds exactly the request.
-/

set_option autoImplicit false

namespace Waveform.Api

open Waveform.Domain RequestDigest
open LengthPrefixed (lengthPrefixed bigEndian maxLength)

/-! ## Requests that are admitted -/

/-- An accepted body, its order completed or not. -/
def TtsAdmitted (request : TtsRequest) : Prop :=
  ∃ (body : TtsRequestBody) (accepted : TtsRequest) (order : List ProviderName),
    body.intoDomain = .ok accepted ∧
      (request = accepted ∨ request = accepted.withProviderOrder order)

/-- No string in memory is longer than its 64-bit length can say. -/
structure TtsInMemory (key : DigestKey) (request : TtsRequest) : Prop where
  language : ∀ hint ∈ request.language, (utf8 hint.asStr).length ≤ maxLength
  options : (key.optionsJson request.providerOptions).length ≤ maxLength

/-- No string in memory is longer than its 64-bit length can say. -/
structure SttInMemory (key : DigestKey) (request : SttRequest) : Prop where
  url : (utf8 (key.urlText request.sourceUrl.url)).length ≤ maxLength
  language : ∀ hint ∈ request.language, (utf8 hint.asStr).length ≤ maxLength

/-- The two requests ask for the same. Controls are compared as JSON; with fallback and without keys
all empty controls count as equal. -/
structure SameTts (key : DigestKey) (request request' : TtsRequest) : Prop where
  text : request.text = request'.text
  language : request.language = request'.language
  providerOrder : request.providerOrder = request'.providerOrder
  voiceProfile : request.voiceProfile = request'.voiceProfile
  autoFallback : request.autoFallback = request'.autoFallback
  providerOptions : key.optionsJson request.providerOptions =
      key.optionsJson request'.providerOptions ∨
    (request.autoFallback = true ∧ request.providerKeys.isEmpty = true ∧
      request.providerOptions.isEmpty = true ∧ request'.providerOptions.isEmpty = true)
  providerKeys : request.providerKeys = request'.providerKeys

/-- The two requests ask for the same. URLs are compared as their text, as `Url` compares itself. -/
structure SameStt (key : DigestKey) (request request' : SttRequest) : Prop where
  sourceUrl : key.urlText request.sourceUrl.url = key.urlText request'.sourceUrl.url
  language : request.language = request'.language
  providerOrder : request.providerOrder = request'.providerOrder
  providerKeys : request.providerKeys = request'.providerKeys

/-! ## Reading messages -/

theorem providerName_length_le (provider : ProviderName) :
    (utf8 provider.asStr).length ≤ maxLength := by
  cases provider <;> decide

/-- The fields of a request's keys fit in their lengths. -/
theorem keyBytes_le {keys : ProviderApiKeys} {entry : ProviderName × String}
    (h : entry ∈ keys.iter) :
    (utf8 entry.1.asStr).length ≤ maxLength ∧ (utf8 entry.2).length ≤ maxLength := by
  obtain ⟨name, _, hentry⟩ := List.mem_filterMap.mp h
  obtain ⟨value, hget, rfl⟩ := Option.map_eq_some_iff.mp hentry
  have hvalid := keys.valid name
  simp only [hget, Option.all_some, validApiKey, Bool.and_eq_true, decide_eq_true_eq] at hvalid
  constructor
  · exact providerName_length_le name
  · rw [utf8_length]
    exact Nat.le_trans hvalid.1.2 (by decide)

/-- The keys of a request as one list of fields. -/
theorem keyFields_eq (keys : ProviderApiKeys) :
    keyFields keys = (keys.iter.flatMap fun entry =>
      [utf8 entry.1.asStr, utf8 entry.2]).flatMap lengthPrefixed := by
  simp [keyFields, List.flatMap_assoc]

/-- Names and credentials are determined by their bytes. -/
theorem entryFields_inj {entries entries' : List (ProviderName × String)}
    (h : (entries.flatMap fun entry => [utf8 entry.1.asStr, utf8 entry.2]) =
      entries'.flatMap fun entry => [utf8 entry.1.asStr, utf8 entry.2]) : entries = entries' := by
  induction entries generalizing entries' with
  | nil =>
      cases entries' with
      | nil => rfl
      | cons entry' entries' => exact absurd h (by simp)
  | cons entry entries ih =>
      cases entries' with
      | nil => exact absurd h (by simp)
      | cons entry' entries' =>
          simp only [List.flatMap_cons, List.cons_append, List.nil_append, List.cons.injEq] at h
          obtain ⟨hname, hvalue, hrest⟩ := h
          have hprovider : entry.1 = entry'.1 := by
            have hstr := utf8_inj hname
            have hread := congrArg ProviderName.ofStr? hstr
            rw [ProviderName.ofStr?_asStr, ProviderName.ofStr?_asStr] at hread
            exact Option.some.inj hread
          rw [ih hrest, Prod.ext hprovider (utf8_inj hvalue)]

/-- What `iter` lists is what the keys hold. -/
theorem mem_iter {keys : ProviderApiKeys} {provider : ProviderName} {value : String} :
    (provider, value) ∈ keys.iter ↔ keys.get provider = some value := by
  constructor
  · intro h
    obtain ⟨name, _, hentry⟩ := List.mem_filterMap.mp h
    obtain ⟨value', hget, heq⟩ := Option.map_eq_some_iff.mp hentry
    cases heq
    exact hget
  · intro h
    exact List.mem_filterMap.mpr ⟨provider, ProviderApiKeys.mem_names provider, by rw [h]; rfl⟩

theorem keys_ext {keys keys' : ProviderApiKeys} (h : keys.iter = keys'.iter) : keys = keys' := by
  have hget : keys.get = keys'.get := by
    funext provider
    apply Option.ext
    intro value
    rw [← mem_iter, ← mem_iter, h]
  cases keys
  cases keys'
  cases hget
  rfl

/-- **The bytes of its keys determine the keys of a request.** -/
theorem keyFields_inj {keys keys' : ProviderApiKeys} (h : keyFields keys = keyFields keys') :
    keys = keys' := by
  rw [keyFields_eq, keyFields_eq] at h
  have hfits : ∀ keys : ProviderApiKeys,
      ∀ field ∈ keys.iter.flatMap fun entry => [utf8 entry.1.asStr, utf8 entry.2],
        field.length ≤ maxLength := by
    intro keys field hfield
    obtain ⟨entry, hentry, hmem⟩ := List.mem_flatMap.mp hfield
    obtain ⟨hname, hvalue⟩ := keyBytes_le hentry
    rcases List.mem_pair.mp hmem with rfl | rfl
    · exact hname
    · exact hvalue
  exact keys_ext (entryFields_inj (LengthPrefixed.flatMap_lengthPrefixed_inj (hfits keys)
    (hfits keys') h))

/-- An optional field and what follows it are determined by the bytes: it begins with a flag. -/
theorem optionalField_append_inj {field field' : Option String} {rest rest' : List UInt8}
    (h : (match field with
        | some value => 1 :: lengthPrefixed (utf8 value)
        | none => [0]) ++ rest =
      (match field' with
        | some value => 1 :: lengthPrefixed (utf8 value)
        | none => [0]) ++ rest')
    (hfits : ∀ value ∈ field, (utf8 value).length ≤ maxLength)
    (hfits' : ∀ value ∈ field', (utf8 value).length ≤ maxLength) :
    field = field' ∧ rest = rest' := by
  cases field with
  | none =>
      cases field' with
      | none => exact ⟨rfl, (List.cons.inj h).2⟩
      | some value' => exact absurd (List.cons.inj h).1 (by decide)
  | some value =>
      cases field' with
      | none => exact absurd (List.cons.inj h).1 (by decide)
      | some value' =>
          obtain ⟨hvalue, hrest⟩ := LengthPrefixed.lengthPrefixed_append_inj
            (hfits value rfl) (hfits' value' rfl) (List.cons.inj h).2
          rw [utf8_inj hvalue]
          exact ⟨rfl, hrest⟩

/-- **A message of the first stage determines the operation and the fields.** -/
theorem requestMessage_inj {operation operation' : SpeechOperation} {primary primary' : String}
    {language language' : Option String} {order order' : Option (List ProviderName)}
    (hprimary : (utf8 primary).length ≤ maxLength) (hprimary' : (utf8 primary').length ≤ maxLength)
    (hlanguage : ∀ value ∈ language, (utf8 value).length ≤ maxLength)
    (hlanguage' : ∀ value ∈ language', (utf8 value).length ≤ maxLength)
    (h : requestMessage operation primary language order =
      requestMessage operation' primary' language' order') :
    operation = operation' ∧ primary = primary' ∧ language = language' ∧ order = order' := by
  unfold requestMessage at h
  simp only [List.append_assoc] at h
  have hlabel := List.append_cancel_left (List.append_cancel_left h)
  have hname : ∀ operation : SpeechOperation, (utf8 operation.asStr).length ≤ maxLength := by
    rintro (_ | _) <;> decide
  obtain ⟨hoperation, hrest⟩ := LengthPrefixed.lengthPrefixed_append_inj (hname operation)
    (hname operation') hlabel
  obtain ⟨hfirst, hrest⟩ := LengthPrefixed.lengthPrefixed_append_inj hprimary hprimary' hrest
  obtain ⟨hsecond, hrest⟩ := optionalField_append_inj hrest hlanguage hlanguage'
  refine ⟨?_, utf8_inj hfirst, hsecond, ?_⟩
  · cases operation <;> cases operation' <;> first | rfl | exact absurd hoperation (by decide)
  · cases order with
    | none =>
        cases order' with
        | none => rfl
        | some order' => exact absurd (List.cons.inj hrest).1 (by decide)
    | some order =>
        cases order' with
        | none => exact absurd (List.cons.inj hrest).1 (by decide)
        | some order' =>
            obtain ⟨_, hnames⟩ := List.append_inj (List.cons.inj hrest).2 (by simp)
            rw [providerFields_inj hnames]

/-! ## Telling the stages apart -/

/-- The bytes begin with the label, which a zero byte ends. -/
def Labelled (label : String) (message : List UInt8) : Prop :=
  ∃ rest, message = utf8 label ++ 0 :: rest

theorem requestMessage_labelled (operation : SpeechOperation) (primary : String)
    (language : Option String) (order : Option (List ProviderName)) :
    Labelled "silicon-waveform:request:v1" (requestMessage operation primary language order) := by
  unfold requestMessage
  simp only [List.append_assoc]
  exact ⟨_, rfl⟩

theorem stageMessage_labelled (label : String) (original : RequestDigest) (added : List UInt8) :
    Labelled label (stageMessage label original added) := by
  unfold stageMessage
  rw [List.append_assoc]
  exact ⟨_, rfl⟩

/-- A message has one label. -/
theorem Labelled.label_eq {label label' : String} {message : List UInt8}
    (h : Labelled label message)
    (h' : Labelled label' message) (hlabel : 0 ∉ utf8 label) (hlabel' : 0 ∉ utf8 label') :
    label = label' := by
  obtain ⟨rest, rfl⟩ := h
  obtain ⟨rest', heq⟩ := h'
  exact utf8_inj (LengthPrefixed.label_append_inj hlabel hlabel' heq).1

/-- **A message of a later stage determines the digest it starts from and what it adds.** -/
theorem stageMessage_read {label : String} {d d' : RequestDigest} {added added' : List UInt8}
    (h : stageMessage label d added = stageMessage label d' added') : d = d' ∧ added = added' := by
  have hdigest := stageMessage_inj h
  have hrest := List.append_cancel_left h
  rw [hdigest] at hrest
  exact ⟨hdigest, List.append_cancel_left hrest⟩

section Tts

variable {key : DigestKey} {request request' : TtsRequest}

/-- With fallback and without controls or keys no last stage follows. -/
def isLegacy (request : TtsRequest) : Bool :=
  request.autoFallback && request.providerOptions.isEmpty && request.providerKeys.isEmpty

theorem forTts_of_legacy (h : isLegacy request = true) :
    forTts key request = ttsVoice key request := by
  unfold isLegacy at h
  simp only [forTts, h, if_true]

theorem forTts_of_controls (h : isLegacy request = false) :
    forTts key request = key.hmac (stageMessage "silicon-waveform:tts-controls:v1"
      (ttsVoice key request) (controlFields key request)) := by
  unfold isLegacy at h
  simp only [forTts, h, Bool.false_eq_true, if_false]

theorem fields_mem_ttsMessages :
    requestMessage .tts request.text.asStr (request.language.map LanguageHint.asStr)
      request.providerOrder ∈ ttsMessages key request :=
  List.mem_append_left _ (List.mem_append_left _ List.mem_cons_self)

theorem voice_mem_ttsMessages {profile : String} (h : request.voiceProfile = some profile) :
    stageMessage "silicon-waveform:voice-profile:v1" (ttsFields key request)
      (lengthPrefixed (utf8 profile)) ∈ ttsMessages key request := by
  simp [ttsMessages, h]

theorem controls_mem_ttsMessages (h : isLegacy request = false) :
    stageMessage "silicon-waveform:tts-controls:v1" (ttsVoice key request)
      (controlFields key request) ∈ ttsMessages key request := by
  unfold isLegacy at h
  simp [ttsMessages, h]

/-- The digest before the last stage is the MAC of a message without that stage's label. -/
theorem exists_voiceMessage (key : DigestKey) (request : TtsRequest) :
    ∃ message ∈ ttsMessages key request, ttsVoice key request = key.hmac message ∧
      (message = requestMessage .tts request.text.asStr (request.language.map LanguageHint.asStr)
          request.providerOrder ∨
        Labelled "silicon-waveform:voice-profile:v1" message) := by
  cases hprofile : request.voiceProfile with
  | none =>
      refine ⟨_, fields_mem_ttsMessages, ?_, .inl rfl⟩
      simp only [ttsVoice, hprofile]
      rfl
  | some profile =>
      refine ⟨_, voice_mem_ttsMessages hprofile, ?_, .inr (stageMessage_labelled _ _ _)⟩
      simp only [ttsVoice, hprofile]

/-- What `into_domain` leaves of a body: a valid profile, and no controls where fallback is on. -/
theorem intoDomain_ok {body : TtsRequestBody} (h : body.intoDomain = .ok request) :
    request.voiceProfile.all validProfileId = true ∧
      (request.autoFallback = true → request.providerOptions.isEmpty = true) := by
  unfold TtsRequestBody.intoDomain at h
  cases htext : (speechText body.text).mapError RequestBodyError.speech with
  | error error => simp [htext, bind, Except.bind] at h
  | ok text =>
      cases hlanguage : parseLanguage body.lang with
      | error error => simp [htext, hlanguage, bind, Except.bind] at h
      | ok language =>
          simp only [htext, hlanguage, bind, Except.bind] at h
          split at h
          · cases h
          · rename_i hprofile
            split at h
            · cases h
            · split at h
              · cases h
              · rename_i hoptions
                split at h
                · cases h
                · cases h
                  refine ⟨?_, ?_⟩
                  · cases hvoice : body.voiceProfile with
                    | none => rfl
                    | some profile => simpa [hvoice] using hprofile
                  · simpa using hoptions

theorem TtsAdmitted.ok (h : TtsAdmitted request) :
    request.voiceProfile.all validProfileId = true ∧
      (request.autoFallback = true → request.providerOptions.isEmpty = true) := by
  obtain ⟨body, accepted, order, hbody, rfl | rfl⟩ := h
  · exact intoDomain_ok hbody
  · exact @intoDomain_ok accepted body hbody

/-- The lengths of the fields fit. -/
theorem text_le (text : SpeechText) : (utf8 text.asStr).length ≤ maxLength := by
  have hbytes := utf8_length_le text.asStr
  have hbounded := text.bounded
  have hlimit : 4 * maxTtsTextCharacters ≤ maxLength := by decide
  omega

theorem TtsAdmitted.profile_le (h : TtsAdmitted request) {profile : String}
    (hprofile : request.voiceProfile = some profile) : (utf8 profile).length ≤ maxLength := by
  have hvalid := h.ok.1
  simp only [hprofile, Option.all_some, validProfileId, Bool.and_eq_true, decide_eq_true_eq]
    at hvalid
  rw [utf8_length]
  exact Nat.le_trans hvalid.1.2 (by decide)

theorem language_le {language : Option LanguageHint}
    (h : ∀ hint ∈ language, (utf8 hint.asStr).length ≤ maxLength) :
    ∀ value ∈ language.map LanguageHint.asStr, (utf8 value).length ≤ maxLength := by
  intro value hvalue
  obtain ⟨hint, hhint, rfl⟩ := Option.map_eq_some_iff.mp hvalue
  exact h hint hhint

/-- Spelled hints are equal when the hints are. -/
theorem language_inj {language language' : Option LanguageHint}
    (h : language.map LanguageHint.asStr = language'.map LanguageHint.asStr) :
    language = language' := by
  refine Option.map_injective ?_ h
  intro hint hint' heq
  cases hint
  cases hint'
  cases heq
  rfl

variable (hadmitted : TtsAdmitted request) (hadmitted' : TtsAdmitted request')
  (hmemory : TtsInMemory key request) (hmemory' : TtsInMemory key request')
  (hfree : CollisionFree key (ttsMessages key request) (ttsMessages key request'))

include hmemory hmemory' hfree

/-- The digest of the fields determines them. -/
theorem ttsFields_inj (h : ttsFields key request = ttsFields key request') :
    request.text = request'.text ∧ request.language = request'.language ∧
      request.providerOrder = request'.providerOrder := by
  have hmessage := hfree _ fields_mem_ttsMessages _ fields_mem_ttsMessages h
  obtain ⟨_, htext, hlanguage, horder⟩ := requestMessage_inj (text_le _) (text_le _)
    (language_le hmemory.language) (language_le hmemory'.language) hmessage
  refine ⟨?_, language_inj hlanguage, horder⟩
  cases htext' : request.text
  cases htext'' : request'.text
  rw [htext', htext''] at htext
  cases htext
  rfl

include hadmitted hadmitted'

/-- **The digest with the voice profile determines the fields and the profile.** -/
theorem ttsVoice_inj (h : ttsVoice key request = ttsVoice key request') :
    request.text = request'.text ∧ request.language = request'.language ∧
      request.providerOrder = request'.providerOrder ∧
      request.voiceProfile = request'.voiceProfile := by
  have hlabels : ∀ {profile : String} {d : RequestDigest} {message : List UInt8},
      message = stageMessage "silicon-waveform:voice-profile:v1" d (lengthPrefixed (utf8 profile)) →
      ¬ Labelled "silicon-waveform:request:v1" message := by
    rintro profile d message rfl hrequest
    have heq := hrequest.label_eq (stageMessage_labelled _ _ _) (by decide) (by decide)
    exact absurd heq (by decide)
  cases hprofile : request.voiceProfile with
  | none =>
      cases hprofile' : request'.voiceProfile with
      | none =>
          simp only [ttsVoice, hprofile, hprofile'] at h
          obtain ⟨htext, hlanguage, horder⟩ := ttsFields_inj hmemory hmemory' hfree h
          exact ⟨htext, hlanguage, horder, rfl⟩
      | some profile' =>
          simp only [ttsVoice, hprofile, hprofile'] at h
          have hmessage := hfree _ fields_mem_ttsMessages _ (voice_mem_ttsMessages hprofile') h
          exact absurd (requestMessage_labelled _ _ _ _) (hlabels hmessage)
  | some profile =>
      cases hprofile' : request'.voiceProfile with
      | none =>
          simp only [ttsVoice, hprofile, hprofile'] at h
          have hmessage := hfree _ (voice_mem_ttsMessages hprofile) _ fields_mem_ttsMessages h
          exact absurd (requestMessage_labelled _ _ _ _) (hlabels hmessage.symm)
      | some profile' =>
          simp only [ttsVoice, hprofile, hprofile'] at h
          have hmessage := hfree _ (voice_mem_ttsMessages hprofile) _
            (voice_mem_ttsMessages hprofile') h
          obtain ⟨hfields, hadded⟩ := stageMessage_read hmessage
          obtain ⟨htext, hlanguage, horder⟩ := ttsFields_inj hmemory hmemory' hfree hfields
          have hbytes := (LengthPrefixed.lengthPrefixed_append_inj (hadmitted.profile_le hprofile)
            (hadmitted'.profile_le hprofile') (congrArg (· ++ []) hadded)).1
          refine ⟨htext, hlanguage, horder, ?_⟩
          rw [utf8_inj hbytes]

omit hadmitted hadmitted' hmemory hmemory' in
/-- A digest without the last stage is no digest with it. -/
theorem forTts_ne_of_legacy (h : isLegacy request = true) (h' : isLegacy request' = false) :
    forTts key request ≠ forTts key request' := by
  intro heq
  rw [forTts_of_legacy h, forTts_of_controls h'] at heq
  obtain ⟨message, hmem, hvoice, hlabel⟩ := exists_voiceMessage key request
  rw [hvoice] at heq
  have hmessage := hfree _ hmem _ (controls_mem_ttsMessages h') heq
  have hcontrols : Labelled "silicon-waveform:tts-controls:v1" message := by
    rw [hmessage]
    exact stageMessage_labelled _ _ _
  rcases hlabel with rfl | hlabel
  · have hrequest := requestMessage_labelled .tts request.text.asStr
      (request.language.map LanguageHint.asStr) request.providerOrder
    exact absurd (hcontrols.label_eq hrequest (by decide) (by decide)) (by decide)
  · exact absurd (hcontrols.label_eq hlabel (by decide) (by decide)) (by decide)

/-- **Equal digests come from requests that ask for the same.** -/
theorem forTts_inj (h : forTts key request = forTts key request') :
    SameTts key request request' := by
  cases hlegacy : isLegacy request with
  | true =>
      cases hlegacy' : isLegacy request' with
      | false => exact absurd h (forTts_ne_of_legacy hfree hlegacy hlegacy')
      | true =>
          rw [forTts_of_legacy hlegacy, forTts_of_legacy hlegacy'] at h
          obtain ⟨htext, hlanguage, horder, hprofile⟩ :=
            ttsVoice_inj hadmitted hadmitted' hmemory hmemory' hfree h
          simp only [isLegacy, Bool.and_eq_true] at hlegacy hlegacy'
          obtain ⟨⟨hauto, hoptions⟩, hkeys⟩ := hlegacy
          obtain ⟨⟨hauto', hoptions'⟩, hkeys'⟩ := hlegacy'
          refine ⟨htext, hlanguage, horder, hprofile, by rw [hauto, hauto'],
            .inr ⟨hauto, hkeys, hoptions, hoptions'⟩, ?_⟩
          apply keys_ext
          rw [List.isEmpty_iff.mp hkeys, List.isEmpty_iff.mp hkeys']
  | false =>
      cases hlegacy' : isLegacy request' with
      | true =>
          have hfree' : CollisionFree key (ttsMessages key request') (ttsMessages key request) :=
            fun m hm m' hm' heq => (hfree m' hm' m hm heq.symm).symm
          exact absurd h.symm (forTts_ne_of_legacy hfree' hlegacy' hlegacy)
      | false =>
          rw [forTts_of_controls hlegacy, forTts_of_controls hlegacy'] at h
          have hmessage := hfree _ (controls_mem_ttsMessages hlegacy) _
            (controls_mem_ttsMessages hlegacy') h
          obtain ⟨hvoice, hcontrols⟩ := stageMessage_read hmessage
          obtain ⟨htext, hlanguage, horder, hprofile⟩ :=
            ttsVoice_inj hadmitted hadmitted' hmemory hmemory' hfree hvoice
          obtain ⟨hflag, hrest⟩ := List.cons.inj hcontrols
          obtain ⟨hjson, hkeys⟩ := LengthPrefixed.lengthPrefixed_append_inj hmemory.options
            hmemory'.options hrest
          refine ⟨htext, hlanguage, horder, hprofile, ?_, .inl hjson, keyFields_inj hkeys⟩
          cases hauto : request.autoFallback <;> cases hauto' : request'.autoFallback <;>
            first | rfl | exact absurd hflag (by simp [hauto, hauto'])

omit hmemory hmemory' hfree in
/-- Requests that ask for the same have equal digests. -/
theorem forTts_eq (h : SameTts key request request') :
    forTts key request = forTts key request' := by
  have hfields : ttsFields key request = ttsFields key request' := by
    simp only [ttsFields, h.text, h.language, h.providerOrder]
  have hvoice : ttsVoice key request = ttsVoice key request' := by
    simp only [ttsVoice, h.voiceProfile, hfields]
  -- Where the one request has no last stage, fallback is on and the controls of both are empty.
  have hlegacy : isLegacy request = isLegacy request' := by
    cases hauto : request'.autoFallback with
    | false => simp [isLegacy, h.autoFallback, hauto]
    | true =>
        have hoptions := hadmitted.ok.2 (by rw [h.autoFallback, hauto])
        simp [isLegacy, h.autoFallback, hauto, hoptions, hadmitted'.ok.2 hauto, h.providerKeys]
  cases hplain : isLegacy request' with
  | true => rw [forTts_of_legacy (hlegacy.trans hplain), forTts_of_legacy hplain, hvoice]
  | false =>
      have hjson : key.optionsJson request.providerOptions =
          key.optionsJson request'.providerOptions := by
        rcases h.providerOptions with hjson | ⟨hauto, hkeys, hoptions, _⟩
        · exact hjson
        · rw [← hlegacy, isLegacy, hauto, hkeys, hoptions] at hplain
          cases hplain
      rw [forTts_of_controls (hlegacy.trans hplain), forTts_of_controls hplain, hvoice,
        controlFields, controlFields, h.autoFallback, hjson, h.providerKeys]

end Tts

/-! ## Speech-to-text requests -/

section Stt

variable {key : DigestKey} {request request' : SttRequest}

theorem forStt_of_plain (h : request.providerKeys.isEmpty = true) :
    forStt key request = sttFields key request := by
  simp only [forStt, h, if_true]

theorem forStt_of_keys (h : request.providerKeys.isEmpty = false) :
    forStt key request = key.hmac (stageMessage "silicon-waveform:stt-keys:v1"
      (sttFields key request) (keyFields request.providerKeys)) := by
  simp only [forStt, h, Bool.false_eq_true, if_false]

theorem fields_mem_sttMessages :
    requestMessage .stt (key.urlText request.sourceUrl.url)
      (request.language.map LanguageHint.asStr) request.providerOrder ∈ sttMessages key request :=
  List.mem_append_left _ List.mem_cons_self

theorem keys_mem_sttMessages (h : request.providerKeys.isEmpty = false) :
    stageMessage "silicon-waveform:stt-keys:v1" (sttFields key request)
      (keyFields request.providerKeys) ∈ sttMessages key request := by
  simp [sttMessages, h]

/-- The digest of an STT request is the MAC of a message of a first stage or of its keys. -/
theorem exists_sttMessage (key : DigestKey) (request : SttRequest) :
    ∃ message ∈ sttMessages key request, forStt key request = key.hmac message ∧
      (message = requestMessage .stt (key.urlText request.sourceUrl.url)
          (request.language.map LanguageHint.asStr) request.providerOrder ∨
        Labelled "silicon-waveform:stt-keys:v1" message) := by
  cases hkeys : request.providerKeys.isEmpty with
  | true => exact ⟨_, fields_mem_sttMessages, forStt_of_plain hkeys, .inl rfl⟩
  | false =>
      exact ⟨_, keys_mem_sttMessages hkeys, forStt_of_keys hkeys,
        .inr (stageMessage_labelled _ _ _)⟩

variable (hmemory : SttInMemory key request) (hmemory' : SttInMemory key request')
  (hfree : CollisionFree key (sttMessages key request) (sttMessages key request'))

include hmemory hmemory' hfree

/-- The digest of the fields determines them. -/
theorem sttFields_inj (h : sttFields key request = sttFields key request') :
    key.urlText request.sourceUrl.url = key.urlText request'.sourceUrl.url ∧
      request.language = request'.language ∧ request.providerOrder = request'.providerOrder := by
  have hmessage := hfree _ fields_mem_sttMessages _ fields_mem_sttMessages h
  obtain ⟨_, hurl, hlanguage, horder⟩ := requestMessage_inj hmemory.url hmemory'.url
    (language_le hmemory.language) (language_le hmemory'.language) hmessage
  exact ⟨hurl, language_inj hlanguage, horder⟩

/-- **Equal digests come from requests that ask for the same.** -/
theorem forStt_inj (h : forStt key request = forStt key request') :
    SameStt key request request' := by
  have hlabels : ∀ {d : RequestDigest} {added message : List UInt8},
      message = stageMessage "silicon-waveform:stt-keys:v1" d added →
      ¬ Labelled "silicon-waveform:request:v1" message := by
    rintro d added message rfl hrequest
    have heq := hrequest.label_eq (stageMessage_labelled _ _ _) (by decide) (by decide)
    exact absurd heq (by decide)
  cases hkeys : request.providerKeys.isEmpty with
  | true =>
      rw [forStt_of_plain hkeys] at h
      cases hkeys' : request'.providerKeys.isEmpty with
      | true =>
          rw [forStt_of_plain hkeys'] at h
          obtain ⟨hurl, hlanguage, horder⟩ := sttFields_inj hmemory hmemory' hfree h
          refine ⟨hurl, hlanguage, horder, ?_⟩
          apply keys_ext
          rw [List.isEmpty_iff.mp hkeys, List.isEmpty_iff.mp hkeys']
      | false =>
          rw [forStt_of_keys hkeys'] at h
          have hmessage := hfree _ fields_mem_sttMessages _ (keys_mem_sttMessages hkeys') h
          exact absurd (requestMessage_labelled _ _ _ _) (hlabels hmessage)
  | false =>
      rw [forStt_of_keys hkeys] at h
      cases hkeys' : request'.providerKeys.isEmpty with
      | true =>
          rw [forStt_of_plain hkeys'] at h
          have hmessage := hfree _ (keys_mem_sttMessages hkeys) _ fields_mem_sttMessages h
          exact absurd (requestMessage_labelled _ _ _ _) (hlabels hmessage.symm)
      | false =>
          rw [forStt_of_keys hkeys'] at h
          have hmessage := hfree _ (keys_mem_sttMessages hkeys) _ (keys_mem_sttMessages hkeys') h
          obtain ⟨hfields, hadded⟩ := stageMessage_read hmessage
          obtain ⟨hurl, hlanguage, horder⟩ := sttFields_inj hmemory hmemory' hfree hfields
          exact ⟨hurl, hlanguage, horder, keyFields_inj hadded⟩

omit hmemory hmemory' hfree in
/-- Requests that ask for the same have equal digests. -/
theorem forStt_eq (h : SameStt key request request') :
    forStt key request = forStt key request' := by
  have hfields : sttFields key request = sttFields key request' := by
    simp only [sttFields, h.sourceUrl, h.language, h.providerOrder]
  simp only [forStt, hfields, h.providerKeys]

end Stt

/-! ## Both operations -/

/-- The digest of a TTS request is the MAC of a message of its first stage or of a later one. -/
theorem exists_ttsMessage (key : DigestKey) (request : TtsRequest) :
    ∃ message ∈ ttsMessages key request, forTts key request = key.hmac message ∧
      (message = requestMessage .tts request.text.asStr (request.language.map LanguageHint.asStr)
          request.providerOrder ∨
        Labelled "silicon-waveform:voice-profile:v1" message ∨
        Labelled "silicon-waveform:tts-controls:v1" message) := by
  cases hlegacy : isLegacy request with
  | true =>
      obtain ⟨message, hmem, hvoice, hmessage⟩ := exists_voiceMessage key request
      exact ⟨message, hmem, (forTts_of_legacy hlegacy).trans hvoice,
        hmessage.imp_right Or.inl⟩
  | false =>
      exact ⟨_, controls_mem_ttsMessages hlegacy, forTts_of_controls hlegacy,
        .inr (.inr (stageMessage_labelled _ _ _))⟩

/-- **No digest of a TTS request is the digest of an STT request.** -/
theorem forTts_ne_forStt {key : DigestKey} {tts : TtsRequest} {stt : SttRequest}
    (htts : TtsInMemory key tts) (hstt : SttInMemory key stt)
    (hfree : CollisionFree key (ttsMessages key tts) (sttMessages key stt)) :
    forTts key tts ≠ forStt key stt := by
  intro heq
  obtain ⟨message, hmem, hmac, hkind⟩ := exists_ttsMessage key tts
  obtain ⟨message', hmem', hmac', hkind'⟩ := exists_sttMessage key stt
  obtain rfl := hfree _ hmem _ hmem' (hmac.symm.trans (heq.trans hmac'))
  have hother : ∀ {label label' : String}, Labelled label message → Labelled label' message →
      0 ∉ utf8 label → 0 ∉ utf8 label' → label ≠ label' → False :=
    fun h h' hzero hzero' hne => hne (h.label_eq h' hzero hzero')
  rcases hkind with hfields | hvoice | hcontrols
  · rcases hkind' with hfields' | hkeys
    · -- The first stages begin alike and differ in the operation.
      have hsame := requestMessage_inj (text_le _) hstt.url (language_le htts.language)
        (language_le hstt.language) (hfields.symm.trans hfields')
      exact absurd hsame.1 (by decide)
    · rw [hfields] at hkeys
      exact absurd (hkeys.label_eq (requestMessage_labelled _ _ _ _) (by decide) (by decide))
        (by decide)
  · rcases hkind' with hfields' | hkeys
    · rw [hfields'] at hvoice
      exact absurd (hvoice.label_eq (requestMessage_labelled _ _ _ _) (by decide) (by decide))
        (by decide)
    · exact hother hvoice hkeys (by decide) (by decide) (by decide)
  · rcases hkind' with hfields' | hkeys
    · rw [hfields'] at hcontrols
      exact absurd (hcontrols.label_eq (requestMessage_labelled _ _ _ _) (by decide) (by decide))
        (by decide)
    · exact hother hcontrols hkeys (by decide) (by decide) (by decide)

/-- **A digest binds exactly the request**, as long as the MAC has no collision between the messages
of the two requests. -/
theorem digest_binds_request (key : DigestKey) :
    (∀ request request' : TtsRequest, TtsAdmitted request → TtsAdmitted request' →
      TtsInMemory key request → TtsInMemory key request' →
      CollisionFree key (ttsMessages key request) (ttsMessages key request') →
      (forTts key request = forTts key request' ↔ SameTts key request request')) ∧
    (∀ request request' : SttRequest, SttInMemory key request → SttInMemory key request' →
      CollisionFree key (sttMessages key request) (sttMessages key request') →
      (forStt key request = forStt key request' ↔ SameStt key request request')) ∧
    (∀ (tts : TtsRequest) (stt : SttRequest), TtsInMemory key tts → SttInMemory key stt →
      CollisionFree key (ttsMessages key tts) (sttMessages key stt) →
      forTts key tts ≠ forStt key stt) := by
  refine ⟨?_, ?_, ?_⟩
  · intro request request' hadmitted hadmitted' hmemory hmemory' hfree
    constructor
    · exact forTts_inj hadmitted hadmitted' hmemory hmemory' hfree
    · exact forTts_eq hadmitted hadmitted'
  · intro request request' hmemory hmemory' hfree
    exact ⟨forStt_inj hmemory hmemory' hfree, forStt_eq⟩
  · intro tts stt htts hstt hfree
    exact forTts_ne_forStt htts hstt hfree

/-- The body of a plain request. -/
def sampleBody : TtsRequestBody where
  autoFallback := true
  providerOptions := .default
  providerKeys := .empty
  text := "Hello"
  voiceProfile := none
  lang := none
  providerOrder := none

/-- A Gemini key of the caller's own. -/
def sampleKeys : ProviderApiKeys where
  get provider := if provider = .gemini then some "private-key" else none
  valid := by
    intro provider
    cases provider <;> decide

/-- The request, with these keys. -/
def sampleTts (keys : ProviderApiKeys) : TtsRequest :=
  ⟨true, .default, keys, ⟨"Hello", notBlank_hello, bounded_hello⟩, none, none, none⟩

/-- A file to transcribe. -/
def sampleStt : SttRequest where
  providerKeys := .empty
  sourceUrl :=
    ⟨⟨"https", "", none, some (.domain "briefcase.example"), none, "/files/1", none, none⟩,
    by decide⟩
  language := none
  providerOrder := none

/-- The digest of the fields of the plain request. -/
def sampleFields : RequestDigest :=
  #v[57, 4, 172, 191, 145, 88, 192, 109, 27, 132, 193, 19, 193, 172, 0, 78,
    222, 16, 151, 53, 110, 220, 25, 102, 98, 184, 255, 135, 146, 141, 132, 77]

/-- The message of the last stage when the request carries the key. -/
def sampleControls : List UInt8 :=
  stageMessage "silicon-waveform:tts-controls:v1" sampleFields
    (1 :: lengthPrefixed (utf8 "\x7b\x7d") ++ keyFields sampleKeys)

/-- HMAC-SHA-256 under 32 bytes of 7, on the messages of the three requests. -/
def sampleHmac (message : List UInt8) : RequestDigest :=
  if message = requestMessage .tts "Hello" none none then sampleFields
  else if message = sampleControls then
    #v[113, 139, 191, 51, 34, 252, 250, 232, 107, 112, 253, 128, 12, 219, 48, 139,
      249, 206, 174, 143, 24, 197, 143, 232, 22, 87, 42, 68, 2, 135, 152, 31]
  else
    #v[20, 45, 152, 144, 0, 224, 139, 12, 202, 110, 221, 170, 20, 223, 40, 13,
      114, 19, 134, 120, 64, 84, 235, 161, 76, 217, 63, 29, 57, 70, 108, 6]

/-- The key, with the JSON and the URL text of the three requests. -/
def sampleDigestKey : DigestKey where
  hmac := sampleHmac
  optionsJson _ := utf8 "\x7b\x7d"
  urlText _ := "https://briefcase.example/files/1"

/-- A key of the caller's own changes the digest, and a transcription has another one. -/
theorem digest_binds_request_sample :
    forTts sampleDigestKey (sampleTts .empty) ≠ forTts sampleDigestKey (sampleTts sampleKeys) ∧
      forTts sampleDigestKey (sampleTts .empty) ≠ forStt sampleDigestKey sampleStt ∧
      (forStt sampleDigestKey sampleStt = forStt sampleDigestKey sampleStt ↔
        SameStt sampleDigestKey sampleStt sampleStt) := by
  obtain ⟨htts, hstt, hboth⟩ := digest_binds_request sampleDigestKey
  have hplain : TtsAdmitted (sampleTts .empty) :=
    ⟨sampleBody, _, [], rfl, .inl rfl⟩
  have hkeyed : TtsAdmitted (sampleTts sampleKeys) :=
    ⟨{ sampleBody with providerKeys := sampleKeys }, _, [], rfl, .inl rfl⟩
  have hmemory : ∀ keys, TtsInMemory sampleDigestKey (sampleTts keys) :=
    fun keys => ⟨fun hint hhint => (nomatch hhint),
      show (utf8 "\x7b\x7d").length ≤ maxLength by decide⟩
  have hmemory' : SttInMemory sampleDigestKey sampleStt :=
    ⟨by decide, fun hint hhint => (nomatch hhint)⟩
  have hplainMessages : ttsMessages sampleDigestKey (sampleTts .empty) =
      [requestMessage .tts "Hello" none none] := rfl
  have hkeyedMessages : ttsMessages sampleDigestKey (sampleTts sampleKeys) =
      [requestMessage .tts "Hello" none none, sampleControls] := by decide +kernel
  have hsttMessages : sttMessages sampleDigestKey sampleStt =
      [requestMessage .stt "https://briefcase.example/files/1" none none] := rfl
  refine ⟨?_, ?_, ?_⟩
  · intro heq
    have hfree : CollisionFree sampleDigestKey (ttsMessages sampleDigestKey (sampleTts .empty))
        (ttsMessages sampleDigestKey (sampleTts sampleKeys)) := by
      rw [hplainMessages, hkeyedMessages]
      unfold CollisionFree
      decide +kernel
    have hsame := (htts _ _ hplain hkeyed (hmemory _) (hmemory _) hfree).mp heq
    have hkeys := congrArg (fun keys => keys.get .gemini) hsame.providerKeys
    cases hkeys
  · apply hboth _ _ (hmemory _) hmemory'
    rw [hplainMessages, hsttMessages]
    unfold CollisionFree
    decide +kernel
  · apply hstt _ _ hmemory' hmemory'
    rw [hsttMessages]
    unfold CollisionFree
    decide +kernel

end Waveform.Api
