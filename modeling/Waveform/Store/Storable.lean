import Waveform.Api.Model
import Waveform.Store.System

/-!
# Whether what is admitted can be stored

A request passes `into_domain` before its job is started, and a provider's answer passes the
constructors of the domain before it is held or completed. The tables have checks of their own.
Nothing else in a request can make them refuse it, but PostgreSQL stores no U+0000, which neither
`SpeechText::new` nor `Transcript::new` looks for, and a `bigint` holds no duration of 2^63
milliseconds.

- `storable_iff`: an execution is storable exactly when the first line of its text, or its
  transcript, is free of U+0000 and its duration fits.
- `complete_refused`: a transcript with U+0000 can never be completed.
- `not_forall_storable`: an admitted text that no job can be started with.
-/

set_option autoImplicit false

namespace Waveform.Store

open Waveform.Domain Waveform.Api

/-! ## The held-audio table -/

/-- The upper bound of the `audio` column, in bytes. -/
def maxHeldAudioBytes : Nat := 26214400

/-- The CHECK constraints of `waveform_held_audio`. -/
structure HeldRow.Checks (row : HeldRow) : Prop where
  filename : 1 ≤ row.filename.value.toList.length ∧ row.filename.value.toList.length ≤ 255
  filenameText : storableText row.filename.value = true
  audio : 1 ≤ row.audio.length ∧ row.audio.length ≤ maxHeldAudioBytes
  expiry : row.createdAt < row.expiresAt

instance (row : HeldRow) : Decidable row.Checks :=
  decidable_of_iff ((1 ≤ row.filename.value.toList.length ∧
    row.filename.value.toList.length ≤ 255) ∧
      storableText row.filename.value = true ∧
      (1 ≤ row.audio.length ∧ row.audio.length ≤ maxHeldAudioBytes) ∧ row.createdAt < row.expiresAt)
    ⟨fun ⟨h₁, h₂, h₃, h₄⟩ => ⟨h₁, h₂, h₃, h₄⟩, fun ⟨h₁, h₂, h₃, h₄⟩ => ⟨h₁, h₂, h₃, h₄⟩⟩

/-- Every row of the table passes its checks. -/
def Db.HeldStorable (db : Db) : Prop :=
  ∀ requestId row, db.held requestId = some row → row.Checks

/-- `hold` on a table that checks the row to insert and the row that an update leaves. -/
def holdChecked (retention : Nat) (now : Readings) (audio : HeldAudio) (db : Db) :
    Option (Nat × Db) :=
  if (heldRow retention now audio).Checks ∧
      (heldAfter retention now audio (db.held audio.requestId)).Checks then
    hold retention now audio db
  else none

/-! ## Executions -/

/-- A text-to-speech request that was admitted, and what its execution yields. -/
structure TtsExecution where
  body : TtsRequestBody
  request : TtsRequest
  admitted : body.intoDomain = .ok request
  voice : Option VoiceProfile
  voiceValid : voice.all VoiceProfile.isValid = true
  startedAt : UtcDateTime
  reason : HeldReason
  audio : NormalizedAudio
  storage : AudioStorage
  provider : ProviderName
  provider_mem : provider ∈ ttsProviderChain

namespace TtsExecution

variable (x : TtsExecution)

/-- The job that `synthesize_authorized` starts. -/
def jobStart (scope : IdempotencyScope) (issuingApp : Option ApplicationId)
    (leaseId : IdempotencyLeaseId) : SpeechJobStart where
  voiceProfile := x.voice.map VoiceProfile.toRef
  scope := scope
  issuingApp := issuingApp
  leaseId := leaseId
  firstLine := takeChars maxFirstLineChars (firstLineOf x.request.text.asStr)

/-- The audio that it holds when it does not store it in Briefcase. -/
def heldAudio (requestId : RequestId) (owner : ActorId) : HeldAudio where
  requestId := requestId
  owner := owner
  filename := .forRequest x.startedAt requestId
  audio := x.audio
  reason := x.reason

theorem heldAudio_requestId (requestId : RequestId) (owner : ActorId) :
    (x.heldAudio requestId owner).requestId = requestId := rfl

theorem heldAudio_owner (requestId : RequestId) (owner : ActorId) :
    (x.heldAudio requestId owner).owner = owner := rfl

theorem heldAudio_filename (requestId : RequestId) (owner : ActorId) :
    (x.heldAudio requestId owner).filename = .forRequest x.startedAt requestId := rfl

/-- The response that it completes with. -/
def response (requestId : RequestId) : CompletedSpeechOperation :=
  .tts ⟨x.voice.map VoiceProfile.toRef, requestId, x.storage, x.provider, x.audio.duration⟩

end TtsExecution

/-- A speech-to-text request that was admitted, and what its execution yields: a transcript that the
domain accepts, the language that the provider reports, and the duration of the source. -/
structure SttExecution where
  parse : String → Option Url
  body : SttRequestBody
  request : SttRequest
  admitted : body.intoDomain parse = .ok request
  text : String
  transcript : Transcript
  accepted : Api.transcript text = .ok transcript
  reportedLanguage : Option String
  duration : Option MediaDuration
  provider : ProviderName
  provider_mem : provider ∈ sttProviderChain

namespace SttExecution

/-- The job that `transcribe_authorized` starts, whatever the request. -/
def jobStart (scope : IdempotencyScope) (issuingApp : Option ApplicationId)
    (leaseId : IdempotencyLeaseId) : SpeechJobStart where
  voiceProfile := none
  scope := scope
  issuingApp := issuingApp
  leaseId := leaseId
  firstLine := ""

variable (y : SttExecution)

/-- A reported language that does not parse is dropped. -/
def detectedLanguage : Option LanguageHint :=
  y.reportedLanguage.bind fun language => (LanguageHint.fromStr? language).toOption

/-- The response that it completes with. -/
def response (requestId : RequestId) : CompletedSpeechOperation :=
  .stt ⟨requestId, y.transcript, y.detectedLanguage, y.provider, y.duration⟩

end SttExecution

/-- An execution of either operation. -/
inductive Execution where
  | tts (x : TtsExecution)
  | stt (y : SttExecution)

namespace Execution

/-- The job that the execution starts. -/
def jobStart (scope : IdempotencyScope) (issuingApp : Option ApplicationId)
    (leaseId : IdempotencyLeaseId) : Execution → SpeechJobStart
  | tts x => x.jobStart scope issuingApp leaseId
  | stt _ => SttExecution.jobStart scope issuingApp leaseId

/-- The audio that the execution may hold. -/
def heldAudio? (requestId : RequestId) (owner : ActorId) : Execution → Option HeldAudio
  | tts x => some (x.heldAudio requestId owner)
  | stt _ => none

/-- The response that the execution completes with. -/
def response (requestId : RequestId) : Execution → CompletedSpeechOperation
  | tts x => x.response requestId
  | stt y => y.response requestId

/-- No database refuses the content: whenever a call with some content goes through, the same call
with the content of this execution goes through. -/
structure Storable (x : Execution) : Prop where
  starts : ∀ now db db' scope issuingApp leaseId voiceProfile firstLine,
    startJobInner now ⟨voiceProfile, scope, issuingApp, leaseId, firstLine⟩ db = .ok db' →
    ∃ db'', startJobInner now (x.jobStart scope issuingApp leaseId) db = .ok db''
  holds : ∀ retention now db result requestId owner audio, db.HeldStorable →
    x.heldAudio? requestId owner = some audio →
    (∃ other : HeldAudio, other.requestId = requestId ∧ other.owner = owner ∧
      holdChecked retention now other db = some result) →
    ∃ result', holdChecked retention now audio db = some result'
  completes : ∀ settings now db db' scope leaseId response,
    completeInner settings now ⟨scope, leaseId, response⟩ db = .ok db' →
    response.operation = (x.response response.requestId).operation →
    ∃ db'', completeInner settings now ⟨scope, leaseId, x.response response.requestId⟩ db = .ok db''

/-- The condition on the content. -/
def fits : Execution → Bool
  | tts x => storableText (takeChars maxFirstLineChars (firstLineOf x.body.text)) &&
      decide (x.audio.duration.asMillis < 2 ^ 63)
  | stt y => storableText y.text && y.duration.all fun duration => duration.asMillis < 2 ^ 63

end Execution

/-! ## Text -/

theorem storableText_iff {text : String} :
    storableText text = true ↔ Char.ofNat 0 ∉ text.toList := by
  simp [storableText]

/-- Text of characters that pass a test which U+0000 fails is storable. -/
theorem storableText_of_all {text : String} {p : Char → Bool} (hnul : p (Char.ofNat 0) = false)
    (h : text.toList.all p = true) : storableText text = true := by
  rw [storableText_iff]
  intro hmem
  have hp := List.all_eq_true.mp h _ hmem
  rw [hnul] at hp
  exact nomatch hp

theorem takeChars_takeChars (n : Nat) (text : String) :
    takeChars n (takeChars n text) = takeChars n text := by
  simp [takeChars, List.take_take]

/-- The profile of a valid voice has a storable id. -/
theorem voiceRef_storable {voice : Option VoiceProfile}
    (h : voice.all VoiceProfile.isValid = true) :
    ((voice.map VoiceProfile.toRef).all fun profile => storableText profile.id) = true := by
  cases voice with
  | none => rfl
  | some profile =>
      simp only [Option.all_some, VoiceProfile.isValid, validProfileId, Bool.and_eq_true] at h
      exact storableText_of_all (by decide) h.1.1.1.1.1.1.1.1.1.2

theorem languageHint_storable {value : String} {hint : LanguageHint}
    (h : LanguageHint.fromStr? value = .ok hint) : storableText hint.asStr = true := by
  cases hcanonical : canonicalize value with
  | error error => simp [LanguageHint.fromStr?, hcanonical, Except.map] at h
  | ok canonical =>
      obtain rfl : ⟨canonical⟩ = hint := by
        simpa [LanguageHint.fromStr?, hcanonical, Except.map] using h
      exact storableText_of_all (by decide) (canonicalize_clean hcanonical)

theorem detectedLanguage_storable (y : SttExecution) :
    (y.detectedLanguage.all fun language => storableText language.asStr) = true := by
  rw [Option.all_eq_true]
  intro hint hhint
  obtain ⟨language, _, hparse⟩ := Option.bind_eq_some_iff.mp hhint
  cases hok : LanguageHint.fromStr? language with
  | error error => simp [hok, Except.toOption] at hparse
  | ok parsed =>
      obtain rfl : parsed = hint := by simpa [hok, Except.toOption] using hparse
      exact languageHint_storable hok

/-! ## File names -/

theorem digitChar_ne_nul (n : Nat) : Nat.digitChar n ≠ Char.ofNat 0 := by
  have hdigits : ∀ digit : Fin 16, Nat.digitChar digit ≠ Char.ofNat 0 := by decide
  by_cases hn : n < 16
  · exact hdigits ⟨n, hn⟩
  · have hother : Nat.digitChar n = '*' := by
      unfold Nat.digitChar
      iterate 16 rw [if_neg (by omega)]
    rw [hother]
    decide

theorem fixedDigits_ne_nul (base width n : Nat) : Char.ofNat 0 ∉ fixedDigits base width n := by
  induction width generalizing n with
  | zero => exact List.not_mem_nil
  | succ width ih =>
      rw [fixedDigits, List.mem_append, not_or]
      refine ⟨ih _, ?_⟩
      rw [List.mem_singleton]
      exact (digitChar_ne_nul _).symm

theorem hyphenated_length (uuid : Uuid) : uuid.hyphenated.length = 36 := by
  simp [Uuid.hyphenated]

theorem hyphenated_ne_nul (uuid : Uuid) : Char.ofNat 0 ∉ uuid.hyphenated := by
  have hdigits := fixedDigits_ne_nul 16 32 uuid
  have hne : Char.ofNat 0 ≠ '-' := by decide
  simp only [Uuid.hyphenated, List.mem_append, List.mem_cons, not_or]
  refine ⟨⟨⟨⟨?_, hne, ?_⟩, hne, ?_⟩, hne, ?_⟩, hne, ?_⟩
  · exact fun h => hdigits (List.mem_of_mem_take h)
  · exact fun h => hdigits (List.mem_of_mem_drop (List.mem_of_mem_take h))
  · exact fun h => hdigits (List.mem_of_mem_drop (List.mem_of_mem_take h))
  · exact fun h => hdigits (List.mem_of_mem_drop (List.mem_of_mem_take h))
  · exact fun h => hdigits (List.mem_of_mem_drop h)

/-- A generated file name has 60 characters. -/
theorem generatedFileName_length (utc : UtcDateTime) (requestId : RequestId) :
    (generatedFileName utc requestId).length = 60 := by
  simp only [generatedFileName, List.length_append, fixedDigits_length, hyphenated_length,
    List.length_cons, List.length_nil]

theorem generatedFileName_ne_nul (utc : UtcDateTime) (requestId : RequestId) :
    Char.ofNat 0 ∉ generatedFileName utc requestId := by
  have hlabel : Char.ofNat 0 ∉ ['t', 't', 's', '_'] := by decide
  have hseparator : Char.ofNat 0 ∉ ['_'] := by decide
  have hextension : Char.ofNat 0 ∉ ['.', 'm', 'p', '3'] := by decide
  simp only [generatedFileName, List.mem_append, fixedDigits_ne_nul, hyphenated_ne_nul, hlabel,
    hseparator, hextension, or_self, not_false_eq_true]

/-! ## The three statements -/

theorem intoDomain_text {body : TtsRequestBody} {request : TtsRequest}
    (h : body.intoDomain = .ok request) : request.text.asStr = body.text := by
  unfold TtsRequestBody.intoDomain at h
  obtain ⟨text, htext, h⟩ := Except.bind_eq_ok.mp h
  obtain ⟨language, _, h⟩ := Except.bind_eq_ok.mp h
  have hvalue : text.asStr = body.text := by
    unfold speechText at htext
    split at htext
    · split at htext
      · cases htext
        rfl
      · exact nomatch htext
    · exact nomatch htext
  split at h
  · exact nomatch h
  split at h
  · exact nomatch h
  split at h
  · exact nomatch h
  split at h
  · exact nomatch h
  cases h
  exact hvalue

theorem transcript_asStr {text : String} {result : Transcript}
    (h : Api.transcript text = .ok result) : result.asStr = text := by
  unfold Api.transcript at h
  split at h
  · cases h
    rfl
  · cases h

/-- A start goes through with any content that can be stored, once it goes through with some. -/
theorem startJobInner_storable {now : Readings} {db db' : Db} {scope : IdempotencyScope}
    {issuingApp : Option ApplicationId} {leaseId : IdempotencyLeaseId}
    {voiceProfile voiceProfile' : Option VoiceProfileRef} {firstLine firstLine' : String}
    (h : startJobInner now ⟨voiceProfile, scope, issuingApp, leaseId, firstLine⟩ db = .ok db')
    (hline : storableText (takeChars maxFirstLineChars firstLine') = true)
    (hvoice : (voiceProfile'.all fun profile => storableText profile.id) = true) :
    ∃ db'', startJobInner now ⟨voiceProfile', scope, issuingApp, leaseId, firstLine'⟩ db =
      .ok db'' := by
  obtain ⟨hplane, stored, leaseExpiresAt, hstored, hstate, hunexpired, _, haccept, _⟩ :=
    startJobInner_ok.mp h
  refine ⟨_, startJobInner_ok.mpr ⟨hplane, stored, leaseExpiresAt, hstored, hstate, hunexpired, ?_,
    haccept, rfl⟩⟩
  simp only [JobRow.storable, startedJob, hline, hvoice, Bool.and_self]

/-- A completion goes through with any response of the operation that can be stored, once it goes
through with some. -/
theorem completeInner_storable {settings : IdempotencySettings} {now : Readings} {db db' : Db}
    {scope : IdempotencyScope} {leaseId : IdempotencyLeaseId}
    {response response' : CompletedSpeechOperation} {encoded : StoredResponse}
    (h : completeInner settings now ⟨scope, leaseId, response⟩ db = .ok db')
    (hoperation : response'.operation = response.operation)
    (hid : response'.requestId = response.requestId)
    (hencode : encodeResponse response' = .ok encoded) (hstorable : encoded.storable = true)
    (hfits : durationFits response' = true) :
    ∃ db'', completeInner settings now ⟨scope, leaseId, response'⟩ db = .ok db'' := by
  obtain ⟨_, stored, leaseExpiresAt, row, hop, _, _, _, hstored, hstate, hrequest, hrow,
    htoken, _⟩ :=
    completeInner_ok.mp h
  exact ⟨_, completeInner_ok.mpr ⟨encoded, stored, leaseExpiresAt, row,
    hoperation.trans hop, hencode,
    hstorable, hfits, hstored, hstate, hid.trans hrequest, hrow, htoken, rfl⟩⟩

/-- A generated file name passes the checks of the table. -/
theorem forRequest_checks (utc : UtcDateTime) (requestId : RequestId) :
    (1 ≤ (GeneratedAudioFileName.forRequest utc requestId).value.toList.length ∧
      (GeneratedAudioFileName.forRequest utc requestId).value.toList.length ≤ 255) ∧
      storableText (GeneratedAudioFileName.forRequest utc requestId).value = true := by
  rw [storableText_iff, GeneratedAudioFileName.forRequest, String.toList_ofList,
    generatedFileName_length]
  exact ⟨by omega, generatedFileName_ne_nul _ _⟩

/-- Normalized audio passes the checks of the table. -/
theorem normalizedAudio_checks (audio : NormalizedAudio) :
    1 ≤ audio.bytes.length ∧ audio.bytes.length ≤ maxHeldAudioBytes :=
  ⟨List.length_pos_iff.mpr audio.nonEmpty, Nat.le_trans audio.bounded (by decide)⟩

/-- Audio whose file name passes the checks is held wherever some audio of the request is. -/
theorem holdChecked_of_filename {retention : Nat} {now : Readings} {db : Db} {result : Nat × Db}
    {audio other : HeldAudio} (hid : audio.requestId = other.requestId)
    (hsame : audio.owner = other.owner)
    (hfilename : (1 ≤ audio.filename.value.toList.length ∧
      audio.filename.value.toList.length ≤ 255) ∧
      storableText audio.filename.value = true)
    (hrows : db.HeldStorable) (h : holdChecked retention now other db = some result) :
    ∃ result', holdChecked retention now audio db = some result' := by
  obtain ⟨⟨hother, _⟩, hhold⟩ := Option.ite_none_right_eq_some.mp h
  obtain ⟨howner, _⟩ := hold_eq_some.mp hhold
  have hinserted : (heldRow retention now audio).Checks :=
    ⟨hfilename.1, hfilename.2, normalizedAudio_checks audio.audio, hother.expiry⟩
  have hafter : (heldAfter retention now audio (db.held audio.requestId)).Checks := by
    cases hrow : db.held audio.requestId with
    | none => exact hinserted
    | some row =>
        have hchecks := hrows _ row hrow
        exact ⟨hchecks.filename, hchecks.filenameText, normalizedAudio_checks audio.audio,
          hchecks.expiry⟩
  have howner' : ∀ row, db.held audio.requestId = some row → row.storageActorId = audio.owner := by
    rw [hid, hsame]
    exact howner
  have hheld := (@hold_eq_some retention now audio db _ _).mpr ⟨howner', rfl, rfl⟩
  unfold holdChecked
  rw [if_pos ⟨hinserted, hafter⟩]
  exact ⟨_, hheld⟩

/-! ## The condition -/

/-- The response of a synthesis is encoded, and storable. -/
theorem encode_tts (x : TtsExecution) (requestId : RequestId) :
    ∃ encoded, encodeResponse (x.response requestId) = .ok encoded ∧ encoded.storable = true := by
  have hvoice := voiceRef_storable x.voiceValid
  simp only [TtsExecution.response, encodeResponse, x.provider_mem, if_true]
  cases x.storage with
  | briefcase permanentUrl =>
      refine ⟨_, rfl, ?_⟩
      simp only [StoredResponse.storable, hvoice, Option.all_none, Bool.and_self]
  | held reason audioUrl expiresAt =>
      have hreason : storableText reason.asStr = true := by cases reason <;> decide
      refine ⟨_, rfl, ?_⟩
      simp only [StoredResponse.storable, hvoice, Option.all_some, hreason, Bool.and_self]

/-- The response of a transcription is encoded, and storable when its transcript is. -/
theorem encode_stt (y : SttExecution) (requestId : RequestId) :
    ∃ encoded, encodeResponse (y.response requestId) = .ok encoded ∧
      encoded.storable = storableText y.text := by
  simp only [SttExecution.response, encodeResponse, y.provider_mem, if_true]
  refine ⟨_, rfl, ?_⟩
  simp only [StoredResponse.storable, detectedLanguage_storable, Bool.and_true,
    transcript_asStr y.accepted]

theorem durationFits_tts (x : TtsExecution) (requestId : RequestId) :
    durationFits (x.response requestId) = decide (x.audio.duration.asMillis < 2 ^ 63) := by
  simp only [durationFits, completedJobColumns, TtsExecution.response, Option.all_some]

theorem durationFits_stt (y : SttExecution) (requestId : RequestId) :
    durationFits (y.response requestId) =
      y.duration.all fun duration => duration.asMillis < 2 ^ 63 := by
  simp only [durationFits, completedJobColumns, SttExecution.response]

/-- What fits is refused by no database. -/
theorem Execution.storable_of_fits {x : Execution} (h : x.fits = true) : x.Storable := by
  cases x with
  | tts x =>
      simp only [Execution.fits, Bool.and_eq_true] at h
      obtain ⟨hline, hduration⟩ := h
      have hvoice := voiceRef_storable x.voiceValid
      refine ⟨?_, ?_, ?_⟩
      · intro now db db' scope issuingApp leaseId voiceProfile firstLine hstart
        apply startJobInner_storable hstart _ hvoice
        rw [takeChars_takeChars, intoDomain_text x.admitted]
        exact hline
      · rintro retention now db result requestId owner audio hrows haudio ⟨other, rfl, rfl, hother⟩
        obtain rfl := Option.some.inj haudio
        have hfilename := forRequest_checks x.startedAt other.requestId
        rw [← x.heldAudio_filename other.requestId other.owner] at hfilename
        exact holdChecked_of_filename (x.heldAudio_requestId _ _) (x.heldAudio_owner _ _) hfilename
          hrows hother
      · intro settings now db db' scope leaseId response hcomplete hoperation
        obtain ⟨encoded, hencode, hstorable⟩ := encode_tts x response.requestId
        exact completeInner_storable hcomplete hoperation.symm rfl hencode hstorable
          ((durationFits_tts x _).trans hduration)
  | stt y =>
      simp only [Execution.fits, Bool.and_eq_true] at h
      obtain ⟨htext, hduration⟩ := h
      refine ⟨?_, ?_, ?_⟩
      · intro now db db' scope issuingApp leaseId voiceProfile firstLine hstart
        exact startJobInner_storable hstart (by decide) rfl
      · intro retention now db result requestId owner audio _ hnone _
        exact nomatch hnone
      · intro settings now db db' scope leaseId response hcomplete hoperation
        obtain ⟨encoded, hencode, hstorable⟩ := encode_stt y response.requestId
        exact completeInner_storable hcomplete hoperation.symm rfl hencode (hstorable.trans htext)
          ((durationFits_stt y _).trans hduration)

/-! ## What does not fit -/

/-- A start with a line that cannot be stored fails in every database. -/
theorem start_refused {now : Readings} {job : SpeechJobStart} {db : Db}
    (h : storableText (takeChars maxFirstLineChars job.firstLine) = false) :
    ∀ db', startJobInner now job db ≠ .ok db' := by
  intro db' hstart
  obtain ⟨_, stored, _, _, _, _, hstorable, _⟩ := startJobInner_ok.mp hstart
  simp only [JobRow.storable, startedJob, h, Bool.false_and] at hstorable
  exact nomatch hstorable

/-- **A transcript with U+0000 can never be completed**, on no retry and in no database. -/
theorem complete_refused {settings : IdempotencySettings} {now : Readings} {db : Db}
    {scope : IdempotencyScope} {leaseId : IdempotencyLeaseId} {requestId : RequestId}
    (y : SttExecution) (h : storableText y.text = false) :
    ∀ db', completeInner settings now ⟨scope, leaseId, y.response requestId⟩ db ≠ .ok db' := by
  intro db' hcomplete
  obtain ⟨encoded, _, _, _, _, hencode, hstorable, _⟩ := completeInner_ok.mp hcomplete
  obtain ⟨encoded', hencode', hstorable'⟩ := encode_stt y requestId
  obtain rfl := Except.ok.inj (hencode.symm.trans hencode')
  rw [hstorable', h] at hstorable
  exact nomatch hstorable

/-- A completion with a duration of 2^63 milliseconds or more fails in every database. -/
theorem complete_refused_duration {settings : IdempotencySettings} {now : Readings} {db : Db}
    {completion : IdempotencyCompletion} (h : durationFits completion.response = false) :
    ∀ db', completeInner settings now completion db ≠ .ok db' := by
  intro db' hcomplete
  obtain ⟨_, _, _, _, _, _, _, hfits, _⟩ := completeInner_ok.mp hcomplete
  rw [h] at hfits
  exact nomatch hfits

/-- A record that the attempt holds a lease of. -/
def leasedRecord (leaseId : IdempotencyLeaseId) : RecordRow where
  requestDigest := Vector.replicate 32 0
  requestId := sampleRequestId
  state := .pending leaseId 1
  createdAt := 0
  updatedAt := 0
  expiresAt := 1

/-- A database in which the attempt can start the job of the scope. -/
def startableDb (scope : IdempotencyScope) (leaseId : IdempotencyLeaseId) : Db where
  planes := fun _ => true
  records := Function.update (fun _ => none) scope (some (leasedRecord leaseId))
  jobs := fun _ => none
  held := fun _ => none

/-- Some content starts a job in it. -/
theorem startable (scope : IdempotencyScope) (leaseId : IdempotencyLeaseId) :
    ∃ db', startJobInner (.at 0) ⟨none, scope, none, leaseId, ""⟩ (startableDb scope leaseId) =
      .ok db' := by
  have hrecord : (startableDb scope leaseId).records scope = some (leasedRecord leaseId) := by
    simp [startableDb]
  have hline : storableText (takeChars maxFirstLineChars "") = true := by decide
  have hnone : ∀ row, (startableDb scope leaseId).jobs sampleRequestId ≠ some row := by
    intro row hrow
    exact nomatch hrow
  refine ⟨_, startJobInner_ok.mpr ⟨rfl, leasedRecord leaseId, 1, hrecord, rfl, Nat.zero_lt_one, ?_,
    fun row hrow => absurd hrow (hnone row), rfl⟩⟩
  simp only [JobRow.storable, startedJob, hline, Option.all_none, Bool.and_self]

/-- A response of the operation that every database stores. -/
def plainResponse : SpeechOperation → CompletedSpeechOperation
  | .tts => .tts sampleResult
  | .stt => .stt ⟨sampleRequestId, ⟨"", by decide⟩, none, .gemini, none⟩

/-- A database in which the attempt can complete the record of the scope. -/
def completableDb (scope : IdempotencyScope) (leaseId : IdempotencyLeaseId) : Db :=
  (startableDb scope leaseId).setJob sampleRequestId
    (some (startedJob (leasedRecord leaseId) ⟨none, scope, none, leaseId, ""⟩))

/-- Some response completes the record in it. -/
theorem completable (settings : IdempotencySettings) (scope : IdempotencyScope)
    (leaseId : IdempotencyLeaseId) :
    ∃ db', completeInner settings (.at 0) ⟨scope, leaseId, plainResponse scope.operation⟩
      (completableDb scope leaseId) = .ok db' := by
  have hrecord : (completableDb scope leaseId).records scope = some (leasedRecord leaseId) := by
    simp [completableDb, startableDb]
  have hjob : (completableDb scope leaseId).jobs sampleRequestId =
      some (startedJob (leasedRecord leaseId) ⟨none, scope, none, leaseId, ""⟩) := by
    simp [completableDb]
  have hplain : ∀ operation, (plainResponse operation).requestId = sampleRequestId ∧
      (plainResponse operation).operation = operation ∧
      durationFits (plainResponse operation) = true ∧
      ∃ encoded, encodeResponse (plainResponse operation) = .ok encoded ∧
        encoded.storable = true := by
    intro operation
    cases operation with
    | tts => exact ⟨rfl, rfl, by decide, _, rfl, by decide⟩
    | stt => exact ⟨rfl, rfl, by decide, _, rfl, by decide⟩
  obtain ⟨hrequest, hoperation, hfits, encoded, hencode, hstorable⟩ := hplain scope.operation
  exact ⟨_, completeInner_ok.mpr ⟨encoded, leasedRecord leaseId, 1, _, hoperation,
    hencode, hstorable,
    hfits, hrecord, rfl, hrequest, hjob, rfl, rfl⟩⟩

/-- **An execution is storable exactly when its content fits.** -/
theorem storable_iff (x : Execution) : x.Storable ↔ x.fits = true := by
  refine ⟨?_, Execution.storable_of_fits⟩
  intro h
  obtain ⟨_, hstart⟩ := startable sampleScope (sampleLease 0)
  obtain ⟨_, hstarts⟩ := h.starts _ _ _ _ _ _ _ _ hstart
  cases x with
  | tts x =>
      obtain ⟨_, hcomplete⟩ := completable sampleSettings sampleScope (sampleLease 0)
      obtain ⟨_, hcompletes⟩ := h.completes _ _ _ _ _ _ _ hcomplete rfl
      simp only [Execution.fits, Bool.and_eq_true]
      constructor
      · by_contra hline
        apply start_refused _ _ hstarts
        simpa only [Execution.jobStart, TtsExecution.jobStart, takeChars_takeChars,
          intoDomain_text x.admitted, Bool.not_eq_true] using hline
      · by_contra hduration
        apply complete_refused_duration _ _ hcompletes
        simpa only [Execution.response, durationFits_tts, Bool.not_eq_true] using hduration
  | stt y =>
      obtain ⟨_, hcomplete⟩ := completable sampleSettings
        { sampleScope with operation := .stt } (sampleLease 0)
      obtain ⟨_, hcompletes⟩ := h.completes _ _ _ _ _ _ _ hcomplete rfl
      simp only [Execution.fits, Bool.and_eq_true]
      constructor
      · by_contra htext
        exact complete_refused y (Bool.not_eq_true _ ▸ htext) _ hcompletes
      · by_contra hduration
        apply complete_refused_duration _ _ hcompletes
        simpa only [Execution.response, durationFits_stt, Bool.not_eq_true] using hduration

/-- A body whose text contains U+0000. -/
def nulBody : TtsRequestBody where
  autoFallback := false
  providerOptions := .default
  providerKeys := .empty
  text := String.ofList ['H', 'i', Char.ofNat 0]
  voiceProfile := none
  lang := none
  providerOrder := none

/-- Its execution. -/
def nulExecution : TtsExecution where
  body := nulBody
  request := ⟨false, .default, .empty, ⟨nulBody.text, by decide +kernel, by decide +kernel⟩,
    none, none, none⟩
  admitted := rfl
  voice := none
  voiceValid := rfl
  startedAt := .newYear
  reason := .storageNotAuthorized
  audio := (sampleAudio sampleScope 1).audio
  storage := sampleResult.storage
  provider := .gemini
  provider_mem := by decide

/-- Admitted values are not all storable. -/
theorem not_forall_storable : ¬ ∀ x : Execution, x.Storable := by
  intro h
  have hfits := (storable_iff (.tts nulExecution)).mp (h _)
  have hnul : (Execution.tts nulExecution).fits = false := by decide +kernel
  rw [hnul] at hfits
  exact nomatch hfits

end Waveform.Store
