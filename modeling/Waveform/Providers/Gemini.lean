import Waveform.Providers.Exchange
import Waveform.Service.Attempt

/-!
# Transcription with Gemini

An attempt uploads the media, waits until the file is active, asks for the transcript and deletes
the file. One deadline stands over all of it, and the exchanges after the upload share one retry. A
guard holds the name of the uploaded file until the deletion takes it over.

The texts that third-party parsers read are parameters (`GeminiText`). The loop that waits is given
a number of rounds; it returns nothing when they are used up.

- `ends_transcribeMedia`: an attempt ends before its start, or after it.
-/

set_option autoImplicit false

namespace Waveform.Providers

open Dialogue Deadlines
open Domain (Url SourceMediaType SttProviderRequest SttProviderResult Transcript LanguageHint)
open Service (urlOrigin)

/-- `FILE_POLL_INTERVAL`. -/
def filePollInterval : Nat := millis 250

/-- `GeminiFile`. -/
structure GeminiFile where
  name : String
  uri : String
  mimeType : String
  state : String

/-- `GeminiContent`, for text. -/
structure GeminiContent where
  kind : String
  text : Option String

/-- `GeminiStep`. -/
structure GeminiStep where
  content : List GeminiContent

/-- `GeminiInteraction`. -/
structure GeminiInteraction where
  status : String
  steps : List GeminiStep

/-- `GeminiSttRequest`. -/
structure GeminiSttRequest where
  model : String
  uri : String
  mimeType : String
  languageCodes : List String

/-- The requests of an attempt. The key is in the header of all but the upload of the bytes. -/
inductive GeminiRequest where
  | startUpload (url : Url) (apiKey contentLength mediaType displayName : String)
  | finalizeUpload (url : Url) (contentLength mediaType : String) (body : List UInt8)
  | pollFile (url : Url) (apiKey : String)
  | interact (url : Url) (apiKey : String) (body : GeminiSttRequest)
  | deleteFile (url : Url) (apiKey : String)

/-- What the parsers of JSON, URLs and dates read. -/
structure GeminiText where
  parseFileEnvelope : List UInt8 → Option GeminiFile
  parseFile : List UInt8 → Option GeminiFile
  parseInteraction : List UInt8 → Option GeminiInteraction
  parseUrl : String → Option Url
  parseRfc2822 : List Char → Option Int

/-- `GeminiProvider`, for speech-to-text. -/
structure GeminiProvider where
  text : GeminiText
  writer : SegmentWriter
  apiKey : String
  sttHttp : ProviderHttpConfig
  sttModel : String

/-- `as_mime_str`. -/
def asMimeStr : SourceMediaType → String
  | .mpeg => "audio/mpeg"
  | .wav => "audio/wav"
  | .flac => "audio/flac"
  | .ogg => "audio/ogg"
  | .webM => "audio/webm"
  | .mp4 => "audio/mp4"
  | .aac => "audio/aac"
  | .m4a => "audio/m4a"
  | .mp4Video => "video/mp4"
  | .mpegVideo => "video/mpeg"
  | .webMVideo => "video/webm"

/-- `media_filename`. -/
def mediaFilename : SourceMediaType → String
  | .mpeg => "audio.mp3"
  | .wav => "audio.wav"
  | .flac => "audio.flac"
  | .ogg => "audio.ogg"
  | .webM => "audio.webm"
  | .mp4 => "audio.mp4"
  | .aac => "audio.aac"
  | .m4a => "audio.m4a"
  | .mp4Video => "media.mp4"
  | .mpegVideo => "media.mpeg"
  | .webMVideo => "media.webm"

/-- `gemini_language_hint`. -/
def geminiLanguageHint (language : String) : String :=
  if language = "en" then "en-US"
  else if language = "es" then "es-419"
  else if language = "fr" then "fr-FR"
  else if language = "de" then "de-DE"
  else if language = "hi" then "hi-IN"
  else if language = "ru" then "ru-RU"
  else if language = "pt" then "pt-BR"
  else if language = "ja" then "ja-JP"
  else if language = "it" then "it-IT"
  else if language = "nl" then "nl-NL"
  else language

/-- `validate_file`. -/
def validateFile (file : GeminiFile) : Except ProviderError GeminiFile :=
  if file.name = "" ∨ file.uri = "" ∨ file.mimeType = "" then .error .invalidResponse else .ok file

/-- A file as it is read out of a body. -/
def readFile (parsed : Option GeminiFile) : Except ProviderError GeminiFile :=
  match parsed with
  | some file => validateFile file
  | none => .error .invalidResponse

/-- `valid_file_name`. -/
def validFileName (name : String) : Bool :=
  "files/".toList.isPrefixOf name.toList && !(name.toList.drop 6).isEmpty &&
    (name.toList.drop 6).all fun c => c.isAlphanum || c == '-' || c == '_'

/-- `parse_completed_interaction`. -/
def parseCompletedInteraction (text : GeminiText) (body : List UInt8) :
    Except ProviderError GeminiInteraction :=
  match text.parseInteraction body with
  | none => .error .invalidResponse
  | some interaction =>
      if interaction.status = "completed" then .ok interaction
      else if interaction.status ∈ ["failed", "cancelled", "incomplete", "budget_exceeded",
        "queued"] then
        .error (.new .rejected)
      else .error .invalidResponse

/-- `transcription_result`, without a language and a duration. -/
def transcriptionResult (text : String) : Except ProviderError SttProviderResult :=
  match Transcript.new? text with
  | some transcript => .ok ⟨transcript, none, none⟩
  | none => .error .invalidResponse

/-- The transcript of an interaction: all its texts, of which there is at least one. -/
def readTranscript (interaction : GeminiInteraction) : Except ProviderError SttProviderResult :=
  match ((interaction.steps.flatMap GeminiStep.content).filter (·.kind == "text")).mapM
    GeminiContent.text with
  | none => .error .invalidResponse
  | some [] => .error .invalidResponse
  | some parts => transcriptionResult (String.join parts)

/-- A program of the adapter. -/
abbrev GeminiProgram (α : Type) := ProviderProgram GeminiRequest α

/-- `GeminiFileCleanup`: the guard holds the name, or nothing once it is taken. -/
def hold (name : Option String) : GeminiProgram Unit :=
  perform (ProviderOp.hold name)

/-- `spawn_cleanup` in a runtime; without one it only logs. -/
def spawnCleanup (name : String) : GeminiProgram Unit :=
  perform (ProviderOp.spawnCleanup name)

/-- `log_cleanup_failure`. -/
def logCleanupFailure (kind : ProviderErrorKind) : GeminiProgram Unit :=
  perform (ProviderOp.logCleanupFailure kind)

namespace GeminiProvider

variable (provider : GeminiProvider)

/-- `url` of the runtime. -/
def url (endpoint : String) : Except ProviderError Url :=
  providerUrl provider.writer provider.sttHttp.baseUrl endpoint

/-- A program with the URL of an endpoint, if there is one. No proof looks into the URL of a fixed
endpoint. -/
@[irreducible] def withUrl {α : Type} (endpoint : String)
    (f : Url → GeminiProgram (Except ProviderError α)) :
    GeminiProgram (Except ProviderError α) :=
  match provider.url endpoint with
  | .ok url => f url
  | .error error => .done (.error error)

theorem withUrl_ok {α : Type} {provider : GeminiProvider} {endpoint : String} {url : Url}
    (h : provider.url endpoint = .ok url) (f : Url → GeminiProgram (Except ProviderError α)) :
    provider.withUrl endpoint f = f url := by
  rw [withUrl, h]

/-- `same_origin`, with the base URL. -/
def sameOrigin (candidate : Url) : Bool :=
  urlOrigin candidate == urlOrigin provider.sttHttp.baseUrl.url

/-- Where the bytes go: the address in the header, if it is of the provider. -/
def uploadUrl (start : BoundedResponse) : Option Url :=
  (start.uploadUrl.bind provider.text.parseUrl).filter provider.sameOrigin

/-- `upload_file`. -/
def uploadFile (request : SttProviderRequest) : GeminiProgram (Except ProviderError GeminiFile) :=
  provider.withUrl "upload/v1beta/files" fun startUrl =>
    (executeWithoutRetry provider.sttHttp
      (.startUpload startUrl provider.apiKey (toString request.media.bytes.length)
      (asMimeStr request.media.mediaType) (mediaFilename request.media.mediaType))).andThen
        fun start =>
        match provider.uploadUrl start with
        | none => .done (.error .invalidResponse)
        | some uploadUrl =>
            (executeWithoutRetry provider.sttHttp
              (.finalizeUpload uploadUrl (toString request.media.bytes.length)
              (asMimeStr request.media.mediaType) request.media.bytes)).andThen fun uploaded =>
                .done (readFile (provider.text.parseFileEnvelope uploaded.body))

/-- One round of `wait_until_active`: a pause, and the file as it is now, with the retry budget that
is left. -/
def pollFile (file : GeminiFile) (consumed : Bool) :
    GeminiProgram (Except ProviderError (GeminiFile × Bool)) :=
  (sleep filePollInterval).bind fun _ =>
    provider.withUrl ("v1beta/" ++ file.name) fun url =>
      (executeWithRetryBudget provider.sttHttp provider.text.parseRfc2822
        (.pollFile url provider.apiKey)
        consumed).andThen fun answer =>
          .done ((readFile (provider.text.parseFile answer.1.body)).map fun file =>
            (file, answer.2))

/-- `wait_until_active`, for a number of rounds. -/
def waitUntilActive : Nat → GeminiFile → Bool →
    GeminiProgram (Option (Except ProviderError (GeminiFile × Bool)))
  | 0, _, _ => .done none
  | rounds + 1, file, consumed =>
      if file.state = "ACTIVE" then .done (some (.ok (file, consumed)))
      else if file.state = "FAILED" then .done (some (.error (.new .rejected)))
      else if file.state = "PROCESSING" then
        (provider.pollFile file consumed).bind fun
          | .ok (file, consumed) => waitUntilActive rounds file consumed
          | .error error => .done (some (.error error))
      else .done (some (.error .invalidResponse))

/-- `transcribe_file`. -/
def transcribeFile (file : GeminiFile) (language : Option String) (consumed : Bool) :
    GeminiProgram (Except ProviderError SttProviderResult) :=
  provider.withUrl "v1beta/interactions" fun url =>
    (executeWithRetryBudget provider.sttHttp provider.text.parseRfc2822
      (.interact url provider.apiKey
      ⟨provider.sttModel, file.uri, file.mimeType, (language.map geminiLanguageHint).toList⟩)
        consumed).andThen
        fun answer => .done ((parseCompletedInteraction provider.text answer.1.body).bind
          readTranscript)

/-- What an attempt does with the uploaded file. -/
def useFile (rounds : Nat) (file : GeminiFile) (language : Option String) :
    GeminiProgram (Option (Except ProviderError SttProviderResult)) :=
  (provider.waitUntilActive rounds file false).bind fun
    | none => .done none
    | some (.error error) => .done (some (.error error))
    | some (.ok (active, consumed)) => (provider.transcribeFile active language consumed).bind
        fun result =>
        .done (some result)

/-- `delete_file`. -/
def deleteFile (name : String) : GeminiProgram (Except ProviderError Unit) :=
  if validFileName name = true then
    provider.withUrl ("v1beta/" ++ name) fun url =>
      (executeWithoutRetry provider.sttHttp (.deleteFile url provider.apiKey)).andThen fun _ =>
        .done (.ok ())
  else .done (.error .invalidResponse)

/-- What `run_until` does with the outcome of the deletion. -/
def afterDeletion (name : String) : Option (Except ProviderError Unit) → GeminiProgram Unit
  | some (.ok _) => .done ()
  | some (.error error) => logCleanupFailure error.kind
  | none => (logCleanupFailure .timeout).bind fun _ => spawnCleanup name

/-- `run_until`: the guard's name is taken first. -/
def runUntil (name : String) (deadline : Nat) : GeminiProgram Unit :=
  (hold none).bind fun _ => instantNow.bind fun now =>
    if deadline ≤ now then spawnCleanup name
    else (timeoutAt deadline (provider.deleteFile name)).bind (afterDeletion name)

/-- `transcribe_media` once the file is uploaded. -/
def finish (rounds : Nat) (file : GeminiFile) (language : Option String) (deadline : Nat) :
    GeminiProgram (Option (Except ProviderError SttProviderResult)) :=
  (hold (some file.name)).bind fun _ =>
    (timeoutAt deadline (provider.useFile rounds file language)).bind fun
      | some none => .done none
      | some (some result) => (provider.runUntil file.name deadline).bind fun _ =>
          .done (some result)
      | none => (provider.runUntil file.name deadline).bind fun _ =>
          .done (some (.error (.new .timeout)))

/-- `transcribe_media` with the permit, from its start. -/
def attempt (rounds : Nat) (request : SttProviderRequest) (started : Nat) :
    GeminiProgram (Option (Except ProviderError SttProviderResult)) :=
  (timeoutAt (started + provider.sttHttp.timeout) (provider.uploadFile request)).bind
    fun uploaded =>
    match orTimeout uploaded with
    | .error error => .done (some (.error error))
    | .ok file =>
        provider.finish rounds file (request.language.map LanguageHint.asStr)
        (started + provider.sttHttp.timeout)

/-- `transcribe_media`. -/
def transcribeMedia (rounds : Nat) (request : SttProviderRequest) :
    GeminiProgram (Option (Except ProviderError SttProviderResult)) :=
  (tryAcquire provider.apiKey).bind fun
    | .error error => .done (some (.error error))
    | .ok _ => instantNow.bind fun started => provider.attempt rounds request started

end GeminiProvider

/-! ## How an attempt ends -/

/-- The exchanges of an attempt. -/
abbrev GeminiTrace := List
    (Exchange (Call (ProviderOp GeminiRequest)) (Deadlines.Answer ProviderAnswer))

/-- How an attempt ends. -/
abbrev GeminiEnding := Ending (Call (ProviderOp GeminiRequest))
    (Option (Except ProviderError SttProviderResult))

/-- How an attempt ends: without its permit, before it has read the clock, or after its start. -/
theorem ends_transcribeMedia {provider : GeminiProvider} {rounds : Nat}
    {request : SttProviderRequest} {tr : GeminiTrace}
    {ending : GeminiEnding} (h : Ends (provider.transcribeMedia rounds request) tr ending) :
    ((tr = [] ∨ ∃ answer, tr = [⟨⟨.acquire, []⟩, answer⟩]) ∧
      ((∃ error, ending = .finished (some (.error error))) ∨
        ending = .dropped ⟨.acquire, []⟩ ∨ ending = .dropped ⟨.now, []⟩)) ∨
      ∃ (acquired : Nat) (started ended : Nat) (rest : GeminiTrace),
        tr = ⟨⟨.acquire, []⟩, ⟨.done true, acquired⟩⟩ :: ⟨⟨.now, []⟩, ⟨.done started, ended⟩⟩ ::
          rest ∧
        Ends (provider.attempt rounds request started) rest ending := by
  rw [GeminiProvider.transcribeMedia, tryAcquire] at h
  by_cases hkey : provider.apiKey = ""
  · rw [if_pos hkey] at h
    cases h
    exact .inl ⟨.inl rfl, .inl ⟨_, rfl⟩⟩
  · rw [if_neg hkey] at h
    cases h with
    | dropped => exact .inl ⟨.inl rfl, .inr (.inl rfl)⟩
    | answered answer hrest =>
        obtain ⟨reply, acquired⟩ := answer
        cases reply with
        | elapsed level => exact level.elim0
        | done permit =>
            cases permit with
            | false =>
                cases hrest
                exact .inl ⟨.inr ⟨_, rfl⟩, .inl ⟨_, rfl⟩⟩
            | true =>
                rcases ends_perform_bind.mp hrest with ⟨rfl, rfl⟩ |
                  ⟨started, ended, rest, rfl, hattempt⟩
                · exact .inl ⟨.inr ⟨_, rfl⟩, .inr (.inr rfl)⟩
                · exact .inr ⟨acquired, started, ended, rest, rfl, hattempt⟩

/-- An attempt at the time zero, with a permit. -/
theorem ends_transcribeMedia_of_attempt {provider : GeminiProvider} {rounds : Nat}
    {request : SttProviderRequest}
    {tr : GeminiTrace} {ending : GeminiEnding} (hkey : provider.apiKey ≠ "")
    (h : Ends (provider.attempt rounds request 0) tr ending) :
    Ends (provider.transcribeMedia rounds request)
      (⟨⟨.acquire, []⟩, ⟨.done true, 0⟩⟩ :: ⟨⟨.now, []⟩, ⟨.done (0 : Nat), 0⟩⟩ :: tr) ending := by
  rw [GeminiProvider.transcribeMedia, tryAcquire, if_neg hkey]
  exact .answered _ (.answered _ h)

/-! ## A deployment -/

/-- The body of an answer to an upload, in JSON. -/
def sampleFileBody : List UInt8 :=
  Domain.utf8
    "\x7b\"file\":\x7b\"name\":\"files/a\",\"uri\":\"u\",\"mimeType\":\"audio/mpeg\",\"state\":\"FAILED\"\x7d\x7d"

/-- The provider under `https://gemini.test/`, with parsers for what it answers in the samples. -/
def sampleGemini : GeminiProvider where
  text :=
    { parseFileEnvelope := fun body =>
        if body = sampleFileBody then some ⟨"files/a", "u", "audio/mpeg", "FAILED"⟩ else none
      parseFile := fun _ => none
      parseInteraction := fun _ => none
      parseUrl := fun text =>
        if text = "https://gemini.test/u" then
          some ⟨"https", "", none, some (.domain "gemini.test"), none, "/u", none, none⟩
        else none
      parseRfc2822 := fun _ => none }
  writer := crateWriter
  apiKey := "key"
  sttHttp :=
    { baseUrl :=
        { url := ⟨"https", "", none, some (.domain "gemini.test"), none, "/", none, none⟩
          valid := by decide
          segments := [""]
          parsed := by decide
          noDots := by decide
          noBreaks := by decide }
      timeout := millis 1000
      retry := .disabled }
  sttModel := "gemini-3.5-transcribe"

theorem sampleGemini_file : sampleGemini.text.parseFileEnvelope sampleFileBody =
    some ⟨"files/a", "u", "audio/mpeg", "FAILED"⟩ := by
  change (if sampleFileBody = sampleFileBody then some _ else none) = _
  exact if_pos rfl

/-- Its URLs. -/
theorem sampleGemini_url {endpoint : String}
    (h : (sampleGemini.url endpoint).toOption.isSome = true) :
    ∃ url, sampleGemini.url endpoint = .ok url := by
  cases hurl : sampleGemini.url endpoint with
  | ok url => exact ⟨url, rfl⟩
  | error error =>
      rw [hurl] at h
      cases h

/-- One byte of MP3. -/
def sampleTranscription : SttProviderRequest := ⟨⟨.mpeg, [0], by decide, by decide⟩, none⟩

end Waveform.Providers
