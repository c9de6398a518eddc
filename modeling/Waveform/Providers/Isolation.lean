import Waveform.Control.SavedKeys
import Waveform.Providers.Synthesis
import Waveform.Service.LeaseSettled
import Waveform.Service.ReplayStability

/-!
# What each provider receives

A provider is called with the key of the request, else with the key that the account saved, else
with the shared one, and with its own controls and voice mapping. What a request carries for one
provider does not reach another.

- `usedKey_of_forActor`, `forActor_eq_error_iff`: which key each provider is called with, and when
  there is none.
- `synthesizeAuthorized_asks`, `transcribeAuthorized_asks`: every call of a provider in every run.
- `provider_isolation`: both, and that requests which agree for one provider are sent to it alike.
-/

set_option autoImplicit false

namespace Waveform.Providers

open Waveform.Domain Waveform.Control Waveform.Service
open Dialogue

/-! ## Keys -/

/-- The key that `for_actor` gives a provider in place of the shared one. -/
inductive UsedKey (service : SpeechService) (settings : Settings) (authorization : AuthorizedActor)
    (requestKeys : ProviderApiKeys) (provider : ProviderName) : Option String → Prop where
  | request {key : String} (h : requestKeys.get provider = some key) :
      UsedKey service settings authorization requestKeys provider (some key)
  | saved {row : ProviderKeyRow} {key : String} (hrequest : requestKeys.get provider = none)
      (hrow : Settings.ReadRow settings authorization.actor.id provider.asStr row)
      (hopen : Settings.openRow service.vault authorization.actor.id provider.asStr
        row = some key) :
      UsedKey service settings authorization requestKeys provider (some key)
  | shared (hrequest : requestKeys.get provider = none)
      (hnone : service.hasProviderKeys = true →
        ∀ row ∈ settings.providerKeys, row.actorId = authorization.actor.id →
        row.provider ≠ provider.asStr) :
      UsedKey service settings authorization requestKeys provider none

/-- A saved key that is read and cannot be used: its provider is unknown, or it does not open. -/
def UnusableKey (service : SpeechService) (settings : Settings) (authorization : AuthorizedActor) :
    Prop :=
  service.hasProviderKeys = true ∧
  ∃ name row, settings.savedKeyRow authorization.actor.id name = some row ∧
    (ProviderName.ofStr? name = none ∨
      Settings.openRow service.vault authorization.actor.id name row = none)

section Keys

variable {service : SpeechService} {settings : Settings} {authorization : AuthorizedActor}
  {requestKeys : ProviderApiKeys}

/-- The keys of the request over those that were loaded. -/
theorem forActor_eq_ok {keys : ProviderName → Option String}
    (h : service.forActor settings authorization requestKeys = .ok keys) :
    ∃ saved : List (ProviderName × String),
      (if service.hasProviderKeys
        then settings.loadProviderKeys service.vault authorization.actor.id else some []) =
        some saved ∧ ∀ provider, keys provider =
          (requestKeys.get provider <|> saved.lookup provider) := by
  unfold SpeechService.forActor at h
  cases hsaved : (if service.hasProviderKeys
    then settings.loadProviderKeys service.vault authorization.actor.id
      else some []) with
  | none =>
      simp only [hsaved] at h
      cases h
  | some saved =>
      simp only [hsaved] at h
      obtain rfl := Except.ok.inj h
      exact ⟨saved, rfl, fun _ => rfl⟩

/-- **The key of the request, else the saved one, else the shared one.** -/
theorem usedKey_of_forActor {keys : ProviderName → Option String}
    (h : service.forActor settings authorization requestKeys = .ok keys) (provider : ProviderName) :
    UsedKey service settings authorization requestKeys provider (keys provider) := by
  obtain ⟨saved, hload, hkeys⟩ := forActor_eq_ok h
  rw [hkeys]
  cases hrequest : requestKeys.get provider with
  | some key => exact .request hrequest
  | none =>
      change UsedKey service settings authorization requestKeys provider (saved.lookup provider)
      cases hstore : service.hasProviderKeys with
      | false =>
          rw [hstore, if_neg Bool.false_ne_true] at hload
          obtain rfl := Option.some.inj hload
          refine .shared hrequest fun hstore' => ?_
          cases hstore.symm.trans hstore'
      | true =>
          rw [hstore, if_pos rfl] at hload
          rw [Settings.lookup_of_load hload provider]
          cases hrow : settings.savedKeyRow authorization.actor.id provider.asStr with
          | none => exact .shared hrequest fun _ => Settings.savedKeyRow_eq_none_iff.mp hrow
          | some row =>
              rw [Option.bind_some]
              cases hopen : Settings.openRow service.vault authorization.actor.id
                provider.asStr row with
              | some key => exact .saved hrequest (Settings.readRow_of_savedKeyRow hrow) hopen
              | none =>
                  -- a row that does not open would have failed the load
                  have hnone := Settings.load_eq_none_iff.mpr ⟨_, row, hrow, .inr hopen⟩
                  cases hnone.symm.trans hload

/-- **The keys fail exactly when a saved key that is read cannot be used.** -/
theorem forActor_eq_error_iff :
    service.forActor settings authorization requestKeys =
      .error (.dependencyUnavailable .providerKeys) ↔
      UnusableKey service settings authorization := by
  unfold SpeechService.forActor UnusableKey
  rw [← Settings.load_eq_none_iff]
  cases service.hasProviderKeys with
  | false => simp
  | true => cases settings.loadProviderKeys service.vault authorization.actor.id <;> simp

/-- A request is claimed only with its keys. -/
theorem forActor_of_prepareClaim {context : SpeechRequestContext} {request : SpeechRequest}
    {leaseId : IdempotencyLeaseId} {claim : IdempotencyClaim}
    (h : service.prepareClaim settings context authorization request leaseId = .ok claim) :
    ∃ keys, service.forActor settings authorization request.providerKeys = .ok keys := by
  obtain ⟨_, _, _, _, hkeys, _⟩ := prepareClaim_ok.mp h
  exact hkeys

end Keys

/-! ## Calls -/

/-- The calls of a synthesis: a provider gets its key, and the request made ready for it. -/
def TtsCall (keys : ProviderName → Option String) (request : TtsRequest)
    (voice : Option VoiceProfile) : WorkCall → Prop
  | .synthesize provider key sent _ => key = keys provider ∧
      sent = .forProvider request voice provider
  | .transcribe _ _ _ _ => False
  | _ => True

/-- The calls of a transcription. -/
def SttCall (keys : ProviderName → Option String) (request : SttRequest) : WorkCall → Prop
  | .transcribe provider key sent _ => key = keys provider ∧
      ∃ media, sent = ⟨media, request.language⟩
  | .synthesize _ _ _ _ => False
  | _ => True

section Work

variable {settings : WorkSettings} {authorization : AuthorizedActor}
  {subjectToken : Option AccessToken}
  {keys : ProviderName → Option String} {requestId : RequestId}

theorem asks_atPorts {α : Type} {P : WorkCall → Prop} (h : ∀ query, P (.port query))
    (program : ServiceProgram α) :
    Asks P (atPorts program) :=
  (asks_of_forall h program).asking WorkCall.port _

theorem synthesizeFirst_asks (request : TtsRequest) (voice : Option VoiceProfile)
    (order : List ProviderName) :
    Asks (TtsCall keys request voice)
      (synthesizeFirst settings keys requestId request voice order) := by
  induction order with
  | nil => trivial
  | cons provider rest ih =>
      unfold synthesizeFirst
      split
      swap
      · trivial
      have hnext : ∀ error : WaveformError, Asks (TtsCall keys request voice)
          (if request.autoFallback = true
            then synthesizeFirst settings keys requestId request voice rest
            else .done (.error error)) := by
        intro error
        split
        · exact ih
        · trivial
      refine ⟨⟨rfl, rfl⟩, fun answer => ?_⟩
      cases answer with
      | error error => exact hnext _
      | ok artifact =>
          refine ⟨trivial, fun normalized => ?_⟩
          cases normalized with
          | ok audio => trivial
          | error error =>
              cases error with
              | invalidAudio | failed => exact hnext _
              | saturated | timeout | unavailable => trivial

/-- Every call of a synthesis. -/
theorem executeTts_asks (started : Nat) (request : TtsRequest) (voice : Option VoiceProfile) :
    Asks (TtsCall keys request voice)
      (executeTts settings authorization subjectToken keys requestId started request voice) := by
  unfold executeTts
  split
  · trivial
  · refine (synthesizeFirst_asks request voice _).andThen fun chosen => ?_
    refine (asks_atPorts (fun _ => trivial) _).andThen fun storage => ?_
    trivial

theorem transcribeFirst_asks (request : SttRequest) (media : SourceMedia) (duration : MediaDuration)
    (order : List ProviderName) :
    Asks (SttCall keys request)
      (transcribeFirst settings keys requestId ⟨media, request.language⟩ duration order) := by
  induction order with
  | nil => trivial
  | cons provider rest ih =>
      unfold transcribeFirst
      split
      swap
      · trivial
      refine ⟨⟨rfl, media, rfl⟩, fun answer => ?_⟩
      cases answer with
      | ok transcript => trivial
      | error error => exact ih

/-- Every call of a transcription. -/
theorem executeStt_asks (request : SttRequest) :
    Asks (SttCall keys request)
      (executeStt settings authorization subjectToken keys requestId request) := by
  unfold executeStt
  refine (asks_atPorts (fun _ => trivial) _).andThen fun media => ⟨trivial, fun measured => ?_⟩
  cases measured with
  | error error => cases error <;> trivial
  | ok duration =>
      simp only
      split
      · trivial
      · exact transcribeFirst_asks request media duration _

end Work

/-- What the working calls of a request satisfy. -/
def AwaitedWork (P : WorkCall → Prop) (awaited : Awaited) : Prop :=
  ∀ call, awaited.call = .work call → P call

section Futures

variable {α : Type} {P : WorkCall → Prop}

theorem awaitedWork_of_ne {awaited : Awaited} (h : ∀ call, awaited.call ≠ .work call) :
    AwaitedWork P awaited :=
  fun call hcall => absurd hcall (h call)

theorem asks_working {guard : Option OperationLeaseGuard} {program : WorkProgram α}
    (h : Asks P program) :
    Asks (AwaitedWork P) (working guard program) := by
  refine Asks.asking _ _ (h.mono fun call hcall call' hsame => ?_)
  rw [← SpeechCall.work.inj hsame]
  exact hcall

theorem asks_failWith (guard : OperationLeaseGuard) (error : WaveformError) :
    Asks (AwaitedWork P) (failWith guard error : SpeechFuture α) := by
  rw [failWith, OperationLeaseGuard.fail]
  cases guard.release with
  | none => trivial
  | some release => exact ⟨awaitedWork_of_ne (fun _ h => by cases h), fun _ => trivial⟩

theorem asks_runJob {guard : OperationLeaseGuard} {start : SpeechJobStart}
    {execute : WorkProgram (Except WaveformError α)} {record : α → CompletedSpeechOperation}
    (h : Asks P execute) :
    Asks (AwaitedWork P) (runJob guard start execute record) := by
  refine ⟨awaitedWork_of_ne (fun _ h => by cases h), fun started => ?_⟩
  cases started with
  | error error => trivial
  | ok _ =>
      refine (asks_working h).bind fun outcome => ?_
      cases outcome with
      | error error => exact asks_failWith guard error
      | ok result =>
          simp only
          split
          · exact asks_failWith guard _
          · refine ⟨awaitedWork_of_ne (fun _ h => by cases h), fun answer => ?_⟩
            cases answer with
            | error error => exact asks_failWith guard _
            | ok _ => trivial

theorem asks_replayed (h : ∀ query, P (.port query))
    (program : ServiceProgram (Except WaveformError α)) :
    Asks (AwaitedWork P) (replayed program) :=
  (asks_working (asks_atPorts h program)).bind fun _ => trivial

end Futures

section Requests

variable {service : WaveformService} {settings : Settings} {context : SpeechRequestContext}
  {authorization : AuthorizedActor} {leaseId : IdempotencyLeaseId}

/-- A completed order changes nothing else of a synthesis. -/
theorem completedOrder_tts (request : TtsRequest) :
    ∃ order, service.completedOrder settings authorization (.tts request) =
      .tts { request with providerOrder := order } := by
  unfold WaveformService.completedOrder
  split
  · next order _ => exact ⟨some order, rfl⟩
  · exact ⟨request.providerOrder, rfl⟩

/-- A completed order changes nothing else of a transcription. -/
theorem completedOrder_stt (request : SttRequest) :
    ∃ order, service.completedOrder settings authorization (.stt request) =
      .stt { request with providerOrder := order } := by
  unfold WaveformService.completedOrder
  split
  · next order _ => exact ⟨some order, rfl⟩
  · exact ⟨request.providerOrder, rfl⟩

theorem apiKeys_of_forActor {requestKeys : ProviderApiKeys} {keys : ProviderName → Option String}
    (h : service.speech.forActor settings authorization requestKeys = .ok keys) :
    service.apiKeys settings authorization requestKeys = keys := by
  unfold WaveformService.apiKeys
  rw [h]

/-- **The calls of a synthesis**, in every run of the request. -/
theorem synthesizeAuthorized_asks {request : TtsRequest} {keys : ProviderName → Option String}
    (hkeys : service.speech.forActor settings authorization request.providerKeys = .ok keys) :
    Asks (AwaitedWork fun call => ∃ voice, TtsCall keys request voice call)
      (service.synthesizeAuthorized settings context authorization leaseId request) := by
  unfold WaveformService.synthesizeAuthorized
  split
  · trivial
  obtain ⟨order, horder⟩ := @completedOrder_tts service settings authorization request
  rw [horder]
  refine ⟨awaitedWork_of_ne (fun _ h => by cases h), fun answer => ?_⟩
  -- once its voice is resolved, the attempt calls as `execute_tts` does
  have hresolved : ∀ scope lease requestId started voice,
      Asks (AwaitedWork fun call => ∃ voice, TtsCall keys request voice call)
        (service.synthesizeResolved settings context authorization
          { request with providerOrder := order } scope lease
          requestId started voice) := by
    intro scope lease requestId started voice
    unfold WaveformService.synthesizeResolved
    rw [apiKeys_of_forActor hkeys]
    refine asks_runJob ((executeTts_asks started _ voice).mono fun call hcall => ⟨voice, ?_⟩)
    cases call with
    | synthesize provider key sent id => exact hcall
    | transcribe provider key sent id => exact hcall
    | port query => trivial
    | normalizeToMp3 artifact id => trivial
    | sourceDuration media id => trivial
  cases answer with
  | error error => trivial
  | ok decision =>
      cases decision with
      | acquired lease requestId started =>
          simp only [WaveformService.synthesizeAcquired]
          split
          · refine ⟨awaitedWork_of_ne (fun _ h => by cases h), fun profile => ?_⟩
            cases profile with
            | ok profile => exact hresolved _ _ _ _ _
            | error error => exact asks_failWith _ _
          · split
            · exact asks_failWith _ _
            · exact hresolved _ _ _ _ _
      | replay completed =>
          cases completed with
          | tts completed => exact asks_replayed (fun _ => ⟨none, trivial⟩) _
          | stt completed => trivial
      | keyReused => trivial
      | inProgress retryAfter => trivial

/-- **The calls of a transcription**, in every run of the request. -/
theorem transcribeAuthorized_asks {request : SttRequest} {keys : ProviderName → Option String}
    (hkeys : service.speech.forActor settings authorization request.providerKeys = .ok keys) :
    Asks (AwaitedWork (SttCall keys request))
      (service.transcribeAuthorized settings context authorization leaseId request) := by
  unfold WaveformService.transcribeAuthorized
  split
  · trivial
  obtain ⟨order, horder⟩ := @completedOrder_stt service settings authorization request
  rw [horder]
  refine ⟨awaitedWork_of_ne (fun _ h => by cases h), fun answer => ?_⟩
  cases answer with
  | error error => trivial
  | ok decision =>
      cases decision with
      | acquired lease requestId started =>
          simp only [WaveformService.transcribeAcquired]
          rw [apiKeys_of_forActor hkeys]
          refine asks_runJob ((executeStt_asks _).mono fun call hcall => ?_)
          cases call with
          | synthesize provider key sent id => exact hcall
          | transcribe provider key sent id => exact hcall
          | port query => trivial
          | normalizeToMp3 artifact id => trivial
          | sourceDuration media id => trivial
      | replay completed =>
          cases completed with
          | stt completed => exact asks_replayed (fun _ => trivial) _
          | tts completed => trivial
      | keyReused => trivial
      | inProgress retryAfter => trivial

/-- Without its keys, a request is refused before any call. -/
theorem authorized_of_unusableKey (h : UnusableKey service.speech settings authorization) :
    (∀ request, ∃ error, service.synthesizeAuthorized settings context authorization
      leaseId request =
      .done (none, .error error)) ∧
    ∀ request, ∃ error, service.transcribeAuthorized settings context authorization
      leaseId request =
      .done (none, .error error) := by
  have hnot : ∀ request claim,
      service.speech.prepareClaim settings context authorization request leaseId ≠ .ok claim := by
    intro request claim hclaim
    obtain ⟨keys, hkeys⟩ := forActor_of_prepareClaim hclaim
    cases (forActor_eq_error_iff.mpr h).symm.trans hkeys
  refine ⟨fun request => ?_, fun request => ?_⟩
  · unfold WaveformService.synthesizeAuthorized
    split
    · next error _ => exact ⟨error, rfl⟩
    · next claim hclaim => exact absurd hclaim (hnot _ _)
  · unfold WaveformService.transcribeAuthorized
    split
    · next error _ => exact ⟨error, rfl⟩
    · next claim hclaim => exact absurd hclaim (hnot _ _)

end Requests

/-! ## Two requests -/

/-- Two requests that carry the same for one provider; they may differ in the keys and controls of
the others. -/
structure SameFor (provider : ProviderName) (request request' : TtsRequest) : Prop where
  text : request.text = request'.text
  language : request.language = request'.language
  key : request.providerKeys.get provider = request'.providerKeys.get provider
  options : request.providerOptions.forProvider provider =
    request'.providerOptions.forProvider provider

section Isolation

variable {service : WaveformService} {settings : Settings} {authorization : AuthorizedActor}

/-- The key of a provider depends on what the request and the account have for that provider
alone. -/
theorem sameKey_of_forActor {requestKeys requestKeys' : ProviderApiKeys} {provider : ProviderName}
    (hsame : requestKeys.get provider = requestKeys'.get provider)
    {keys keys' : ProviderName → Option String}
    (hkeys : service.speech.forActor settings authorization requestKeys = .ok keys)
    (hkeys' : service.speech.forActor settings authorization requestKeys' = .ok keys') :
    keys provider = keys' provider := by
  obtain ⟨saved, hload, hvalue⟩ := forActor_eq_ok hkeys
  obtain ⟨saved', hload', hvalue'⟩ := forActor_eq_ok hkeys'
  obtain rfl := Option.some.inj (hload.symm.trans hload')
  rw [hvalue, hvalue', hsame]

/-- What is sent for two requests that carry the same for a provider, with the same mapping of
it. -/
theorem sameSynthesis {provider : ProviderName} {request request' : TtsRequest}
    (hsame : SameFor provider request request')
    {voice voice' : Option VoiceProfile}
    (hvoice : (voice.bind fun voice => voice.forProvider provider) = voice'.bind fun voice =>
      voice.forProvider provider)
    (adapters : SpeechAdapters) (key : Option String) :
    adapters.synthesisRequest provider key (.forProvider request voice provider) =
      adapters.synthesisRequest provider key (.forProvider request' voice' provider) := by
  refine synthesisRequest_congr ⟨hsame.text, hsame.options, hvoice, ?_⟩
  change (if provider.acceptsTtsLanguageHint then request.language else none) =
    if provider.acceptsTtsLanguageHint then request'.language else none
  rw [hsame.language]

/-- **Provider isolation and key precedence.** -/
theorem provider_isolation :
    (∀ requestKeys keys, service.speech.forActor settings authorization requestKeys = .ok keys →
      ∀ provider, UsedKey service.speech settings authorization requestKeys provider
        (keys provider)) ∧
    (UnusableKey service.speech settings authorization → ∀ context leaseId,
      (∀ request, ∃ error, service.synthesizeAuthorized settings context authorization
        leaseId request =
        .done (none, .error error)) ∧
      ∀ request, ∃ error, service.transcribeAuthorized settings context authorization
        leaseId request =
        .done (none, .error error)) ∧
    (∀ request keys, service.speech.forActor settings authorization request.providerKeys =
      .ok keys →
      ∀ context leaseId tr result,
        Runs (service.synthesizeAuthorized settings context authorization leaseId request) tr
          result →
          ∀ e ∈ tr, ∀ call, e.query.call = .work call → ∃ voice, TtsCall keys request voice call) ∧
    (∀ request keys, service.speech.forActor settings authorization request.providerKeys =
      .ok keys →
      ∀ context leaseId tr result,
        Runs (service.transcribeAuthorized settings context authorization leaseId request) tr
          result →
          ∀ e ∈ tr, ∀ call, e.query.call = .work call → SttCall keys request call) ∧
    (∀ provider (requestKeys requestKeys' : ProviderApiKeys),
      requestKeys.get provider = requestKeys'.get provider →
      ∀ keys keys', service.speech.forActor settings authorization requestKeys = .ok keys →
        service.speech.forActor settings authorization requestKeys' = .ok keys' →
        keys provider = keys' provider) ∧
    ∀ provider request request', SameFor provider request request' →
      (∀ voice, TtsProviderRequest.forProvider request voice provider = .forProvider request'
        voice provider) ∧
      ∀ (adapters : SpeechAdapters) key (voice voice' : Option VoiceProfile),
        (voice.bind fun voice => voice.forProvider provider) =
          (voice'.bind fun voice => voice.forProvider provider) →
          adapters.synthesisRequest provider key (.forProvider request voice provider) =
            adapters.synthesisRequest provider key (.forProvider request' voice' provider) := by
  refine ⟨fun _ _ hkeys => usedKey_of_forActor hkeys, fun h _ _ => authorized_of_unusableKey h, ?_,
    ?_,
    fun _ _ _ hsame _ _ => sameKey_of_forActor hsame, fun provider request request' hsame =>
      ⟨fun voice => ?_, ?_⟩⟩
  · intro request keys hkeys context leaseId tr result hrun
    exact (synthesizeAuthorized_asks hkeys).of_run hrun
  · intro request keys hkeys context leaseId tr result hrun
    exact (transcribeAuthorized_asks hkeys).of_run hrun
  · unfold TtsProviderRequest.forProvider
    rw [hsame.text, hsame.language, hsame.options]
  · intro adapters key voice voice' hvoice
    exact sameSynthesis hsame hvoice adapters key

end Isolation

/-- The sample request, with a key for OpenAI. -/
def keyedTts : TtsRequest :=
  { sampleTts with providerKeys := ⟨fun provider => if provider = .openAi then some "k"
    else none, by
      intro provider
      cases provider <;> decide⟩ }

/-- OpenAI is called with the key of the request, and Gemini is sent what it would be sent without
it. -/
theorem provider_isolation_sample :
    UsedKey sampleService sampleSettings sampleAuthorization keyedTts.providerKeys .openAi
      (some "k") ∧
      TtsProviderRequest.forProvider sampleTts none .gemini = .forProvider keyedTts none
        .gemini := by
  have hkeys : sampleService.forActor sampleSettings sampleAuthorization keyedTts.providerKeys =
      .ok fun provider => keyedTts.providerKeys.get provider <|> none := rfl
  have hall := @provider_isolation sampleWaveform sampleSettings sampleAuthorization
  exact ⟨hall.1 _ _ hkeys .openAi, (hall.2.2.2.2.2 .gemini _ _ ⟨rfl, rfl, rfl, rfl⟩).1 none⟩

end Waveform.Providers
