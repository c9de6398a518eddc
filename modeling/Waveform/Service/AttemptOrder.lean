import Waveform.Control.SavedOrders
import Waveform.Service.Fallback
import Waveform.Service.LeaseGuard
import Waveform.Service.ReplayStability

/-!
# The order of attempts

The order in which a request tries its providers is made in three places: what the account saved,
what the request asks for, and what the attempt makes of both. What an account can save never stands
in the way of a request, so a request is refused for its own prefix alone.

- `wholeOrders_of_reachable`: every order that can be saved is whole.
- `executeTts_called`, `executeStt_called`: a run calls the providers of its list, in order.
- `attemptOrder_of_reachable`: the list, for every request and everything saved.
-/

set_option autoImplicit false

namespace Waveform.Service

open Waveform.Domain Waveform.Control
open Dialogue LabelledRun

/-! ## What can be saved -/

/-- A change of the database default keeps it a whole order. -/
def SettingsChange.SetsWhole : SettingsChange → Prop
  | .setDefaults defaults => Settings.WholeDefaults defaults
  | .ensurePreferences _ _ => True
  | .updatePreferences _ _ _ => True

/-- One change of the settings. -/
def SettingsStep (settings : Settings) (change : SettingsChange) (settings' : Settings) : Prop :=
  change.SetsWhole ∧ settings' = change.apply settings

/-- Only the database default has an order. -/
def NoSavedOrder (settings : Settings) : Prop :=
  Settings.WholeDefaults settings.defaults ∧
    ∀ row ∈ settings.preferences, row.ttsOrder = none ∧ row.sttOrder = none

/-- One change keeps every order whole. -/
theorem wholeOrders_step {settings settings' : Settings} {change : SettingsChange}
    (h : settings.WholeOrders)
    (hstep : SettingsStep settings change settings') : settings'.WholeOrders := by
  obtain ⟨hsets, rfl⟩ := hstep
  cases change with
  | ensurePreferences storageKey created => exact h.ensurePreferences storageKey created
  | updatePreferences storageKey body written =>
      simp only [SettingsChange.apply]
      split
      · next saved hupdate => exact h.updatePreferences hupdate
      · exact h
  | setDefaults defaults => exact ⟨hsets, h.rows⟩

/-- **Every order that can be saved is whole.** -/
theorem wholeOrders_of_reachable {settings : Settings}
    (h : Reachable NoSavedOrder SettingsStep settings) :
    settings.WholeOrders := by
  obtain ⟨initial, tr, ⟨hdefaults, hrows⟩, hrun⟩ := h
  have hinitial : initial.WholeOrders := by
    refine ⟨hdefaults, fun row hrow operation names hsaved => ?_⟩
    obtain ⟨htts, hstt⟩ := hrows row hrow
    cases operation with
    | tts => cases htts.symm.trans hsaved
    | stt => cases hstt.symm.trans hsaved
  exact hrun.invariant Settings.WholeOrders
    (fun _ _ _ hwhole hstep => wholeOrders_step hwhole hstep) hinitial

/-! ## What an attempt goes along -/

/-- The order of `execute_tts` or `execute_stt`: what they try, as far as the attempts before it
fail. -/
def attemptList : SpeechRequest → Option (List ProviderName)
  | .tts request => (resolveOrder (request.providerOrder.getD []) ttsProviderChain).map
      (triedOrder request)
  | .stt request => resolveOrder (request.providerOrder.getD []) sttProviderChain

/-- The provider that is called, if it is one. -/
def WorkCall.provider? : WorkCall → Option ProviderName
  | .synthesize provider _ _ _ => some provider
  | .transcribe provider _ _ _ => some provider
  | _ => none

/-- The providers that a run calls, in order. -/
def calledProviders (tr : List WorkExchange) : List ProviderName :=
  tr.filterMap fun e => e.query.provider?

theorem calledProviders_append (tr tr' : List WorkExchange) :
    calledProviders (tr ++ tr') = calledProviders tr ++ calledProviders tr' := List.filterMap_append

/-- The stores and Briefcase are no providers. -/
theorem calledProviders_ports {tr : List WorkExchange}
    (h : ∀ e ∈ tr, ∃ query, e.query = .port query) :
    calledProviders tr = [] := by
  refine List.filterMap_eq_nil_iff.mpr fun e he => ?_
  obtain ⟨query, hquery⟩ := h e he
  rw [hquery]
  rfl

section Runs

variable {settings : WorkSettings} {authorization : AuthorizedActor}
  {subjectToken : Option AccessToken}
  {keys : ProviderName → Option String} {requestId : RequestId}

/-- The loop of a synthesis goes along its list. -/
theorem synthesizeFirst_called {request : TtsRequest} {voice : Option VoiceProfile}
    {order : List ProviderName}
    {tr : List WorkExchange} {result : Except WaveformError (ProviderName × NormalizedAudio)}
    (hrun : Runs (synthesizeFirst settings keys requestId request voice order) tr result) :
    calledProviders tr <+: order := by
  induction order generalizing tr with
  | nil =>
      obtain ⟨rfl, _⟩ := runs_done_iff.mp hrun
      exact List.nil_prefix
  | cons provider rest ih =>
      unfold synthesizeFirst at hrun
      split at hrun
      swap
      · obtain ⟨rfl, _⟩ := runs_done_iff.mp hrun
        exact List.nil_prefix
      -- after the first call, nothing or the rest of the loop
      have hrest : ∀ {error : WaveformError} {tr' : List WorkExchange},
          Runs (if request.autoFallback = true
            then synthesizeFirst settings keys requestId request voice rest
            else .done (.error error)) tr' result → calledProviders tr' <+: rest := by
        intro error tr' hrun'
        split at hrun'
        · exact ih hrun'
        · obtain ⟨rfl, _⟩ := runs_done_iff.mp hrun'
          exact List.nil_prefix
      obtain ⟨answer, tr₁, rfl, hanswered⟩ := runs_ask_iff.mp hrun
      refine (List.prefix_cons_inj provider).mpr ?_
      cases answer with
      | error error => exact hrest hanswered
      | ok artifact =>
          obtain ⟨normalized, tr₂, rfl, hended⟩ := runs_ask_iff.mp hanswered
          change calledProviders tr₂ <+: rest
          cases normalized with
          | ok audio =>
              obtain ⟨rfl, _⟩ := runs_done_iff.mp hended
              exact List.nil_prefix
          | error error =>
              cases error with
              | invalidAudio => exact hrest hended
              | failed => exact hrest hended
              | saturated | timeout | unavailable =>
                  obtain ⟨rfl, _⟩ := runs_done_iff.mp hended
                  exact List.nil_prefix

/-- The loop of a transcription goes along its list. -/
theorem transcribeFirst_called {request : SttProviderRequest} {duration : MediaDuration}
    {order : List ProviderName}
    {tr : List WorkExchange} {result : Except WaveformError SttResult}
    (hrun : Runs (transcribeFirst settings keys requestId request duration order) tr result) :
    calledProviders tr <+: order := by
  induction order generalizing tr with
  | nil =>
      obtain ⟨rfl, _⟩ := runs_done_iff.mp hrun
      exact List.nil_prefix
  | cons provider rest ih =>
      unfold transcribeFirst at hrun
      split at hrun
      swap
      · obtain ⟨rfl, _⟩ := runs_done_iff.mp hrun
        exact List.nil_prefix
      obtain ⟨answer, tr₁, rfl, hanswered⟩ := runs_ask_iff.mp hrun
      refine (List.prefix_cons_inj provider).mpr ?_
      cases answer with
      | error error => exact ih hanswered
      | ok transcript =>
          obtain ⟨rfl, _⟩ := runs_done_iff.mp hanswered
          exact List.nil_prefix

/-- **A synthesis calls the providers of its list in order**, from the first one on. -/
theorem executeTts_called {started : Nat} {request : TtsRequest} {voice : Option VoiceProfile}
    {tr : List WorkExchange}
    {result : Except WaveformError TtsResult} {order : List ProviderName}
    (hlist : attemptList (.tts request) = some order)
    (hrun : Runs (executeTts settings authorization subjectToken keys requestId started request
      voice) tr result) :
    calledProviders tr <+: order := by
  obtain ⟨completed, hcompleted, rfl⟩ := Option.map_eq_some_iff.mp hlist
  unfold executeTts at hrun
  rw [hcompleted] at hrun
  rcases runs_andThen_iff.mp hrun with ⟨error, hfailed, _⟩ |
    ⟨tr₁, ⟨provider, audio⟩, tr₂, rfl, hchosen, hstored⟩
  · exact synthesizeFirst_called hfailed
  · have hports : ∀ e ∈ tr₂, ∃ query, e.query = .port query := by
      rcases runs_andThen_iff.mp hstored with ⟨error, hstore, _⟩ |
        ⟨tr₃, storage, tr₄, rfl, hstore, hdone⟩
      · exact (runs_asking _ _ hstore).1
      · obtain ⟨rfl, _⟩ := runs_done_iff.mp hdone
        rw [List.append_nil]
        exact (runs_asking _ _ hstore).1
    rw [calledProviders_append, calledProviders_ports hports, List.append_nil]
    exact synthesizeFirst_called hchosen

/-- **A transcription calls the providers of its list in order**, from the first one on. -/
theorem executeStt_called {request : SttRequest} {tr : List WorkExchange}
    {result : Except WaveformError SttResult}
    {order : List ProviderName} (hlist : attemptList (.stt request) = some order)
    (hrun : Runs (executeStt settings authorization subjectToken keys requestId request)
      tr result) :
    calledProviders tr <+: order := by
  have hcompleted : resolveOrder (request.providerOrder.getD []) sttProviderChain = some order :=
    hlist
  unfold executeStt at hrun
  rcases runs_andThen_iff.mp hrun with ⟨error, hread, _⟩ | ⟨tr₁, media, tr₂, rfl, hread, hmeasured⟩
  · rw [calledProviders_ports (runs_asking _ _ hread).1]
    exact List.nil_prefix
  · rw [calledProviders_append, calledProviders_ports (runs_asking _ _ hread).1, List.nil_append]
    obtain ⟨answer, tr₃, rfl, hanswered⟩ := runs_ask_iff.mp hmeasured
    change calledProviders tr₃ <+: order
    cases answer with
    | ok duration =>
        rw [hcompleted] at hanswered
        exact transcribeFirst_called hanswered
    | error error =>
        cases error with
        | invalidAudio | failed | saturated | timeout | unavailable =>
            obtain ⟨rfl, _⟩ := runs_done_iff.mp hanswered
            exact List.nil_prefix

end Runs

/-! ## The order of every request -/

/-- A prefix that is empty, that repeats a provider, or that names one the operation does not
have. -/
def RefusedPrefix (operation : SpeechOperation) (requested : Option (List ProviderName)) : Prop :=
  requested = some [] ∨ ¬ (requested.getD []).Nodup ∨ ∃ provider ∈ requested.getD [],
  provider ∉ Settings.chain operation

/-- A request that tries one provider only. -/
def SpeechRequest.triesOne : SpeechRequest → Bool
  | .tts request => !request.autoFallback
  | .stt _ => false

/-- What a request asks for, and what follows of the saved order. -/
def SpeechRequest.fullOrder (request : SpeechRequest) (saved : List ProviderName) :
    List ProviderName :=
  request.providerOrder.getD [] ++ remaining (request.providerOrder.getD []) saved

/-- What a request attempts, where `saved` is the order it starts from. -/
structure AttemptOrder (service : WaveformService) (settings : Settings)
    (authorization : AuthorizedActor)
    (request : SpeechRequest) (saved : List ProviderName) : Prop where
  /-- What the account saved, or the chain itself without a store for orders. -/
  stored : saved.map ProviderName.asStr =
    if service.speech.hasProviderOrders
      then settings.storedOrder authorization.actor.id request.operation
    else (Settings.chain request.operation).map ProviderName.asStr
  /-- A request is refused for its own prefix alone. -/
  refused : RefusedPrefix request.operation request.providerOrder ↔
    service.speech.completeProviderOrder settings authorization request.operation
      request.providerOrder =
      .error .invalidRequest
  completed : ¬ RefusedPrefix request.operation request.providerOrder →
    service.speech.completeProviderOrder settings authorization request.operation
      request.providerOrder =
      .ok (request.fullOrder saved)
  whole : ¬ RefusedPrefix request.operation request.providerOrder →
    (request.fullOrder saved).Perm (Settings.chain request.operation)
  /-- The list that the attempt goes along, and no run of it calls anything else. -/
  attempted : ¬ RefusedPrefix request.operation request.providerOrder →
    attemptList (service.completedOrder settings authorization request) =
      some (if request.triesOne then (request.fullOrder saved).take 1 else request.fullOrder saved)
  synthesis : ¬ RefusedPrefix request.operation request.providerOrder →
    ∀ tts, service.completedOrder settings authorization request = .tts tts →
      ∀ subjectToken keys requestId started voice tr result,
        Runs (executeTts service.work authorization subjectToken keys requestId started tts voice)
          tr result →
          calledProviders tr <+: (if request.triesOne then (request.fullOrder saved).take 1
            else request.fullOrder saved)
  transcription : ¬ RefusedPrefix request.operation request.providerOrder →
    ∀ stt, service.completedOrder settings authorization request = .stt stt →
      ∀ subjectToken keys requestId tr result,
        Runs (executeStt service.work authorization subjectToken keys requestId stt) tr result →
          calledProviders tr <+: request.fullOrder saved

section Requests

variable {service : WaveformService} {settings : Settings} {authorization : AuthorizedActor}

/-- The order a request starts from is there, and whole. -/
theorem baseOrder_of_wholeOrders (h : settings.WholeOrders) (operation : SpeechOperation) :
    ∃ saved, service.speech.baseOrder settings authorization operation = .ok saved ∧
      saved.Perm (Settings.chain operation) ∧
      saved.map ProviderName.asStr =
        if service.speech.hasProviderOrders
          then settings.storedOrder authorization.actor.id operation
        else (Settings.chain operation).map ProviderName.asStr := by
  unfold SpeechService.baseOrder
  cases service.speech.hasProviderOrders with
  | true =>
      obtain ⟨saved, hsaved, hperm, hnames⟩ := h.providerOrder authorization.actor.id operation
      refine ⟨saved, ?_, hperm, hnames⟩
      rw [hsaved]
      rfl
  | false => exact ⟨Settings.chain operation, rfl, List.Perm.refl _, rfl⟩

/-- Past the completion, the list of a request is its order, cut to one without fallback. -/
theorem attemptList_withProviderOrder {request : SpeechRequest} {order : List ProviderName}
    (h : order.Perm (Settings.chain request.operation)) :
    attemptList (request.withProviderOrder order) = some (if request.triesOne then order.take 1
      else order) := by
  have hresolved := Settings.resolveOrder_of_perm h
  cases request with
  | tts request =>
      change (resolveOrder order ttsProviderChain).map
        (triedOrder (request.withProviderOrder order)) = _
      change resolveOrder order ttsProviderChain = _ at hresolved
      rw [hresolved, Option.map_some]
      change some (if request.autoFallback then order else order.take 1) =
        some (if !request.autoFallback then order.take 1 else order)
      cases request.autoFallback <;> rfl
  | stt request => exact hresolved

/-- Once there is an order to start from, a request can be refused as invalid only. -/
theorem completeProviderOrder_error {operation : SpeechOperation}
    {requested : Option (List ProviderName)}
    {saved : List ProviderName}
    (hbase : service.speech.baseOrder settings authorization operation = .ok saved)
    {error : WaveformError}
    (herror : service.speech.completeProviderOrder settings authorization operation requested =
      .error error) :
    error = .invalidRequest := by
  simp only [SpeechService.completeProviderOrder, hbase, Bind.bind, Except.bind] at herror
  split at herror
  · exact (Except.error.inj herror).symm
  · split at herror
    · cases herror
    · exact (Except.error.inj herror).symm

/-- **The attempt order of every request**, where every order that is saved is whole. -/
theorem attemptOrder_of_wholeOrders (h : settings.WholeOrders) (request : SpeechRequest) :
    ∃ saved, AttemptOrder service settings authorization request saved := by
  obtain ⟨saved, hbase, hperm, hstored⟩ :=
    @baseOrder_of_wholeOrders service settings authorization h request.operation
  have hsaved : saved.Nodup := hperm.nodup_iff.mpr (Settings.chain_nodup request.operation)
  -- the prefix alone decides, since there is an order to complete it with
  have hok : ¬ RefusedPrefix request.operation request.providerOrder →
      service.speech.completeProviderOrder settings authorization request.operation
        request.providerOrder =
        .ok (request.fullOrder saved) := by
    intro haccepted
    unfold RefusedPrefix at haccepted
    push Not at haccepted
    obtain ⟨hempty, hnodup, hknown⟩ := haccepted
    exact completeProviderOrder_ok.mpr ⟨saved, hbase, hempty, hknown, hnodup, rfl⟩
  have hwhole : ¬ RefusedPrefix request.operation request.providerOrder →
      (request.fullOrder saved).Perm (Settings.chain request.operation) := by
    intro haccepted
    obtain ⟨base, _, _, hsub, hnodup, _⟩ := completeProviderOrder_ok.mp (hok haccepted)
    exact (append_remaining_perm hsaved (List.Subset.trans hsub hperm.symm.subset) hnodup).trans
      hperm
  have hcompleted : ¬ RefusedPrefix request.operation request.providerOrder →
      service.completedOrder settings authorization request =
        request.withProviderOrder (request.fullOrder saved) := by
    intro haccepted
    unfold WaveformService.completedOrder
    rw [hok haccepted]
  have hlist : ¬ RefusedPrefix request.operation request.providerOrder →
      attemptList (service.completedOrder settings authorization request) =
        some (if request.triesOne then (request.fullOrder saved).take 1
          else request.fullOrder saved) := by
    intro haccepted
    rw [hcompleted haccepted]
    exact attemptList_withProviderOrder (hwhole haccepted)
  refine ⟨saved, hstored, ⟨fun hrefused => ?_, fun hinvalid => ?_⟩, hok, hwhole, hlist, ?_, ?_⟩
  · cases hresult : service.speech.completeProviderOrder settings authorization request.operation
        request.providerOrder with
    | error error => rw [completeProviderOrder_error hbase hresult]
    | ok order =>
        obtain ⟨base, _, hempty, hsub, hnodup, _⟩ := completeProviderOrder_ok.mp hresult
        rcases hrefused with hrefused | hrepeats | ⟨provider, hprovider, hunknown⟩
        · exact absurd hrefused hempty
        · exact absurd hnodup hrepeats
        · exact absurd (hsub hprovider) hunknown
  · by_contra haccepted
    cases (hok haccepted).symm.trans hinvalid
  · intro haccepted tts htts subjectToken keys requestId started voice tr result hrun
    have htried := hlist haccepted
    rw [htts] at htried
    exact executeTts_called htried hrun
  · intro haccepted stt hstt subjectToken keys requestId tr result hrun
    have htried := hlist haccepted
    have hall : request.triesOne = false := by
      cases request with
      | tts request => cases (hcompleted haccepted).symm.trans hstt
      | stt request => rfl
    rw [hstt, hall] at htried
    exact executeStt_called htried hrun

/-- **The attempt order of every request** after whatever the accounts of the service have saved;
the settings and the domain complete an order alike. -/
theorem attemptOrder_of_reachable (hreachable : Reachable NoSavedOrder SettingsStep settings) :
    (∀ request, ∃ saved, AttemptOrder service settings authorization request saved) ∧
      ∀ requested base : List ProviderName,
        Control.resolveOrder (requested.map ProviderName.asStr) (base.map ProviderName.asStr) =
          match resolveOrder requested base with
          | some order => .ok (order.map ProviderName.asStr)
          | none => .error .invalidProviderOrder :=
  ⟨fun request => attemptOrder_of_wholeOrders (wholeOrders_of_reachable hreachable) request,
    resolveOrder_map⟩

end Requests

/-- The account that saved ElevenLabs first. -/
theorem attemptOrder_of_reachable_sample :
    ∃ saved, AttemptOrder ⟨sampleService, chainSettings, true⟩ (sampleChange.apply sampleSettings)
      sampleAuthorization
      (sampleRequest (some [.openAi])) saved := by
  have hdefaults : NoSavedOrder sampleSettings := ⟨⟨.refl _, .refl _⟩, List.forall_mem_nil _⟩
  have hstep : SettingsStep sampleSettings sampleChange (sampleChange.apply sampleSettings) :=
    ⟨trivial, rfl⟩
  exact (attemptOrder_of_reachable ⟨sampleSettings, _, hdefaults, Run.single hstep⟩).1
    (sampleRequest (some [.openAi]))

end Waveform.Service
