import Waveform.Config.Durations

/-!
# Deadlines of the configuration

The part of `Settings` that the deadline checks read, as `Settings::from_source` loads it: the
deadlines of the two kinds of request, the time given to each step they take, and the lease of the
operation records. The other settings are checked on their own, and no deadline depends on them.

- `fromSource_accepted`: what holds of every configuration that is loaded.
- `Accepted.ttsBudget_eq`, `Accepted.sttBudget_eq`: its budgets are exact sums, so that nothing
  saturates in the checks.
- `fromSource_unset`: the configuration that sets none of the variables.
-/

set_option autoImplicit false

namespace Waveform.Config

/-! ## Settings -/

/-- The deadlines of `ServerSettings`. -/
structure ServerSettings where
  ttsDeadline : Duration
  sttDeadline : Duration
  deriving DecidableEq

/-- The statement deadline of `DatabaseSettings`. -/
structure DatabaseSettings where
  statementTimeout : Duration
  deriving DecidableEq

/-- The deadline for one call of `AccountsSettings`. -/
structure AccountsSettings where
  timeout : Duration
  deriving DecidableEq

/-- The deadlines of `BriefcaseSettings`. -/
structure BriefcaseSettings where
  timeout : Duration
  downloadTimeout : Duration
  deriving DecidableEq

/-- The deadlines of `GeminiSettings`. -/
structure GeminiSettings where
  ttsTimeout : Duration
  sttTimeout : Duration
  deriving DecidableEq

/-- The deadline of `ElevenLabsSettings`. -/
structure ElevenLabsSettings where
  timeout : Duration
  deriving DecidableEq

/-- The deadlines of `OpenAiSettings`. -/
structure OpenAiSettings where
  ttsTimeout : Duration
  sttTimeout : Duration
  deriving DecidableEq

/-- The deadline of `DeepgramSettings`. -/
structure DeepgramSettings where
  timeout : Duration
  deriving DecidableEq

/-- `ProviderSettings`. -/
structure ProviderSettings where
  gemini : GeminiSettings
  elevenlabs : ElevenLabsSettings
  openai : OpenAiSettings
  deepgram : DeepgramSettings
  deriving DecidableEq

/-- The deadline of `AudioSettings`. -/
structure AudioSettings where
  timeout : Duration
  deriving DecidableEq

/-- The lifetimes of `IdempotencySettings`. -/
structure IdempotencySettings where
  ttl : Duration
  lease : Duration
  retryAfter : Duration
  deriving DecidableEq

/-- `Settings`. -/
structure Settings where
  server : ServerSettings
  database : DatabaseSettings
  accounts : AccountsSettings
  briefcase : BriefcaseSettings
  providers : ProviderSettings
  audio : AudioSettings
  idempotency : IdempotencySettings
  deriving DecidableEq

/-! ## Checks -/

/-- `ORCHESTRATION_HEADROOM`. -/
def orchestrationHeadroom : Duration := .fromSecs 30

/-- `validate_idempotency_lease`. -/
def validateIdempotencyLease (idempotency : IdempotencySettings) (server : ServerSettings) :
    Except SettingsError Unit :=
  if idempotency.lease < max server.ttsDeadline server.sttDeadline then
    .error (.invalid "WAVEFORM_IDEMPOTENCY_LEASE_SECONDS"
      "must cover the longest public request deadline")
  else .ok ()

/-- `tts_attempt_budget`. -/
def ttsAttemptBudget (database : DatabaseSettings) (accounts : AccountsSettings)
    (briefcase : BriefcaseSettings) (providers : ProviderSettings) (audio : AudioSettings) :
    Duration :=
  providers.gemini.ttsTimeout
    |>.saturatingAdd providers.elevenlabs.timeout
    |>.saturatingAdd providers.openai.ttsTimeout
    |>.saturatingAdd (audio.timeout.saturatingMul 3)
    |>.saturatingAdd (accounts.timeout.saturatingMul 3)
    |>.saturatingAdd briefcase.timeout
    |>.saturatingAdd (database.statementTimeout.saturatingMul 2)
    |>.saturatingAdd orchestrationHeadroom

/-- `stt_attempt_budget`. It has no term for the codec. -/
def sttAttemptBudget (database : DatabaseSettings) (accounts : AccountsSettings)
    (briefcase : BriefcaseSettings) (providers : ProviderSettings) : Duration :=
  providers.gemini.sttTimeout
    |>.saturatingAdd providers.openai.sttTimeout
    |>.saturatingAdd providers.deepgram.timeout
    |>.saturatingAdd (accounts.timeout.saturatingMul 3)
    |>.saturatingAdd briefcase.timeout
    |>.saturatingAdd briefcase.downloadTimeout
    |>.saturatingAdd (database.statementTimeout.saturatingMul 2)
    |>.saturatingAdd orchestrationHeadroom

/-- `validate_workflow_deadlines`. -/
def validateWorkflowDeadlines (server : ServerSettings) (database : DatabaseSettings)
    (accounts : AccountsSettings) (briefcase : BriefcaseSettings) (providers : ProviderSettings)
    (audio : AudioSettings) : Except SettingsError Unit :=
  if server.ttsDeadline < ttsAttemptBudget database accounts briefcase providers audio then
    .error (.invalid "WAVEFORM_TTS_DEADLINE_SECONDS"
      "must cover provider, codec, Silicon Accounts, Briefcase, storage, and orchestration budgets")
  else if server.sttDeadline < sttAttemptBudget database accounts briefcase providers then
    .error (.invalid "WAVEFORM_STT_DEADLINE_SECONDS"
      "must cover provider, Silicon Accounts, Briefcase, storage, and orchestration budgets")
  else .ok ()

/-! ## Loading -/

section Loading

variable (source : EnvironmentSource)

/-- `load_server`. -/
def loadServer : Except SettingsError ServerSettings := do
  return {
    ttsDeadline := ← durationSeconds source "WAVEFORM_TTS_DEADLINE_SECONDS" 300 1 900
    sttDeadline := ← durationSeconds source "WAVEFORM_STT_DEADLINE_SECONDS" 600 1 900 }

/-- `load_database`. -/
def loadDatabase : Except SettingsError DatabaseSettings := do
  return {
    statementTimeout := ←
      durationSeconds source "WAVEFORM_DATABASE_STATEMENT_TIMEOUT_SECONDS" 10 1 300 }

/-- `load_accounts`. -/
def loadAccounts : Except SettingsError AccountsSettings := do
  return { timeout := ← durationSeconds source "WAVEFORM_ACCOUNTS_TIMEOUT_SECONDS" 5 1 60 }

/-- `load_briefcase`. -/
def loadBriefcase : Except SettingsError BriefcaseSettings := do
  return {
    timeout := ← durationSeconds source "WAVEFORM_BRIEFCASE_TIMEOUT_SECONDS" 10 1 120
    downloadTimeout := ←
      durationSeconds source "WAVEFORM_BRIEFCASE_DOWNLOAD_TIMEOUT_SECONDS" 30 1 300 }

/-- `load_gemini`. -/
def loadGemini : Except SettingsError GeminiSettings := do
  return {
    ttsTimeout := ← durationSeconds source "WAVEFORM_GEMINI_TTS_TIMEOUT_SECONDS" 45 1 120
    sttTimeout := ← durationSeconds source "WAVEFORM_GEMINI_STT_TIMEOUT_SECONDS" 180 1 300 }

/-- `load_elevenlabs`. -/
def loadElevenlabs : Except SettingsError ElevenLabsSettings := do
  return { timeout := ← durationSeconds source "WAVEFORM_ELEVENLABS_TIMEOUT_SECONDS" 45 1 120 }

/-- `load_openai`. -/
def loadOpenai : Except SettingsError OpenAiSettings := do
  return {
    ttsTimeout := ← durationSeconds source "WAVEFORM_OPENAI_TTS_TIMEOUT_SECONDS" 45 1 120
    sttTimeout := ← durationSeconds source "WAVEFORM_OPENAI_STT_TIMEOUT_SECONDS" 120 1 300 }

/-- `load_deepgram`. -/
def loadDeepgram : Except SettingsError DeepgramSettings := do
  return { timeout := ← durationSeconds source "WAVEFORM_DEEPGRAM_TIMEOUT_SECONDS" 120 1 120 }

/-- `load_providers`. -/
def loadProviders : Except SettingsError ProviderSettings := do
  return {
    gemini := ← loadGemini source
    elevenlabs := ← loadElevenlabs source
    openai := ← loadOpenai source
    deepgram := ← loadDeepgram source }

/-- `load_audio`. -/
def loadAudio : Except SettingsError AudioSettings := do
  return { timeout := ← durationSeconds source "WAVEFORM_AUDIO_TIMEOUT_SECONDS" 30 1 300 }

/-- The checks of `load_idempotency`. -/
def checkIdempotency (settings : IdempotencySettings) : Except SettingsError IdempotencySettings :=
  if settings.lease ≤ settings.retryAfter then
    .error (.invalid "WAVEFORM_IDEMPOTENCY_RETRY_AFTER_SECONDS"
      "must be shorter than the ownership lease")
  else if settings.ttl ≤ settings.lease then
    .error (.invalid "WAVEFORM_IDEMPOTENCY_LEASE_SECONDS"
      "must be shorter than the terminal record lifetime")
  else .ok settings

/-- `load_idempotency`. -/
def loadIdempotency : Except SettingsError IdempotencySettings := do
  let ttl ← durationSeconds source "WAVEFORM_IDEMPOTENCY_TTL_SECONDS" 86400 86400 604800
  let lease ← durationSeconds source "WAVEFORM_IDEMPOTENCY_LEASE_SECONDS" 600 10 3600
  let retryAfter ← durationSeconds source "WAVEFORM_IDEMPOTENCY_RETRY_AFTER_SECONDS" 2 1 300
  checkIdempotency ⟨ttl, lease, retryAfter⟩

/-- `Settings::from_source`. -/
def fromSource : Except SettingsError Settings := do
  let server ← loadServer source
  let database ← loadDatabase source
  let accounts ← loadAccounts source
  let briefcase ← loadBriefcase source
  let providers ← loadProviders source
  let audio ← loadAudio source
  let idempotency ← loadIdempotency source
  validateIdempotencyLease idempotency server
  validateWorkflowDeadlines server database accounts briefcase providers audio
  return { server, database, accounts, briefcase, providers, audio, idempotency }

end Loading

/-! ## What is accepted -/

namespace Settings

/-- The TTS budget of a configuration. -/
def ttsBudget (s : Settings) : Duration :=
  ttsAttemptBudget s.database s.accounts s.briefcase s.providers s.audio

/-- Its STT budget. -/
def sttBudget (s : Settings) : Duration :=
  sttAttemptBudget s.database s.accounts s.briefcase s.providers

/-- The durations that the budgets add up. -/
def timeouts (s : Settings) : List Duration :=
  [s.database.statementTimeout, s.accounts.timeout, s.briefcase.timeout,
    s.briefcase.downloadTimeout,
    s.providers.gemini.ttsTimeout, s.providers.gemini.sttTimeout, s.providers.elevenlabs.timeout,
    s.providers.openai.ttsTimeout, s.providers.openai.sttTimeout, s.providers.deepgram.timeout,
    s.audio.timeout]

end Settings

/-- What the loader has checked of a configuration. -/
structure Accepted (s : Settings) : Prop where
  timeouts : ∀ timeout ∈ s.timeouts, timeout ≤ .fromSecs 300
  lease : max s.server.ttsDeadline s.server.sttDeadline ≤ s.idempotency.lease
  retryAfter : s.idempotency.retryAfter < s.idempotency.lease
  ttl : s.idempotency.lease < s.idempotency.ttl
  ttsBudget : s.ttsBudget ≤ s.server.ttsDeadline
  sttBudget : s.sttBudget ≤ s.server.sttDeadline

section Accepted

variable {source : EnvironmentSource}

theorem validateIdempotencyLease_ok {idempotency : IdempotencySettings}
    {server : ServerSettings} {u : Unit}
    (h : validateIdempotencyLease idempotency server = .ok u) :
    max server.ttsDeadline server.sttDeadline ≤ idempotency.lease := by
  unfold validateIdempotencyLease at h
  split at h
  · cases h
  · rename_i hcovers
    exact not_lt.mp hcovers

theorem validateWorkflowDeadlines_ok {server : ServerSettings} {database : DatabaseSettings}
    {accounts : AccountsSettings} {briefcase : BriefcaseSettings} {providers : ProviderSettings}
    {audio : AudioSettings} {u : Unit}
    (h : validateWorkflowDeadlines server database accounts briefcase providers audio = .ok u) :
    ttsAttemptBudget database accounts briefcase providers audio ≤ server.ttsDeadline ∧
      sttAttemptBudget database accounts briefcase providers ≤ server.sttDeadline := by
  unfold validateWorkflowDeadlines at h
  split at h
  · cases h
  · rename_i htts
    split at h
    · cases h
    · rename_i hstt
      exact ⟨not_lt.mp htts, not_lt.mp hstt⟩

theorem loadIdempotency_ok {settings : IdempotencySettings}
    (h : loadIdempotency source = .ok settings) :
    settings.retryAfter < settings.lease ∧ settings.lease < settings.ttl := by
  obtain ⟨ttl, _, h⟩ := Except.bind_eq_ok.mp h
  obtain ⟨lease, _, h⟩ := Except.bind_eq_ok.mp h
  obtain ⟨retryAfter, _, h⟩ := Except.bind_eq_ok.mp h
  unfold checkIdempotency at h
  split at h
  · cases h
  · rename_i hretry
    split at h
    · cases h
    · rename_i hlease
      cases h
      exact ⟨not_le.mp hretry, not_le.mp hlease⟩

/-- The time given to a step is five minutes at most. -/
theorem durationSeconds_le {name : String} {default minimum maximum : UInt64} {duration : Duration}
    (h : durationSeconds source name default minimum maximum = .ok duration)
    (hmax : maximum ≤ 300) :
    duration ≤ .fromSecs 300 :=
  (durationSeconds_ok h).2.trans (Duration.fromSecs_le hmax)

theorem loadDatabase_le {settings : DatabaseSettings} (h : loadDatabase source = .ok settings) :
    settings.statementTimeout ≤ .fromSecs 300 := by
  obtain ⟨statement, hstatement, h⟩ := Except.bind_eq_ok.mp h
  cases h
  exact durationSeconds_le hstatement (by decide)

theorem loadAccounts_le {settings : AccountsSettings} (h : loadAccounts source = .ok settings) :
    settings.timeout ≤ .fromSecs 300 := by
  obtain ⟨timeout, htimeout, h⟩ := Except.bind_eq_ok.mp h
  cases h
  exact durationSeconds_le htimeout (by decide)

theorem loadBriefcase_le {settings : BriefcaseSettings} (h : loadBriefcase source = .ok settings) :
    settings.timeout ≤ .fromSecs 300 ∧ settings.downloadTimeout ≤ .fromSecs 300 := by
  obtain ⟨timeout, htimeout, h⟩ := Except.bind_eq_ok.mp h
  obtain ⟨download, hdownload, h⟩ := Except.bind_eq_ok.mp h
  cases h
  exact ⟨durationSeconds_le htimeout (by decide), durationSeconds_le hdownload (by decide)⟩

theorem loadGemini_le {settings : GeminiSettings} (h : loadGemini source = .ok settings) :
    settings.ttsTimeout ≤ .fromSecs 300 ∧ settings.sttTimeout ≤ .fromSecs 300 := by
  obtain ⟨tts, htts, h⟩ := Except.bind_eq_ok.mp h
  obtain ⟨stt, hstt, h⟩ := Except.bind_eq_ok.mp h
  cases h
  exact ⟨durationSeconds_le htts (by decide), durationSeconds_le hstt (by decide)⟩

theorem loadElevenlabs_le {settings : ElevenLabsSettings}
    (h : loadElevenlabs source = .ok settings) :
    settings.timeout ≤ .fromSecs 300 := by
  obtain ⟨timeout, htimeout, h⟩ := Except.bind_eq_ok.mp h
  cases h
  exact durationSeconds_le htimeout (by decide)

theorem loadOpenai_le {settings : OpenAiSettings} (h : loadOpenai source = .ok settings) :
    settings.ttsTimeout ≤ .fromSecs 300 ∧ settings.sttTimeout ≤ .fromSecs 300 := by
  obtain ⟨tts, htts, h⟩ := Except.bind_eq_ok.mp h
  obtain ⟨stt, hstt, h⟩ := Except.bind_eq_ok.mp h
  cases h
  exact ⟨durationSeconds_le htts (by decide), durationSeconds_le hstt (by decide)⟩

theorem loadDeepgram_le {settings : DeepgramSettings} (h : loadDeepgram source = .ok settings) :
    settings.timeout ≤ .fromSecs 300 := by
  obtain ⟨timeout, htimeout, h⟩ := Except.bind_eq_ok.mp h
  cases h
  exact durationSeconds_le htimeout (by decide)

theorem loadAudio_le {settings : AudioSettings} (h : loadAudio source = .ok settings) :
    settings.timeout ≤ .fromSecs 300 := by
  obtain ⟨timeout, htimeout, h⟩ := Except.bind_eq_ok.mp h
  cases h
  exact durationSeconds_le htimeout (by decide)

/-- **Every configuration that is loaded has been checked.** -/
theorem fromSource_accepted {s : Settings} (h : fromSource source = .ok s) : Accepted s := by
  obtain ⟨server, hserver, h⟩ := Except.bind_eq_ok.mp h
  obtain ⟨database, hdatabase, h⟩ := Except.bind_eq_ok.mp h
  obtain ⟨accounts, haccounts, h⟩ := Except.bind_eq_ok.mp h
  obtain ⟨briefcase, hbriefcase, h⟩ := Except.bind_eq_ok.mp h
  obtain ⟨providers, hproviders, h⟩ := Except.bind_eq_ok.mp h
  obtain ⟨audio, haudio, h⟩ := Except.bind_eq_ok.mp h
  obtain ⟨idempotency, hidempotency, h⟩ := Except.bind_eq_ok.mp h
  obtain ⟨_, hlease, h⟩ := Except.bind_eq_ok.mp h
  obtain ⟨_, hworkflow, h⟩ := Except.bind_eq_ok.mp h
  cases h
  obtain ⟨gemini, hgemini, hproviders⟩ := Except.bind_eq_ok.mp hproviders
  obtain ⟨elevenlabs, helevenlabs, hproviders⟩ := Except.bind_eq_ok.mp hproviders
  obtain ⟨openai, hopenai, hproviders⟩ := Except.bind_eq_ok.mp hproviders
  obtain ⟨deepgram, hdeepgram, hproviders⟩ := Except.bind_eq_ok.mp hproviders
  cases hproviders
  have htimeouts : ∀ timeout ∈ Settings.timeouts ⟨server, database, accounts, briefcase,
      ⟨gemini, elevenlabs, openai, deepgram⟩, audio, idempotency⟩, timeout ≤ .fromSecs 300 := by
    simp only [Settings.timeouts, List.forall_mem_cons]
    exact ⟨loadDatabase_le hdatabase, loadAccounts_le haccounts, (loadBriefcase_le hbriefcase).1,
      (loadBriefcase_le hbriefcase).2, (loadGemini_le hgemini).1, (loadGemini_le hgemini).2,
      loadElevenlabs_le helevenlabs, (loadOpenai_le hopenai).1, (loadOpenai_le hopenai).2,
      loadDeepgram_le hdeepgram, loadAudio_le haudio, List.forall_mem_nil _⟩
  obtain ⟨hretry, httl⟩ := loadIdempotency_ok hidempotency
  obtain ⟨htts, hstt⟩ := validateWorkflowDeadlines_ok hworkflow
  exact ⟨htimeouts, validateIdempotencyLease_ok hlease, hretry, httl, htts, hstt⟩

end Accepted

/-! ## The arithmetic of the checks -/

namespace Settings

/-- What the TTS budget adds up, over numbers without a bound. -/
def ttsSum (s : Settings) : Nat :=
  s.providers.gemini.ttsTimeout.nanos + s.providers.elevenlabs.timeout.nanos +
    s.providers.openai.ttsTimeout.nanos + 3 * s.audio.timeout.nanos + 3 * s.accounts.timeout.nanos +
    s.briefcase.timeout.nanos + 2 * s.database.statementTimeout.nanos + orchestrationHeadroom.nanos

/-- What the STT budget adds up. -/
def sttSum (s : Settings) : Nat :=
  s.providers.gemini.sttTimeout.nanos + s.providers.openai.sttTimeout.nanos +
    s.providers.deepgram.timeout.nanos + 3 * s.accounts.timeout.nanos + s.briefcase.timeout.nanos +
    s.briefcase.downloadTimeout.nanos + 2 * s.database.statementTimeout.nanos +
      orchestrationHeadroom.nanos

end Settings

namespace Accepted

variable {s : Settings} (h : Accepted s)

include h

/-- A step's time, in nanoseconds. -/
theorem nanos_le {d : Duration} (hmem : d ∈ s.timeouts) : d.nanos ≤ 300000000000 :=
  Duration.le_iff.mp (h.timeouts d hmem)

/-- **The TTS budget is the exact sum.** -/
theorem ttsBudget_eq : s.ttsBudget.nanos = s.ttsSum := by
  have hstatement := h.nanos_le (d := s.database.statementTimeout) (by simp [Settings.timeouts])
  have haccounts := h.nanos_le (d := s.accounts.timeout) (by simp [Settings.timeouts])
  have hbriefcase := h.nanos_le (d := s.briefcase.timeout) (by simp [Settings.timeouts])
  have hgemini := h.nanos_le (d := s.providers.gemini.ttsTimeout) (by simp [Settings.timeouts])
  have heleven := h.nanos_le (d := s.providers.elevenlabs.timeout) (by simp [Settings.timeouts])
  have hopenai := h.nanos_le (d := s.providers.openai.ttsTimeout) (by simp [Settings.timeouts])
  have haudio := h.nanos_le (d := s.audio.timeout) (by simp [Settings.timeouts])
  have hheadroom : orchestrationHeadroom.nanos = 30000000000 := rfl
  simp only [Settings.ttsBudget, ttsAttemptBudget, Settings.ttsSum, Duration.saturatingAdd,
    Duration.saturatingMul, maxNanos]
  omega

/-- **So is the STT budget.** -/
theorem sttBudget_eq : s.sttBudget.nanos = s.sttSum := by
  have hstatement := h.nanos_le (d := s.database.statementTimeout) (by simp [Settings.timeouts])
  have haccounts := h.nanos_le (d := s.accounts.timeout) (by simp [Settings.timeouts])
  have hbriefcase := h.nanos_le (d := s.briefcase.timeout) (by simp [Settings.timeouts])
  have hdownload := h.nanos_le (d := s.briefcase.downloadTimeout) (by simp [Settings.timeouts])
  have hgemini := h.nanos_le (d := s.providers.gemini.sttTimeout) (by simp [Settings.timeouts])
  have hopenai := h.nanos_le (d := s.providers.openai.sttTimeout) (by simp [Settings.timeouts])
  have hdeepgram := h.nanos_le (d := s.providers.deepgram.timeout) (by simp [Settings.timeouts])
  have hheadroom : orchestrationHeadroom.nanos = 30000000000 := rfl
  simp only [Settings.sttBudget, sttAttemptBudget, Settings.sttSum, Duration.saturatingAdd,
    Duration.saturatingMul, maxNanos]
  omega

end Accepted

/-! ## Defaults -/

/-- The durations of a configuration that sets none. -/
def defaults : Settings where
  server := ⟨.fromSecs 300, .fromSecs 600⟩
  database := ⟨.fromSecs 10⟩
  accounts := ⟨.fromSecs 5⟩
  briefcase := ⟨.fromSecs 10, .fromSecs 30⟩
  providers := ⟨⟨.fromSecs 45, .fromSecs 180⟩, ⟨.fromSecs 45⟩, ⟨.fromSecs 45, .fromSecs 120⟩,
    ⟨.fromSecs 120⟩⟩
  audio := ⟨.fromSecs 30⟩
  idempotency := ⟨.fromSecs 86400, .fromSecs 600, .fromSecs 2⟩

/-- **Every default passes its own check, and together they are accepted.** -/
theorem fromSource_unset {source : EnvironmentSource} (h : ∀ name, source.read name = .ok none) :
    fromSource source = .ok defaults := by
  have hread : ∀ {name : String} {default minimum maximum : UInt64}, minimum ≤ default →
    default ≤ maximum →
      durationSeconds source name default minimum maximum = .ok (.fromSecs default) :=
    durationSeconds_unset (h _)
  have hserver : loadServer source = .ok defaults.server := by
    rw [loadServer, hread (by decide) (by decide), hread (by decide) (by decide)]
    rfl
  have hdatabase : loadDatabase source = .ok defaults.database := by
    rw [loadDatabase, hread (by decide) (by decide)]
    rfl
  have haccounts : loadAccounts source = .ok defaults.accounts := by
    rw [loadAccounts, hread (by decide) (by decide)]
    rfl
  have hbriefcase : loadBriefcase source = .ok defaults.briefcase := by
    rw [loadBriefcase, hread (by decide) (by decide), hread (by decide) (by decide)]
    rfl
  have hproviders : loadProviders source = .ok defaults.providers := by
    rw [loadProviders, loadGemini, loadElevenlabs, loadOpenai, loadDeepgram]
    simp only [hread (show (1 : UInt64) ≤ 45 by decide) (show (45 : UInt64) ≤ 120 by decide),
      hread (show (1 : UInt64) ≤ 180 by decide) (show (180 : UInt64) ≤ 300 by decide),
      hread (show (1 : UInt64) ≤ 120 by decide) (show (120 : UInt64) ≤ 300 by decide),
      hread (show (1 : UInt64) ≤ 120 by decide) (show (120 : UInt64) ≤ 120 by decide)]
    rfl
  have haudio : loadAudio source = .ok defaults.audio := by
    rw [loadAudio, hread (by decide) (by decide)]
    rfl
  have hidempotency : loadIdempotency source = .ok defaults.idempotency := by
    rw [loadIdempotency, hread (by decide) (by decide), hread (by decide) (by decide),
      hread (by decide) (by decide)]
    rfl
  rw [fromSource, hserver, hdatabase, haccounts, hbriefcase, hproviders, haudio, hidempotency]
  rfl

end Waveform.Config
