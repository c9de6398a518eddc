import Mathlib.Algebra.GroupWithZero.Nat
import Mathlib.Algebra.Order.Group.Nat
import Waveform.Config.Deadlines
import Waveform.Library.Cost
import Waveform.Service.LeaseSettled
import Waveform.Storage.AccountsRequests

/-!
# Deadlines and the work they cover

The configuration gives each step of an attempt its time, and each kind of request a deadline. What
the steps may take in sequence is read off the workflows: every provider of the chain with its
normalization, and a Briefcase operation that is repeated once with a renewed proof, each of its two
proofs after up to two requests to Accounts.

- `executeTts_costsAtMost`, `executeStt_costsAtMost`: no run of a workflow takes more.
- `exists_ttsWork`, `exists_sttWork`: some run takes as much.
- `deadlinesFit_iff`: the deadlines of a loaded configuration cover the workflows exactly when they
  are that long, which the loader does not check.
-/

set_option autoImplicit false

namespace Waveform.Service

open Waveform.Domain
open Waveform.Config (Settings EnvironmentSource fromSource)
open Waveform.Storage (StorageAuthorityError)
open Dialogue

/-! ## The time of a step -/

section Bounds

variable (s : Settings)

/-- What a storage authority call may take: it has no deadline of its own, each of its requests to
Accounts has one. -/
def authorityBound : Nat := Storage.Phase.locked.requestsLeft * s.accounts.timeout.nanos

/-- The deadlines that `BriefcaseHttp` sets its operations. -/
def briefcaseBound : BriefcaseOperation → Nat
  | .verifyFileReadAccess _ _ => s.briefcase.downloadTimeout.nanos
  | .readSourceMedia _ _ _ => s.briefcase.downloadTimeout.nanos
  | .storeGeneratedAudio _ _ _ => (max s.briefcase.downloadTimeout s.briefcase.timeout).nanos

/-- The time of a step at a port. The statements of the held-audio store are not counted. -/
def portBound : ServiceQuery → Nat
  | .briefcaseProof _ _ => authorityBound s
  | .renewRefusedProof _ _ _ => authorityBound s
  | .briefcase operation _ => briefcaseBound s operation
  | .hold _ => 0
  | .isHeld _ _ => 0

/-- The deadline of a synthesis. Deepgram has none. -/
def synthesisBound : ProviderName → Nat
  | .gemini => s.providers.gemini.ttsTimeout.nanos
  | .elevenLabs => s.providers.elevenlabs.timeout.nanos
  | .openAi => s.providers.openai.ttsTimeout.nanos
  | .deepgram => 0

/-- The deadline of a transcription. ElevenLabs has none. -/
def transcriptionBound : ProviderName → Nat
  | .gemini => s.providers.gemini.sttTimeout.nanos
  | .openAi => s.providers.openai.sttTimeout.nanos
  | .deepgram => s.providers.deepgram.timeout.nanos
  | .elevenLabs => 0

/-- The time of a step of the work. -/
def workBound : WorkCall → Nat
  | .port query => portBound s query
  | .synthesize provider _ _ _ => synthesisBound s provider
  | .normalizeToMp3 _ _ => s.audio.timeout.nanos
  | .sourceDuration _ _ => s.audio.timeout.nanos
  | .transcribe provider _ _ _ => transcriptionBound s provider

/-- The longest sequence of steps of a text-to-speech request in the default chain. -/
def ttsWork : Nat :=
  s.providers.gemini.ttsTimeout.nanos + s.providers.elevenlabs.timeout.nanos +
    s.providers.openai.ttsTimeout.nanos + 3 * s.audio.timeout.nanos + 4 * s.accounts.timeout.nanos +
    2 * max s.briefcase.downloadTimeout.nanos s.briefcase.timeout.nanos

/-- The longest sequence of steps of a speech-to-text request in the default chain. -/
def sttWork : Nat :=
  s.providers.gemini.sttTimeout.nanos + s.providers.openai.sttTimeout.nanos +
    s.providers.deepgram.timeout.nanos + s.audio.timeout.nanos + 4 * s.accounts.timeout.nanos +
    2 * s.briefcase.downloadTimeout.nanos

end Bounds

/-! ## No run takes more -/

section Limits

variable {s : Settings} {policy : ServicePolicy} {authorization : AuthorizedActor}
  {subjectToken : Option AccessToken}

/-- The operation, and with a renewed proof the operation again. -/
theorem withRenewal_costsAtMost (proof : BriefcaseProof) (operation : BriefcaseOperation) :
    CostsAtMost (portBound s)
    (briefcaseBound s operation + (authorityBound s + briefcaseBound s operation))
      (withRenewal authorization subjectToken proof operation) := by
  refine CostsAtMost.ask fun answer => ?_
  -- Only a refused proof goes on to the renewal.
  split
  · refine CostsAtMost.ask fun renewal => ?_
    cases renewal with
    | error error => exact (CostsAtMost.done _).mono (Nat.zero_le _)
    | ok renewed => exact CostsAtMost.ask fun _ => CostsAtMost.done _
  · exact (CostsAtMost.done _).mono (Nat.zero_le _)

theorem briefcaseAuthority_costsAtMost :
    CostsAtMost (portBound s) (authorityBound s) (briefcaseAuthority authorization subjectToken) :=
  CostsAtMost.ask fun _ => CostsAtMost.done _

/-- Holding takes no time that is counted. -/
theorem hold_costsAtMost {filename : GeneratedAudioFileName} {audio : NormalizedAudio}
    {requestId : RequestId}
    {reason : HeldReason} (limit : Nat) :
    CostsAtMost (portBound s) limit
      (hold policy authorization filename audio requestId reason) := by
  have hfree : 0 + 0 ≤ limit := Nat.zero_le limit
  refine CostsAtMost.ask_le hfree fun answer => ?_
  cases answer with
  | none => exact CostsAtMost.done _
  | some expiresAt => exact CostsAtMost.done _

/-- Storing audio: the proof, then the upload. -/
theorem storeAudio_costsAtMost {filename : GeneratedAudioFileName} {audio : NormalizedAudio}
    {requestId : RequestId} :
    CostsAtMost (portBound s) (2 * authorityBound s +
        2 * max s.briefcase.downloadTimeout.nanos s.briefcase.timeout.nanos)
      (storeAudio policy authorization subjectToken filename audio requestId) := by
  let upload := max s.briefcase.downloadTimeout.nanos s.briefcase.timeout.nanos
  have hbound : briefcaseBound s (.storeGeneratedAudio filename audio requestId) = upload :=
    Config.Duration.nanos_max _ _
  have hconclude : ∀ result, CostsAtMost (portBound s) 0
      (concludeUpload policy authorization filename audio requestId result) := by
    intro result
    cases result with
    | ok permanentUrl => exact CostsAtMost.done _
    | error error => exact hold_costsAtMost 0
  have hupload : ∀ proof, CostsAtMost (portBound s) (upload + (authorityBound s + upload))
      ((withRenewal authorization subjectToken proof
        (.storeGeneratedAudio filename audio requestId)).bind
        (concludeUpload policy authorization filename audio requestId)) := by
    intro proof
    rw [← hbound]
    exact (withRenewal_costsAtMost proof (.storeGeneratedAudio filename audio requestId)).bind
      hconclude
  unfold storeAudio
  split
  · exact hold_costsAtMost _
  · have hsum : authorityBound s + (upload + (authorityBound s + upload)) ≤
        2 * authorityBound s + 2 * upload := by omega
    refine CostsAtMost.ask_le hsum fun answer => ?_
    cases answer with
    | error error => exact hold_costsAtMost _
    | ok proof => exact hupload proof

/-- Reading the source: the proof, then the download. -/
theorem readSource_costsAtMost {requestId : RequestId} {request : SttRequest} :
    CostsAtMost (portBound s) (2 * authorityBound s + 2 * s.briefcase.downloadTimeout.nanos)
      (readSource policy authorization subjectToken requestId request) := by
  have hread : ∀ proof, CostsAtMost (portBound s)
      (s.briefcase.downloadTimeout.nanos + (authorityBound s + s.briefcase.downloadTimeout.nanos) +
        0)
      ((withRenewal authorization subjectToken proof (.readSourceMedia request.sourceUrl
        policy.sourceMediaSizeLimit requestId)).bind fun outcome =>
          .done (outcome.mapError mapRenewalError)) :=
    fun proof => (withRenewal_costsAtMost proof _).bind fun outcome => CostsAtMost.done _
  refine (briefcaseAuthority_costsAtMost.andThen (Nat.zero_le _) hread).mono ?_
  omega

end Limits

section Workflows

variable {s : Settings} {settings : WorkSettings} {authorization : AuthorizedActor}
  {subjectToken : Option AccessToken} {keys : ProviderName → Option String} {requestId : RequestId}

/-- Every provider in turn, and the normalization of what it returns. -/
theorem synthesizeFirst_costsAtMost {request : TtsRequest} {resolvedVoice : Option VoiceProfile}
    (order : List ProviderName) :
    CostsAtMost (workBound s)
    (order.map fun provider => synthesisBound s provider + s.audio.timeout.nanos).sum
      (synthesizeFirst settings keys requestId request resolvedVoice order) := by
  induction order with
  | nil => exact CostsAtMost.done _
  | cons provider rest ih =>
      rw [List.map_cons, List.sum_cons, Nat.add_assoc]
      unfold synthesizeFirst
      split
      · refine CostsAtMost.ask fun answer => ?_
        cases answer with
        | error error =>
            show CostsAtMost _ _ (if request.autoFallback then _ else _)
            split
            · exact ih.mono (Nat.le_add_left _ _)
            · exact (CostsAtMost.done _).mono (Nat.zero_le _)
        | ok artifact =>
            refine CostsAtMost.ask fun outcome => ?_
            split
            · exact (CostsAtMost.done _).mono (Nat.zero_le _)
            · split
              · exact ih
              · exact (CostsAtMost.done _).mono (Nat.zero_le _)
            · split
              · exact ih
              · exact (CostsAtMost.done _).mono (Nat.zero_le _)
            · exact (CostsAtMost.done _).mono (Nat.zero_le _)
      · exact (CostsAtMost.done _).mono (Nat.zero_le _)

/-- Every provider in turn. -/
theorem transcribeFirst_costsAtMost {request : SttProviderRequest} {duration : MediaDuration}
    (order : List ProviderName) :
    CostsAtMost (workBound s) (order.map (transcriptionBound s)).sum
      (transcribeFirst settings keys requestId request duration order) := by
  induction order with
  | nil => exact CostsAtMost.done _
  | cons provider rest ih =>
      rw [List.map_cons, List.sum_cons]
      unfold transcribeFirst
      split
      · refine CostsAtMost.ask fun answer => ?_
        cases answer with
        | error error => exact ih
        | ok result => exact (CostsAtMost.done _).mono (Nat.zero_le _)
      · exact (CostsAtMost.done _).mono (Nat.zero_le _)

/-- The first provider alone takes no more than all of them. -/
theorem sum_take_le (bound : ProviderName → Nat) (n : Nat) (order : List ProviderName) :
    ((order.take n).map bound).sum ≤ (order.map bound).sum := by
  conv_rhs => rw [← List.take_append_drop n order]
  rw [List.map_append, List.sum_append]
  exact Nat.le_add_right _ _

/-- **No text-to-speech request in the default chain takes more.** -/
theorem executeTts_costsAtMost {request : TtsRequest} {resolvedVoice : Option VoiceProfile}
    {operationStartedAt : Nat} (hdefault : request.providerOrder = none) :
    CostsAtMost (workBound s) (ttsWork s)
    (executeTts settings authorization subjectToken keys requestId
      operationStartedAt request resolvedVoice) := by
  let bound := fun provider => synthesisBound s provider + s.audio.timeout.nanos
  have hchain : (ttsProviderChain.map bound).sum + (2 * authorityBound s +
      2 * max s.briefcase.downloadTimeout.nanos s.briefcase.timeout.nanos) = ttsWork s := by
    simp only [ttsProviderChain, bound, List.map_cons, List.map_nil, List.sum_cons, List.sum_nil,
      synthesisBound,
      authorityBound, Storage.Phase.requestsLeft, ttsWork]
    omega
  have hstore : ∀ filename audio, CostsAtMost (workBound s) (2 * authorityBound s +
      2 * max s.briefcase.downloadTimeout.nanos s.briefcase.timeout.nanos)
      (atPorts (storeAudio settings.policy authorization subjectToken filename audio requestId)) :=
    fun filename audio => CostsAtMost.asking storeAudio_costsAtMost
  have hfirst : ∀ order : List ProviderName, (order.map bound).sum ≤
    (ttsProviderChain.map bound).sum →
      CostsAtMost (workBound s) (ttsProviderChain.map bound).sum
        (synthesizeFirst settings keys requestId request resolvedVoice order) :=
    fun order hle => (synthesizeFirst_costsAtMost order).mono hle
  have horder : resolveOrder (request.providerOrder.getD [])
      ttsProviderChain = some ttsProviderChain := by
    rw [hdefault]
    rfl
  rw [← hchain, executeTts, horder]
  refine (hfirst _ ?_).andThen (Nat.zero_le _) fun ⟨provider, audio⟩ => ?_
  · split
    · exact Nat.le_refl _
    · exact sum_take_le bound 1 ttsProviderChain
  · exact (hstore _ audio).andThen (Nat.le_refl 0) fun storage => CostsAtMost.done _

/-- **No speech-to-text request in the default chain takes more.** -/
theorem executeStt_costsAtMost {request : SttRequest} (hdefault : request.providerOrder = none) :
    CostsAtMost (workBound s) (sttWork s)
      (executeStt settings authorization subjectToken keys requestId request) := by
  have hchain : 2 * authorityBound s + 2 * s.briefcase.downloadTimeout.nanos +
      (s.audio.timeout.nanos + (sttProviderChain.map (transcriptionBound s)).sum) = sttWork s := by
    simp only [sttProviderChain, List.map_cons, List.map_nil, List.sum_cons, List.sum_nil,
      transcriptionBound,
      authorityBound, Storage.Phase.requestsLeft, sttWork]
    omega
  have hread : CostsAtMost (workBound s)
    (2 * authorityBound s + 2 * s.briefcase.downloadTimeout.nanos)
      (atPorts (readSource settings.policy authorization subjectToken requestId request)) :=
    CostsAtMost.asking readSource_costsAtMost
  have horder : resolveOrder (request.providerOrder.getD [])
      sttProviderChain = some sttProviderChain := by
    rw [hdefault]
    rfl
  rw [← hchain, executeStt]
  refine hread.andThen (Nat.zero_le _) fun media => CostsAtMost.ask fun measured => ?_
  split
  · exact (CostsAtMost.done _).mono (Nat.zero_le _)
  · exact (CostsAtMost.done _).mono (Nat.zero_le _)
  · rw [horder]
    exact transcribeFirst_costsAtMost sttProviderChain

end Workflows

/-! ## Some run takes as much -/

/-- Audio as a provider returns it. -/
def sampleArtifact : AudioArtifact := ⟨.mp3, [73, 68, 51, 4], by decide, by decide⟩

/-- The same audio, normalized. -/
def sampleNormalized : NormalizedAudio := (Store.sampleAudio Store.sampleScope 4).audio

/-- The media of a source. -/
def sampleMedia : SourceMedia := ⟨.mpeg, [73, 68, 51, 4], by decide, by decide⟩

/-- The stored proof of the account. -/
def storedProof : BriefcaseProof := sampleProof "sap_1" proofTokenValid_sap1

/-- The one that renewal gives. -/
def renewedProof : BriefcaseProof := sampleProof "sap_2" (by decide)

/-- An exchange at a port, as the work sees it. -/
def portExchange (query : ServiceQuery) (answer : ServiceAnswer query) :
    Exchange WorkCall WorkAnswer :=
  ⟨.port query, answer⟩

/-- A Briefcase operation whose first proof is refused. -/
def renewing (token : AccessToken) (operation : BriefcaseOperation) (reply : operation.Reply) :
    List (Exchange WorkCall WorkAnswer) :=
  [portExchange (.briefcaseProof sampleCaller (some token)) (.ok storedProof),
    portExchange (.briefcase operation storedProof) (.error .unauthorized),
    portExchange (.renewRefusedProof sampleCaller (some token) storedProof) (.ok renewedProof),
    portExchange (.briefcase operation renewedProof) (.ok reply)]

/-- A synthesis, and what the codec makes of its audio. -/
def synthesis (provider : ProviderName)
    (normalized : Except AudioNormalizationError NormalizedAudio) :
    List (Exchange WorkCall WorkAnswer) :=
  [⟨.synthesize provider none (.forProvider sampleTts none provider) Store.sampleRequestId,
    .ok sampleArtifact⟩,
    ⟨.normalizeToMp3 sampleArtifact Store.sampleRequestId, normalized⟩]

/-- A transcription. -/
def transcription (provider : ProviderName) (answer : Except ProviderError SttProviderResult) :
    Exchange WorkCall WorkAnswer :=
  ⟨.transcribe provider none ⟨sampleMedia, none⟩ Store.sampleRequestId, answer⟩

/-- Two providers return audio that the codec rejects; the third one's is stored with a renewed
proof. -/
def longTts : List (Exchange WorkCall WorkAnswer) :=
  synthesis .gemini (.error .failed) ++ (synthesis .elevenLabs (.error .failed) ++
    (synthesis .openAi (.ok sampleNormalized) ++
      renewing Storage.sampleAccessToken (.storeGeneratedAudio
        (.forRequest (sampleWaveform.work.utc 0) Store.sampleRequestId) sampleNormalized
          Store.sampleRequestId)
        sampleFile))

/-- The source is read with a renewed proof; two providers fail and the third one transcribes it. -/
def longStt : List (Exchange WorkCall WorkAnswer) :=
  renewing Storage.sampleAccessToken
      (.readSourceMedia sampleFile sampleWaveform.work.policy.sourceMediaSizeLimit
        Store.sampleRequestId)
      sampleMedia ++
    [⟨.sourceDuration sampleMedia Store.sampleRequestId, .ok ⟨1200⟩⟩,
      transcription .gemini (.error (.new .gemini .unavailable)),
      transcription .openAi (.error (.new .openAi .unavailable)),
      transcription .deepgram (.ok ⟨⟨"Hello", transcriptBounded_hello⟩, none, none⟩)]

/-- What the text-to-speech run ends with. -/
def longTtsResult : TtsResult :=
  ⟨none, Store.sampleRequestId, .briefcase sampleFile, .openAi, .mp3, sampleNormalized.duration⟩

theorem runs_longTts :
    Runs (executeTts sampleWaveform.work sampleCaller (some Storage.sampleAccessToken)
      (fun _ => none)
      Store.sampleRequestId 0 sampleTts none) longTts (.ok longTtsResult) := by
  refine .ask _ (.ask _ (.ask _ (.ask _ (.ask _ (.ask _ (.ask _ (.ask _ (.ask _ (.ask _ ?_)))))))))
  -- What is left is the end of `concludeUpload`.
  simp only [Dialogue.bind, Except.mapError, concludeUpload, Dialogue.asking]
  exact .done _

theorem runs_longStt :
    Runs (executeStt sampleWaveform.work sampleCaller (some Storage.sampleAccessToken)
      (fun _ => none)
      Store.sampleRequestId sampleTranscribe) longStt
      (Except.ok ⟨Store.sampleRequestId, ⟨"Hello", transcriptBounded_hello⟩, none, .deepgram,
        some ⟨1200⟩⟩) :=
  .ask _ (.ask _ (.ask _ (.ask _ (.ask _ (.ask _ (.ask _ (.ask _ (.done _))))))))

section Attained

variable (s : Settings)

/-- **The text-to-speech run takes the longest.** -/
theorem total_longTts : total (workBound s) longTts = ttsWork s := by
  have hupload : (max s.briefcase.downloadTimeout s.briefcase.timeout).nanos =
      max s.briefcase.downloadTimeout.nanos s.briefcase.timeout.nanos :=
        Config.Duration.nanos_max _ _
  simp only [longTts, synthesis, renewing, portExchange, total, List.cons_append, List.nil_append,
    List.map_cons,
    List.map_nil, List.sum_cons, List.sum_nil, workBound, portBound, briefcaseBound, synthesisBound,
    authorityBound,
    Storage.Phase.requestsLeft, hupload, ttsWork]
  omega

/-- **So does the speech-to-text run.** -/
theorem total_longStt : total (workBound s) longStt = sttWork s := by
  simp only [longStt, transcription, renewing, portExchange, total, List.cons_append,
    List.nil_append, List.map_cons,
    List.map_nil, List.sum_cons, List.sum_nil, workBound, portBound, briefcaseBound,
    transcriptionBound,
    authorityBound, Storage.Phase.requestsLeft, sttWork]
  omega

end Attained

/-! ## Deadlines that fit -/

/-- A deadline covers the steps of a workflow: their times add up to no more, so that a request
whose steps each keep to their time is not cut off. -/
structure Covers {α : Type} (s : Settings) (deadline : Config.Duration) (p : WorkProgram α) :
    Prop where
  sum : CostsAtMost (workBound s) deadline.nanos p
  inTime : StaysWithin (workBound s) deadline.nanos p

/-- The lease covers the deadlines, the deadlines cover the workflows in the default chain, and the
sums of the checks are exact. -/
structure DeadlinesFit (s : Settings) : Prop where
  lease : max s.server.ttsDeadline s.server.sttDeadline ≤ s.idempotency.lease
  tts : ∀ (settings : WorkSettings) (authorization : AuthorizedActor)
    (subjectToken : Option AccessToken)
    (keys : ProviderName → Option String) (requestId : RequestId) (operationStartedAt : Nat)
    (request : TtsRequest)
    (resolvedVoice : Option VoiceProfile), request.providerOrder = none →
    Covers s s.server.ttsDeadline
      (executeTts settings authorization subjectToken keys requestId operationStartedAt
      request resolvedVoice)
  stt : ∀ (settings : WorkSettings) (authorization : AuthorizedActor)
    (subjectToken : Option AccessToken)
    (keys : ProviderName → Option String) (requestId : RequestId) (request : SttRequest),
    request.providerOrder = none →
    Covers s s.server.sttDeadline
      (executeStt settings authorization subjectToken keys requestId request)
  exact : s.ttsBudget.nanos = s.ttsSum ∧ s.sttBudget.nanos = s.sttSum

/-- Steps whose times add up to a limit are covered by it. -/
theorem Covers.of_costsAtMost {α : Type} {s : Settings} {deadline : Config.Duration}
    {p : WorkProgram α} {limit : Nat}
    (h : CostsAtMost (workBound s) limit p) (hle : limit ≤ deadline.nanos) : Covers s deadline p :=
  ⟨h.mono hle, staysWithin_iff.mpr (h.mono hle)⟩

/-- **The deadlines of a loaded configuration fit the work exactly when each is as long as its
longest run.** -/
theorem deadlinesFit_iff {source : EnvironmentSource} {s : Settings}
    (h : fromSource source = .ok s) :
    DeadlinesFit s ↔ ttsWork s ≤ s.server.ttsDeadline.nanos ∧
      sttWork s ≤ s.server.sttDeadline.nanos := by
  have haccepted := Config.fromSource_accepted h
  constructor
  · intro hfit
    constructor
    · have hcovers := hfit.tts sampleWaveform.work sampleCaller (some Storage.sampleAccessToken)
        (fun _ => none)
        Store.sampleRequestId 0 sampleTts none rfl
      exact (total_longTts s).symm.trans_le (hcovers.sum _ _ runs_longTts)
    · have hcovers := hfit.stt sampleWaveform.work sampleCaller (some Storage.sampleAccessToken)
        (fun _ => none)
        Store.sampleRequestId sampleTranscribe rfl
      exact (total_longStt s).symm.trans_le (hcovers.sum _ _ runs_longStt)
  · rintro ⟨htts, hstt⟩
    refine ⟨haccepted.lease, ?_, ?_, haccepted.ttsBudget_eq, haccepted.sttBudget_eq⟩
    · intro settings authorization subjectToken keys requestId operationStartedAt request
        resolvedVoice hdefault
      exact .of_costsAtMost (executeTts_costsAtMost hdefault) htts
    · intro settings authorization subjectToken keys requestId request hdefault
      exact .of_costsAtMost (executeStt_costsAtMost hdefault) hstt

/-- An environment that sets some variables. -/
def environment (values : List (String × String)) : EnvironmentSource :=
  ⟨fun name => .ok (values.lookup name)⟩

/-- A configuration with time for every run. -/
theorem deadlinesFit_iff_sample :
    DeadlinesFit { Config.defaults with server := ⟨.fromSecs 400, .fromSecs 600⟩ } :=
  (@deadlinesFit_iff (environment [("WAVEFORM_TTS_DEADLINE_SECONDS", "400")])
    _ (by decide +kernel)).mpr
    (by decide)

/-- **A longer download deadline is accepted with deadlines it does not fit**: storing audio may
wait for that long twice, and the text-to-speech budget has no term for it. -/
theorem not_forall_deadlinesFit :
    ¬ ∀ (source : EnvironmentSource) (s : Settings), fromSource source = .ok s →
    DeadlinesFit s := by
  intro h
  let source := environment [("WAVEFORM_BRIEFCASE_DOWNLOAD_TIMEOUT_SECONDS", "100")]
  let s : Settings := { Config.defaults with briefcase := ⟨.fromSecs 10, .fromSecs 100⟩ }
  have hloaded : fromSource source = .ok s := by decide +kernel
  have hfits := (h source s hloaded).tts sampleWaveform.work sampleCaller
    (some Storage.sampleAccessToken)
    (fun _ => none) Store.sampleRequestId 0 sampleTts none rfl
  have hlong : ttsWork s ≤ 300000000000 :=
    (total_longTts s).symm.trans_le (hfits.sum _ _ runs_longTts)
  exact absurd hlong (by decide)

end Waveform.Service
