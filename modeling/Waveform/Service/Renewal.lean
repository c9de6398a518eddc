import Waveform.Library.Dialogue
import Waveform.Service.Speech

/-!
# Steps at Briefcase with a stored proof

A speech operation acts at Briefcase in four places: it stores generated audio, reads the source to
transcribe, and checks before a replay that the file may still be read. Each is a program that asks
the proof store, Briefcase and the held-audio store.

`with_renewal` runs a Briefcase operation and, when Briefcase refuses the proof, once more with a
renewed one. `renewsOnce_iff` says which runs recover so: all but those of the check before an STT
replay, which asks Briefcase directly, when Briefcase refuses its proof.

- `interpret_ttsReplay`, `interpret_sttReplay`: the checks agree with `ReplayCheck.checkRead`.
- `runs_withRenewal`: the three courses of an operation with renewal.
-/

set_option autoImplicit false

namespace Waveform.Service

open Waveform.Domain
open Waveform.Storage (StorageAuthorityError)
open Waveform.Store (HeldAudio)

/-! ## What the steps ask -/

/-- The requests to Briefcase, without the proof. -/
inductive BriefcaseOperation where
  | verifyFileReadAccess (fileUrl : BriefcaseFileUrl) (requestId : RequestId)
  | readSourceMedia (sourceUrl : BriefcaseFileUrl) (sizeLimit : MediaSizeLimit)
      (requestId : RequestId)
  | storeGeneratedAudio (filename : GeneratedAudioFileName) (audio : NormalizedAudio)
      (requestId : RequestId)
  deriving DecidableEq

/-- What Briefcase answers when it does not fail. -/
@[reducible] def BriefcaseOperation.Reply : BriefcaseOperation → Type
  | verifyFileReadAccess _ _ => Unit
  | readSourceMedia _ _ _ => SourceMedia
  | storeGeneratedAudio _ _ _ => BriefcaseFileUrl

/-- The calls of the ports that the steps use. -/
inductive ServiceQuery where
  | briefcaseProof (actor : AuthorizedActor) (subjectToken : Option AccessToken)
  | renewRefusedProof (actor : AuthorizedActor) (subjectToken : Option AccessToken)
      (refused : BriefcaseProof)
  | briefcase (operation : BriefcaseOperation) (proof : BriefcaseProof)
  | hold (audio : HeldAudio)
  | isHeld (requestId : RequestId) (owner : ActorId)

/-- What they answer. The only error of the held-audio store is that it is unavailable. -/
@[reducible] def ServiceAnswer : ServiceQuery → Type
  | .briefcaseProof _ _ => Except StorageAuthorityError BriefcaseProof
  | .renewRefusedProof _ _ _ => Except StorageAuthorityError BriefcaseProof
  | .briefcase operation _ => Except BriefcaseError operation.Reply
  | .hold _ => Option Nat
  | .isHeld _ _ => Option Bool

/-- A program of the service. -/
abbrev ServiceProgram (α : Type) := Dialogue ServiceQuery ServiceAnswer α

/-- An exchange of the service with a port. -/
abbrev ServiceExchange := Dialogue.Exchange ServiceQuery ServiceAnswer

/-- A Briefcase operation that failed at Briefcase, or whose refused proof could not be renewed. -/
inductive Renewal where
  | briefcase (error : BriefcaseError)
  | authority (error : StorageAuthorityError)

/-- `map_renewal_error`. -/
def mapRenewalError : Renewal → WaveformError
  | .briefcase error => mapBriefcaseError error
  | .authority error => mapAuthorityError error

/-! ## The steps -/

/-- What the steps read of the policy. -/
structure ServicePolicy where
  publicBaseUrl : Url
  sourceMediaSizeLimit : MediaSizeLimit

/-- `held_audio_url`. -/
def ServicePolicy.heldAudioUrl (policy : ServicePolicy) (requestId : RequestId) : Url :=
  let base := (policy.publicBaseUrl.path.toList.reverse.dropWhile (· == '/')).reverse
  { policy.publicBaseUrl with
    path := String.ofList (base ++ "/api/v1/audio/".toList ++ requestId.asUuid.hyphenated) }

section Steps

variable (policy : ServicePolicy) (authorization : AuthorizedActor)
  (subjectToken : Option AccessToken)

/-- The token that may create a proof: a delegated call only uses a stored one. -/
def directToken : Option AccessToken :=
  if authorization.isDelegated then none else subjectToken

/-- `briefcase_authority`. -/
def briefcaseAuthority : ServiceProgram (Except WaveformError BriefcaseProof) :=
  .ask (.briefcaseProof authorization (directToken authorization subjectToken)) fun answer =>
    .done (answer.mapError mapAuthorityError)

/-- `with_renewal`. -/
def withRenewal (proof : BriefcaseProof) (operation : BriefcaseOperation) :
    ServiceProgram (Except Renewal operation.Reply) :=
  .ask (.briefcase operation proof) fun answer =>
    match answer with
    | .error .unauthorized =>
        .ask (.renewRefusedProof authorization (directToken authorization subjectToken) proof)
          fun renewal =>
            match renewal with
            | .error error => .done (.error (.authority error))
            | .ok renewed =>
                .ask (.briefcase operation renewed) fun second =>
                  .done (second.mapError Renewal.briefcase)
    | answer => .done (answer.mapError Renewal.briefcase)

/-- `hold`. -/
def hold (filename : GeneratedAudioFileName) (audio : NormalizedAudio) (requestId : RequestId)
    (reason : HeldReason) : ServiceProgram (Except WaveformError AudioStorage) :=
  .ask (.hold ⟨requestId, authorization.actor.id, filename, audio, reason⟩) fun answer =>
    match answer with
    | some expiresAt => .done (.ok (.held reason (policy.heldAudioUrl requestId) expiresAt))
    | none => .done (.error (.dependencyUnavailable .audioStore))

/-- Why audio is held after a failed upload. -/
def heldReasonOf : Renewal → HeldReason
  | .authority .notAuthorized => .storageNotAuthorized
  | .authority .refused => .storageNotAuthorized
  -- The refusal stands when the proof could not be renewed now.
  | .authority .unavailable => .briefcaseRefused
  | .authority .timeout => .briefcaseRefused
  | .briefcase .unauthorized => .briefcaseRefused
  | .briefcase .forbidden => .briefcaseRefused
  | .briefcase .contractUnavailable => .briefcaseContractUnavailable
  | .briefcase .timeout => .briefcaseTimeout
  | .briefcase .notFound => .briefcaseUnavailable
  | .briefcase .mediaTooLarge => .briefcaseUnavailable
  | .briefcase .unsupportedMediaType => .briefcaseUnavailable
  | .briefcase .unavailable => .briefcaseUnavailable
  | .briefcase .invalidResponse => .briefcaseUnavailable

/-- What `store_audio` does with the outcome of the upload. -/
def concludeUpload (filename : GeneratedAudioFileName) (audio : NormalizedAudio)
    (requestId : RequestId) : Except Renewal BriefcaseFileUrl →
      ServiceProgram (Except WaveformError AudioStorage)
  | .ok permanentUrl => .done (.ok (.briefcase permanentUrl))
  | .error error => hold policy authorization filename audio requestId (heldReasonOf error)

/-- `store_audio`. -/
def storeAudio (filename : GeneratedAudioFileName) (audio : NormalizedAudio)
    (requestId : RequestId) : ServiceProgram (Except WaveformError AudioStorage) :=
  if authorization.isDelegated then
    hold policy authorization filename audio requestId .delegatedCall
  else
    .ask (.briefcaseProof authorization subjectToken) fun answer =>
      match answer with
      | .error _ => hold policy authorization filename audio requestId .storageNotAuthorized
      | .ok proof =>
          (withRenewal authorization subjectToken proof
            (.storeGeneratedAudio filename audio requestId)).bind
              (concludeUpload policy authorization filename audio requestId)

/-- `replay_tts`. -/
def replayTts (attemptRequestId : RequestId) (completed : CompletedTtsOperation) :
    ServiceProgram (Except WaveformError TtsResult) :=
  match completed.storage with
  | .briefcase permanentUrl =>
      (briefcaseAuthority authorization subjectToken).andThen fun proof =>
        (withRenewal authorization subjectToken proof
          (.verifyFileReadAccess permanentUrl attemptRequestId)).bind fun outcome =>
            .done ((outcome.mapError mapRenewalError).map fun _ => completed.intoResult)
  | .held _ _ _ =>
      .ask (.isHeld completed.requestId authorization.actor.id) fun answer =>
        match answer with
        | none => .done (.error (.dependencyUnavailable .audioStore))
        | some held =>
            .done (if held then .ok completed.intoResult else .error .sourceNotFound)

/-- `execute_stt` up to the media. -/
def readSource (requestId : RequestId) (request : SttRequest) :
    ServiceProgram (Except WaveformError SourceMedia) :=
  (briefcaseAuthority authorization subjectToken).andThen fun proof =>
    (withRenewal authorization subjectToken proof
      (.readSourceMedia request.sourceUrl policy.sourceMediaSizeLimit requestId)).bind
        fun outcome =>
        .done (outcome.mapError mapRenewalError)

/-- The replay branch of `transcribe_authorized`: it asks Briefcase directly. -/
def replayStt (requestId : RequestId) (request : SttRequest) (result : SttResult) :
    ServiceProgram (Except WaveformError SttResult) :=
  (briefcaseAuthority authorization subjectToken).andThen fun proof =>
    .ask (.briefcase (.verifyFileReadAccess request.sourceUrl requestId) proof) fun answer =>
      .done ((answer.mapError mapBriefcaseError).map fun _ => result)

end Steps

/-- A step that acts at Briefcase with the account's stored proof. -/
inductive BriefcaseStep where
  | ttsUpload (filename : GeneratedAudioFileName) (audio : NormalizedAudio) (requestId : RequestId)
  | ttsReplay (attemptRequestId : RequestId) (completed : CompletedTtsOperation)
  | sttRead (requestId : RequestId) (request : SttRequest)
  | sttReplay (requestId : RequestId) (request : SttRequest) (result : SttResult)

namespace BriefcaseStep

/-- What a step produces. -/
def Result : BriefcaseStep → Type
  | ttsUpload _ _ _ => AudioStorage
  | ttsReplay _ _ => TtsResult
  | sttRead _ _ => SourceMedia
  | sttReplay _ _ _ => SttResult

/-- The check before an STT replay. -/
def isSttReplay : BriefcaseStep → Bool
  | sttReplay _ _ _ => true
  | _ => false

/-- The program of a step. -/
def program (policy : ServicePolicy) (authorization : AuthorizedActor)
    (subjectToken : Option AccessToken) :
    (step : BriefcaseStep) → ServiceProgram (Except WaveformError step.Result)
  | ttsUpload filename audio requestId =>
      storeAudio policy authorization subjectToken filename audio requestId
  | ttsReplay attemptRequestId completed =>
      replayTts authorization subjectToken attemptRequestId completed
  | sttRead requestId request => readSource policy authorization subjectToken requestId request
  | sttReplay requestId request result =>
      replayStt authorization subjectToken requestId request result

end BriefcaseStep

/-! ## Replays as functions of what they meet -/

section Interpret

variable (check : ReplayCheck) (authorization : AuthorizedActor) (context : SpeechRequestContext)

/-- Surroundings that answer a replay as the check says. It reads and stores no media. -/
def ReplayCheck.oracle : (query : ServiceQuery) → ServiceAnswer query
  | .briefcaseProof _ token => check.briefcaseProof token
  | .renewRefusedProof _ token refused => check.renewRefusedProof token refused
  | .briefcase (.verifyFileReadAccess fileUrl _) proof => check.verifyFileReadAccess proof fileUrl
  | .briefcase (.readSourceMedia _ _ _) _ => .error .unavailable
  | .briefcase (.storeGeneratedAudio _ _ _) _ => .error .unavailable
  | .hold _ => none
  | .isHeld requestId owner => some (Store.isHeld check.db requestId owner check.now)

theorem interpret_briefcaseAuthority :
    (briefcaseAuthority authorization context.subjectToken).interpret check.oracle =
      check.briefcaseAuthority (ReplayCheck.subjectToken authorization context) := rfl

theorem interpret_withRenewal (proof : BriefcaseProof) (fileUrl : BriefcaseFileUrl) :
    Except.mapError mapRenewalError ((withRenewal authorization context.subjectToken proof
        (.verifyFileReadAccess fileUrl context.requestId)).interpret check.oracle) =
      check.verifyWithRenewal (ReplayCheck.subjectToken authorization context) proof fileUrl := by
  unfold withRenewal ReplayCheck.verifyWithRenewal
  simp only [Dialogue.interpret, ReplayCheck.oracle]
  cases hanswer : check.verifyFileReadAccess proof fileUrl with
  | ok reply => rfl
  | error error =>
      cases error with
      | unauthorized =>
          simp only [Dialogue.interpret]
          let query := ServiceQuery.renewRefusedProof authorization
            (directToken authorization context.subjectToken) proof
          cases hrenewed : check.oracle query with
          | error refusal =>
              have hrefused : check.renewRefusedProof
                (ReplayCheck.subjectToken authorization context)
                  proof = .error refusal := hrenewed
              rw [hrefused]
              rfl
          | ok renewed =>
              have hgiven : check.renewRefusedProof (ReplayCheck.subjectToken authorization context)
                  proof = .ok renewed := hrenewed
              rw [hgiven]
              change Except.mapError mapRenewalError (Except.mapError Renewal.briefcase
                (check.verifyFileReadAccess renewed fileUrl)) =
                Except.mapError mapBriefcaseError (check.verifyFileReadAccess renewed fileUrl)
              cases check.verifyFileReadAccess renewed fileUrl <;> rfl
      | _ => rfl

/-- `replay_tts` checks what `checkRead` does. -/
theorem interpret_ttsReplay (request : TtsRequest) (completed : CompletedTtsOperation) :
    (replayTts authorization context.subjectToken context.requestId completed).interpret
        check.oracle =
      (check.checkRead authorization context (.tts request) (.tts completed)).map fun _ =>
        completed.intoResult := by
  unfold replayTts ReplayCheck.checkRead
  cases hstorage : completed.storage with
  | briefcase permanentUrl =>
      simp only [hstorage, Dialogue.andThen, Dialogue.interpret_bind, interpret_briefcaseAuthority]
      cases hproof : check.briefcaseAuthority (ReplayCheck.subjectToken authorization context) with
      | error error => rfl
      | ok proof =>
          simp only [Dialogue.interpret_bind, Dialogue.interpret]
          exact congrArg _ (interpret_withRenewal check authorization context proof permanentUrl)
  | held reason audioUrl expiresAt =>
      simp only [hstorage, Dialogue.interpret, ReplayCheck.oracle]
      cases Store.isHeld check.db completed.requestId authorization.actor.id check.now <;> rfl

/-- The replay branch of `transcribe_authorized` checks what `checkRead` does. -/
theorem interpret_sttReplay (request : SttRequest) (result : SttResult) :
    (replayStt authorization context.subjectToken context.requestId request result).interpret
        check.oracle =
      (check.checkRead authorization context (.stt request) (.stt result)).map fun _ => result := by
  unfold replayStt ReplayCheck.checkRead
  simp only [Dialogue.andThen, Dialogue.interpret_bind, interpret_briefcaseAuthority]
  cases hproof : check.briefcaseAuthority (ReplayCheck.subjectToken authorization context) with
  | error error => rfl
  | ok proof => rfl

end Interpret

/-! ## What a run of a step shows -/

/-- A proof presented to Briefcase, and the answer. -/
structure Presentation where
  operation : BriefcaseOperation
  proof : BriefcaseProof
  answer : Except BriefcaseError operation.Reply

/-- Briefcase answers Unauthorized. -/
def Presentation.refused (presentation : Presentation) : Bool :=
  match presentation.answer with
  | .error .unauthorized => true
  | _ => false

/-- What happens to the proof of a step. -/
inductive ProofUse where
  | presented (presentation : Presentation)
  | renewed (refused : BriefcaseProof) (answer : Except StorageAuthorityError BriefcaseProof)

/-- A renewal is asked for. -/
def ProofUse.isRenewal : ProofUse → Bool
  | renewed _ _ => true
  | presented _ => false

/-- The use of a proof in an exchange. -/
def proofUse? : ServiceExchange → Option ProofUse
  | ⟨.briefcase operation proof, answer⟩ => some (.presented ⟨operation, proof, answer⟩)
  | ⟨.renewRefusedProof _ _ refused, answer⟩ => some (.renewed refused answer)
  | _ => none

/-- The uses of the proof in a run, in order. -/
def proofUses (tr : List ServiceExchange) : List ProofUse := tr.filterMap proofUse?

/-- The step's outcome reports this answer of Briefcase: an upload that fails is held, which takes
the last exchanges of the run; the other steps end with it. -/
def BriefcaseStep.Reports (policy : ServicePolicy) (authorization : AuthorizedActor) :
    (step : BriefcaseStep) → Presentation → List ServiceExchange →
      Except WaveformError step.Result → Prop
  | .ttsUpload filename audio requestId, ⟨.storeGeneratedAudio _ _ _, _, answer⟩, tr, outcome =>
      ∃ rest, rest <:+ tr ∧ Dialogue.Runs (concludeUpload policy authorization filename audio
        requestId (answer.mapError Renewal.briefcase)) rest outcome
  | .ttsReplay _ completed, ⟨.verifyFileReadAccess _ _, _, answer⟩, _, outcome =>
      outcome = (answer.mapError mapBriefcaseError).map fun _ => completed.intoResult
  | .sttRead _ _, ⟨.readSourceMedia _ _ _, _, answer⟩, _, outcome =>
      outcome = answer.mapError mapBriefcaseError
  | .sttReplay _ _ result, ⟨.verifyFileReadAccess _ _, _, answer⟩, _, outcome =>
      outcome = (answer.mapError mapBriefcaseError).map fun _ => result
  | _, _, _, _ => False

/-- A run recovers from a refused proof: it asks for a renewal, runs the operation once more with
the renewed proof and reports the second answer, and renews no more than once. -/
structure RenewsOnce (policy : ServicePolicy) (authorization : AuthorizedActor)
    (step : BriefcaseStep) (tr : List ServiceExchange)
    (outcome : Except WaveformError step.Result) :
    Prop where
  attempted : ∀ presentation rest, proofUses tr = .presented presentation :: rest →
    presentation.refused = true → ∃ answer rest', rest = .renewed presentation.proof answer :: rest'
  again : ∀ presentation renewed rest,
    proofUses tr = .presented presentation :: .renewed presentation.proof (.ok renewed) :: rest →
      presentation.refused = true →
      ∃ answer, rest = [.presented ⟨presentation.operation, renewed, answer⟩] ∧
        step.Reports policy authorization ⟨presentation.operation, renewed, answer⟩ tr outcome
  once : (proofUses tr).countP ProofUse.isRenewal ≤ 1

/-! ## The courses of a run -/

section Courses

variable {policy : ServicePolicy} {authorization : AuthorizedActor}
  {subjectToken : Option AccessToken} {tr : List ServiceExchange}

/-- An operation with renewal has its answer, is refused without a new proof, or has its second
answer. -/
theorem runs_withRenewal {proof : BriefcaseProof} {operation : BriefcaseOperation}
    {outcome : Except Renewal operation.Reply}
    (h : Dialogue.Runs (withRenewal authorization subjectToken proof operation) tr outcome) :
    (∃ answer, proofUses tr = [.presented ⟨operation, proof, answer⟩] ∧
      Presentation.refused ⟨operation, proof, answer⟩ = false ∧
      outcome = answer.mapError Renewal.briefcase) ∨
    (∃ error, proofUses tr =
        [.presented ⟨operation, proof, .error .unauthorized⟩, .renewed proof (.error error)] ∧
      outcome = .error (.authority error)) ∨
    ∃ renewed answer, proofUses tr =
        [.presented ⟨operation, proof, .error .unauthorized⟩, .renewed proof (.ok renewed),
          .presented ⟨operation, renewed, answer⟩] ∧
      outcome = answer.mapError Renewal.briefcase := by
  obtain ⟨answer, rest, rfl, hrest⟩ := Dialogue.runs_ask_iff.mp h
  have hother : ∀ answer : Except BriefcaseError operation.Reply,
      Presentation.refused ⟨operation, proof, answer⟩ = false →
      Dialogue.Runs (Dialogue.done (answer.mapError Renewal.briefcase) :
        ServiceProgram (Except Renewal operation.Reply)) rest outcome →
      proofUses (⟨.briefcase operation proof, answer⟩ :: rest) =
          [.presented ⟨operation, proof, answer⟩] ∧
        outcome = answer.mapError Renewal.briefcase := by
    intro answer _ hdone
    obtain ⟨rfl, rfl⟩ := Dialogue.runs_done_iff.mp hdone
    exact ⟨rfl, rfl⟩
  cases answer with
  | ok reply =>
      obtain ⟨huses, houtcome⟩ := hother (.ok reply) rfl hrest
      exact .inl ⟨.ok reply, huses, rfl, houtcome⟩
  | error error =>
      cases error with
      | unauthorized =>
          obtain ⟨renewal, rest', rfl, hrenewal⟩ := Dialogue.runs_ask_iff.mp hrest
          cases renewal with
          | error refusal =>
              obtain ⟨rfl, rfl⟩ := Dialogue.runs_done_iff.mp hrenewal
              exact .inr (.inl ⟨refusal, rfl, rfl⟩)
          | ok renewed =>
              obtain ⟨answer, rest'', rfl, hsecond⟩ := Dialogue.runs_ask_iff.mp hrenewal
              obtain ⟨rfl, rfl⟩ := Dialogue.runs_done_iff.mp hsecond
              exact .inr (.inr ⟨renewed, answer, rfl, rfl⟩)
      | _ =>
          obtain ⟨huses, houtcome⟩ := hother (.error _) rfl hrest
          exact .inl ⟨.error _, huses, rfl, houtcome⟩

@[simp] theorem proofUses_append (tr tr' : List ServiceExchange) :
    proofUses (tr ++ tr') = proofUses tr ++ proofUses tr' :=
  List.filterMap_append

/-- Asking for the stored proof presents nothing. -/
theorem runs_briefcaseAuthority {outcome : Except WaveformError BriefcaseProof}
    (h : Dialogue.Runs (briefcaseAuthority authorization subjectToken) tr outcome) :
    proofUses tr = [] := by
  obtain ⟨answer, rest, rfl, hrest⟩ := Dialogue.runs_ask_iff.mp h
  obtain ⟨rfl, _⟩ := Dialogue.runs_done_iff.mp hrest
  rfl

/-- Holding presents nothing. -/
theorem runs_hold {filename : GeneratedAudioFileName} {audio : NormalizedAudio}
    {requestId : RequestId} {reason : HeldReason} {outcome : Except WaveformError AudioStorage}
    (h : Dialogue.Runs (hold policy authorization filename audio requestId reason) tr outcome) :
    proofUses tr = [] := by
  obtain ⟨answer, rest, rfl, hrest⟩ := Dialogue.runs_ask_iff.mp h
  cases answer with
  | none =>
      obtain ⟨rfl, _⟩ := Dialogue.runs_done_iff.mp hrest
      rfl
  | some expiresAt =>
      obtain ⟨rfl, _⟩ := Dialogue.runs_done_iff.mp hrest
      rfl

theorem runs_concludeUpload {filename : GeneratedAudioFileName} {audio : NormalizedAudio}
    {requestId : RequestId} {result : Except Renewal BriefcaseFileUrl}
    {outcome : Except WaveformError AudioStorage}
    (h : Dialogue.Runs (concludeUpload policy authorization filename audio requestId result) tr
      outcome) : proofUses tr = [] := by
  cases result with
  | ok permanentUrl =>
      obtain ⟨rfl, _⟩ := Dialogue.runs_done_iff.mp h
      rfl
  | error error => exact runs_hold h

variable {step : BriefcaseStep} {outcome : Except WaveformError step.Result}

/-- A run that presents no proof has nothing to recover from. -/
theorem RenewsOnce.of_unused (h : proofUses tr = []) :
    RenewsOnce policy authorization step tr outcome where
  attempted := by
    intro presentation rest huses
    rw [h] at huses
    cases huses
  again := by
    intro presentation renewed rest huses
    rw [h] at huses
    cases huses
  once := by rw [h]; exact Nat.zero_le 1

/-- A run that presents one proof and renews none recovers unless the proof is refused. -/
theorem renewsOnce_iff_of_single {presentation : Presentation}
    (h : proofUses tr = [.presented presentation]) :
    RenewsOnce policy authorization step tr outcome ↔ presentation.refused = false := by
  constructor
  · intro hrenews
    by_contra hrefused
    obtain ⟨answer, rest, heq⟩ := hrenews.attempted presentation [] h
      (by simpa using hrefused)
    cases heq
  · intro hnot
    refine ⟨?_, ?_, ?_⟩
    · intro other rest huses hrefused
      rw [h] at huses
      cases huses
      rw [hnot] at hrefused
      cases hrefused
    · intro other renewed rest huses
      rw [h] at huses
      cases huses
    · rw [h]
      exact Nat.zero_le 1

/-- **An operation with renewal recovers**, when the step reports its outcome. -/
theorem RenewsOnce.of_withRenewal {proof : BriefcaseProof} {operation : BriefcaseOperation}
    {before during after : List ServiceExchange} {result : Except Renewal operation.Reply}
    (htr : tr = before ++ (during ++ after)) (hbefore : proofUses before = [])
    (hafter : proofUses after = [])
    (hrun : Dialogue.Runs (withRenewal authorization subjectToken proof operation) during result)
    (hreports : ∀ renewed answer, result = answer.mapError Renewal.briefcase →
      step.Reports policy authorization ⟨operation, renewed, answer⟩ tr outcome) :
    RenewsOnce policy authorization step tr outcome := by
  have huses : proofUses tr = proofUses during := by
    rw [htr, proofUses_append, proofUses_append, hbefore, hafter, List.nil_append, List.append_nil]
  rcases runs_withRenewal hrun with ⟨answer, hduring, hnot, _⟩ | ⟨error, hduring, _⟩ |
    ⟨renewed, answer, hduring, hresult⟩
  · rw [hduring] at huses
    exact (renewsOnce_iff_of_single huses).mpr hnot
  · rw [hduring] at huses
    refine ⟨?_, ?_, ?_⟩
    · intro presentation rest heq _
      rw [huses] at heq
      cases heq
      exact ⟨.error error, [], rfl⟩
    · intro presentation renewed rest heq
      rw [huses] at heq
      cases heq
    · rw [huses]
      exact Nat.le_refl 1
  · rw [hduring] at huses
    refine ⟨?_, ?_, ?_⟩
    · intro presentation rest heq _
      rw [huses] at heq
      cases heq
      exact ⟨.ok renewed, _, rfl⟩
    · intro presentation renewed' rest heq _
      rw [huses] at heq
      cases heq
      exact ⟨answer, rfl, hreports renewed answer hresult⟩
    · rw [huses]
      exact Nat.le_refl 1

end Courses

/-! ## Which runs recover -/

section Steps

variable {policy : ServicePolicy} {authorization : AuthorizedActor}
  {subjectToken : Option AccessToken} {tr : List ServiceExchange}

/-- Storing generated audio recovers. -/
theorem storeAudio_renewsOnce {filename : GeneratedAudioFileName} {audio : NormalizedAudio}
    {requestId : RequestId} {outcome : Except WaveformError AudioStorage}
    (h : Dialogue.Runs (storeAudio policy authorization subjectToken filename audio requestId) tr
      outcome) :
    RenewsOnce policy authorization (.ttsUpload filename audio requestId) tr outcome := by
  unfold storeAudio at h
  split at h
  · exact .of_unused (runs_hold h)
  · obtain ⟨answer, rest, rfl, hrest⟩ := Dialogue.runs_ask_iff.mp h
    cases answer with
    | error error =>
        have hunused := runs_hold hrest
        exact .of_unused hunused
    | ok proof =>
        obtain ⟨during, result, after, rfl, hrun, hconclude⟩ := Dialogue.runs_bind_iff.mp hrest
        have htr : ∀ first : ServiceExchange,
            first :: (during ++ after) = [first] ++ (during ++ after) := fun _ => rfl
        refine .of_withRenewal (htr _) rfl (runs_concludeUpload hconclude) hrun ?_
        intro renewed answer hresult
        rw [hresult] at hconclude
        refine ⟨after, ?_, hconclude⟩
        exact (List.suffix_append during after).trans (List.suffix_cons _ _)

/-- The check before a TTS replay recovers. -/
theorem replayTts_renewsOnce {attemptRequestId : RequestId} {completed : CompletedTtsOperation}
    {outcome : Except WaveformError TtsResult}
    (h : Dialogue.Runs (replayTts authorization subjectToken attemptRequestId completed) tr
      outcome) :
    RenewsOnce policy authorization (.ttsReplay attemptRequestId completed) tr outcome := by
  unfold replayTts at h
  cases hstorage : completed.storage with
  | briefcase permanentUrl =>
      simp only [hstorage] at h
      rcases Dialogue.runs_andThen_iff.mp h with ⟨error, hproof, _⟩ |
        ⟨before, proof, rest, rfl, hproof, hrest⟩
      · exact .of_unused (runs_briefcaseAuthority hproof)
      · obtain ⟨during, result, after, rfl, hrun, hdone⟩ := Dialogue.runs_bind_iff.mp hrest
        obtain ⟨rfl, rfl⟩ := Dialogue.runs_done_iff.mp hdone
        refine .of_withRenewal rfl (runs_briefcaseAuthority hproof) rfl hrun ?_
        rintro renewed answer rfl
        cases answer <;> rfl
  | held reason audioUrl expiresAt =>
      simp only [hstorage] at h
      obtain ⟨answer, rest, rfl, hrest⟩ := Dialogue.runs_ask_iff.mp h
      apply RenewsOnce.of_unused
      cases answer with
      | none =>
          obtain ⟨rfl, _⟩ := Dialogue.runs_done_iff.mp hrest
          rfl
      | some held =>
          obtain ⟨rfl, _⟩ := Dialogue.runs_done_iff.mp hrest
          rfl

/-- Reading the source recovers. -/
theorem readSource_renewsOnce {requestId : RequestId} {request : SttRequest}
    {outcome : Except WaveformError SourceMedia}
    (h : Dialogue.Runs (readSource policy authorization subjectToken requestId request) tr
      outcome) :
    RenewsOnce policy authorization (.sttRead requestId request) tr outcome := by
  rcases Dialogue.runs_andThen_iff.mp h with ⟨error, hproof, _⟩ |
    ⟨before, proof, rest, rfl, hproof, hrest⟩
  · exact .of_unused (runs_briefcaseAuthority hproof)
  · obtain ⟨during, result, after, rfl, hrun, hdone⟩ := Dialogue.runs_bind_iff.mp hrest
    obtain ⟨rfl, rfl⟩ := Dialogue.runs_done_iff.mp hdone
    refine .of_withRenewal rfl (runs_briefcaseAuthority hproof) rfl hrun ?_
    rintro renewed answer rfl
    cases answer <;> rfl

/-- The check before an STT replay presents one proof at most, and renews none. -/
theorem replayStt_uses {requestId : RequestId} {request : SttRequest} {result : SttResult}
    {outcome : Except WaveformError SttResult}
    (h : Dialogue.Runs (replayStt authorization subjectToken requestId request result) tr
      outcome) :
    proofUses tr = [] ∨ ∃ presentation, proofUses tr = [.presented presentation] := by
  rcases Dialogue.runs_andThen_iff.mp h with ⟨error, hproof, _⟩ |
    ⟨before, proof, rest, rfl, hproof, hrest⟩
  · exact .inl (runs_briefcaseAuthority hproof)
  · obtain ⟨answer, after, rfl, hdone⟩ := Dialogue.runs_ask_iff.mp hrest
    obtain ⟨rfl, _⟩ := Dialogue.runs_done_iff.mp hdone
    refine .inr ⟨⟨_, proof, answer⟩, ?_⟩
    rw [proofUses_append, runs_briefcaseAuthority hproof]
    rfl

/-- **A step recovers from a refused proof in every run, but for the check before an STT replay
whose proof Briefcase refuses.** -/
theorem renewsOnce_iff {step : BriefcaseStep} {outcome : Except WaveformError step.Result}
    (h : Dialogue.Runs (step.program policy authorization subjectToken) tr outcome) :
    RenewsOnce policy authorization step tr outcome ↔
      ¬ (step.isSttReplay = true ∧
        ∃ presentation, .presented presentation ∈ proofUses tr ∧ presentation.refused = true) := by
  cases step with
  | ttsUpload filename audio requestId =>
      exact ⟨fun _ hreplay => (nomatch hreplay.1), fun _ => storeAudio_renewsOnce h⟩
  | ttsReplay attemptRequestId completed =>
      exact ⟨fun _ hreplay => (nomatch hreplay.1), fun _ => replayTts_renewsOnce h⟩
  | sttRead requestId request =>
      exact ⟨fun _ hreplay => (nomatch hreplay.1), fun _ => readSource_renewsOnce h⟩
  | sttReplay requestId request result =>
      rcases replayStt_uses h with hunused | ⟨presentation, hsingle⟩
      · refine ⟨?_, fun _ => .of_unused hunused⟩
        rintro _ ⟨_, presentation, hmem, _⟩
        rw [hunused] at hmem
        cases hmem
      · rw [renewsOnce_iff_of_single hsingle, hsingle]
        constructor
        · rintro hnot ⟨_, other, hmem, hrefused⟩
          cases List.mem_singleton.mp hmem
          rw [hnot] at hrefused
          cases hrefused
        · intro hnone
          by_contra hrefused
          exact hnone ⟨rfl, presentation, List.mem_cons_self, by simpa using hrefused⟩

end Steps

/-- The deployment of the runs below. -/
def samplePolicy : ServicePolicy :=
  ⟨Store.sampleUrl "/", ⟨maxSourceMediaBytes, by decide⟩⟩

/-- A stored proof, and the one that renewal gives. -/
def sampleProof (token : String) (h : proofTokenValid token = true) : BriefcaseProof :=
  ⟨⟨token, h⟩, 0⟩

/-- The account that calls, directly. -/
def sampleCaller : AuthorizedActor := ⟨Store.sampleScope.actor, none⟩

/-- The file of the requests below. -/
def sampleFile : BriefcaseFileUrl :=
  ⟨Store.sampleUrl "/files/hello.mp3", Store.validPermanent_hello⟩

/-- Briefcase refuses the proof of a TTS replay, and shows the file under the renewed one. -/
theorem renewsOnce_iff_ttsReplay :
    RenewsOnce samplePolicy sampleCaller (.ttsReplay Store.sampleRequestId Store.sampleResult)
      [⟨.briefcaseProof sampleCaller none, .ok (sampleProof "sap_1" (by decide))⟩,
        ⟨.briefcase (.verifyFileReadAccess sampleFile Store.sampleRequestId)
          (sampleProof "sap_1" (by decide)), .error .unauthorized⟩,
        ⟨.renewRefusedProof sampleCaller none (sampleProof "sap_1" (by decide)),
          .ok (sampleProof "sap_2" (by decide))⟩,
        ⟨.briefcase (.verifyFileReadAccess sampleFile Store.sampleRequestId)
          (sampleProof "sap_2" (by decide)), .ok ()⟩]
      (.ok Store.sampleResult.intoResult) := by
  refine (@renewsOnce_iff samplePolicy sampleCaller none _ _ _ ?_).mpr
    fun hreplay => nomatch hreplay.1
  refine Dialogue.runs_ask_iff.mpr ⟨_, _, rfl, ?_⟩
  refine Dialogue.runs_ask_iff.mpr ⟨_, _, rfl, ?_⟩
  refine Dialogue.runs_ask_iff.mpr ⟨_, _, rfl, ?_⟩
  refine Dialogue.runs_ask_iff.mpr ⟨_, _, rfl, ?_⟩
  exact Dialogue.runs_done_iff.mpr ⟨rfl, rfl⟩

/-- A finished transcription. -/
def sampleTranscription : SttResult :=
  ⟨Store.sampleRequestId, ⟨"Hello", transcriptBounded_hello⟩, none, .gemini, none⟩

/-- The request that asked for it. -/
def sampleTranscribe : SttRequest := ⟨.empty, sampleFile, none, none⟩

/-- **The check before an STT replay reports the refusal of its proof at once.** -/
theorem not_forall_renewsOnce :
    ¬ ∀ (policy : ServicePolicy) (authorization : AuthorizedActor)
      (subjectToken : Option AccessToken) (step : BriefcaseStep) (tr : List ServiceExchange)
      (outcome : Except WaveformError step.Result),
      Dialogue.Runs (step.program policy authorization subjectToken) tr outcome →
        RenewsOnce policy authorization step tr outcome := by
  intro h
  let proof := sampleProof "sap_1" (by decide)
  let operation := BriefcaseOperation.verifyFileReadAccess sampleFile Store.sampleRequestId
  have hrun : Dialogue.Runs ((BriefcaseStep.sttReplay Store.sampleRequestId sampleTranscribe
      sampleTranscription).program samplePolicy sampleCaller none)
      [⟨.briefcaseProof sampleCaller none, .ok proof⟩,
        ⟨.briefcase operation proof, .error .unauthorized⟩]
      (.error .storageAuthorizationRequired) := by
    refine Dialogue.runs_ask_iff.mpr ⟨_, _, rfl, ?_⟩
    refine Dialogue.runs_ask_iff.mpr ⟨_, _, rfl, ?_⟩
    exact Dialogue.runs_done_iff.mpr ⟨rfl, rfl⟩
  have hrenews := h _ _ _ _ _ _ hrun
  obtain ⟨answer, rest, heq⟩ :=
    hrenews.attempted ⟨operation, proof, .error .unauthorized⟩ [] rfl rfl
  cases heq

end Waveform.Service
