import Waveform.Service.LeaseGuard
import Waveform.Service.ReplayStability

/-!
# A granted lease is settled

However the future of a request ends, the lease that the store granted it has been completed or its
release has been issued, and not both.

- `settled_of_armed`: a future dropped with an armed guard releases the lease.
- `settles_failWith`, `settles_runJob`: the failure path, and what both operations share.
- `lease_settled`: both operations settle the lease they acquire.
-/

set_option autoImplicit false

namespace Waveform.Service

open Waveform.Domain
open Waveform.Control (Settings)
open Dialogue

/-! ## What an ended request has done -/

/-- The release that a call issues. -/
def SpeechCall.release? : SpeechCall → Option IdempotencyRelease
  | .release issued => some issued
  | _ => none

/-- The call is a claim. -/
def SpeechCall.isClaim : SpeechCall → Bool
  | .claim _ => true
  | _ => false

/-- The completion that an exchange acknowledges. -/
def acknowledged? : SpeechExchange → Option IdempotencyCompletion
  | ⟨⟨_, .complete completion⟩, .ok ()⟩ => some completion
  | _ => none

/-- The completions that the store acknowledged. -/
def acknowledged (tr : List SpeechExchange) : List IdempotencyCompletion :=
  tr.filterMap acknowledged?

section Endings

variable {α : Type}

/-- The guard that an ended future drops. -/
def guardAtEnd : Ending Awaited (Option OperationLeaseGuard × α) → Option OperationLeaseGuard
  | .finished (guard, _) => guard
  | .dropped awaited => awaited.guard

/-- The release that was under way when the future was dropped. -/
def pendingRelease : Ending Awaited (Option OperationLeaseGuard × α) → Option IdempotencyRelease
  | .finished _ => none
  | .dropped awaited => awaited.call.release?

/-- The releases issued: those awaited, answered or not, and those that the guard spawns. -/
def issuedReleases (tryCurrent : Bool) (tr : List SpeechExchange)
    (ending : Ending Awaited (Option OperationLeaseGuard × α)) : List IdempotencyRelease :=
  tr.filterMap (fun e => e.query.call.release?) ++ (pendingRelease ending).toList ++
    (guardAtEnd ending).toList.flatMap (OperationLeaseGuard.drop tryCurrent)

end Endings

/-- The lease has been completed once and never released, or never completed but released. -/
def Settled (scope : IdempotencyScope) (leaseId : IdempotencyLeaseId)
    (completions : List IdempotencyCompletion) (releases : List IdempotencyRelease) : Prop :=
  (∃ completion, completions = [completion] ∧ completion.scope = scope ∧
      completion.leaseId = leaseId ∧ releases = []) ∨
    completions = [] ∧ releases ≠ [] ∧
      ∀ release ∈ releases, release.scope = scope ∧ release.leaseId = leaseId

/-- Every ending of the future in which the store granted a lease settles that lease. -/
def SettlesLease {α : Type} (tryCurrent : Bool) (future : SpeechFuture α) : Prop :=
  ∀ tr ending, Ends future tr ending → ∀ guard claim lease requestId operationStartedAt,
    (⟨⟨guard, .claim claim⟩, .ok (.acquired lease requestId operationStartedAt)⟩ :
      SpeechExchange) ∈ tr →
    Settled claim.scope lease.id (acknowledged tr) (issuedReleases tryCurrent tr ending)

/-! ## Parts of a request -/

section Parts

variable {α : Type} {scope : IdempotencyScope} {leaseId : IdempotencyLeaseId}

/-- The part that holds the guard settles the lease, from nothing acknowledged and nothing
issued. -/
def Settles (scope : IdempotencyScope) (leaseId : IdempotencyLeaseId) (future : SpeechFuture α) :
    Prop :=
  Ensures future fun tr ending =>
    Settled scope leaseId (acknowledged tr) (issuedReleases true tr ending)

/-- The guard is armed for the lease. -/
def OperationLeaseGuard.ArmedFor (guard : OperationLeaseGuard) (scope : IdempotencyScope)
    (leaseId : IdempotencyLeaseId) : Prop :=
  ∃ code, guard.release = some ⟨code, scope, leaseId⟩

theorem armedFor_new : (OperationLeaseGuard.new scope leaseId).ArmedFor scope leaseId :=
  ⟨none, rfl⟩

theorem drop_armed {guard : OperationLeaseGuard} {code : Option ErrorCode}
    (h : guard.release = some ⟨code, scope, leaseId⟩) :
    guard.drop true = [⟨code, scope, leaseId⟩] := by
  rw [OperationLeaseGuard.drop, h]
  rfl

/-- **An armed guard releases the lease**, also when a release of it was under way. -/
theorem settled_of_armed {guard : OperationLeaseGuard} (harmed : guard.ArmedFor scope leaseId)
    {ending : Ending Awaited (Option OperationLeaseGuard × α)}
    (hguard : guardAtEnd ending = some guard)
    (hpending : ∀ release, pendingRelease ending = some release →
      release.scope = scope ∧ release.leaseId = leaseId) :
    Settled scope leaseId (acknowledged []) (issuedReleases true [] ending) := by
  obtain ⟨code, hrelease⟩ := harmed
  have hspawned : (guardAtEnd ending).toList.flatMap (OperationLeaseGuard.drop true) =
      [⟨code, scope, leaseId⟩] := by
    rw [hguard]
    exact (List.append_nil _).trans (drop_armed hrelease)
  refine .inr ⟨rfl, ?_, ?_⟩
  · rw [issuedReleases, hspawned]
    exact List.append_ne_nil_of_right_ne_nil _ (List.cons_ne_nil _ _)
  · intro release hmem
    rw [issuedReleases, hspawned] at hmem
    rcases List.mem_append.mp hmem with hmem | hmem
    · exact hpending release (Option.mem_toList.mp hmem)
    · cases List.mem_singleton.mp hmem
      exact ⟨rfl, rfl⟩

/-- It may be dropped at any call that is no release. -/
theorem settled_dropped {guard : OperationLeaseGuard} (harmed : guard.ArmedFor scope leaseId)
    {call : SpeechCall} (hcall : call.release? = none) :
    Settled scope leaseId (acknowledged [])
      (issuedReleases true [] (.dropped ⟨some guard, call⟩ :
        Ending Awaited (Option OperationLeaseGuard × α))) := by
  refine settled_of_armed harmed rfl fun release hrelease => ?_
  cases hcall.symm.trans hrelease

/-- **The failure path settles the lease**: dropped while the release is awaited, the guard is still
armed; afterwards the release has been issued, whatever the store answered. -/
theorem settles_failWith {guard : OperationLeaseGuard} (harmed : guard.ArmedFor scope leaseId)
    (error : WaveformError) : Settles scope leaseId (failWith guard error : SpeechFuture α) := by
  obtain ⟨code, hrelease⟩ := harmed
  have hfail : (failWith guard error : SpeechFuture α) =
      .ask ⟨some ⟨some ⟨some error.code, scope, leaseId⟩⟩,
        .release ⟨some error.code, scope, leaseId⟩⟩ fun _ =>
          .done (some ⟨none⟩, .error error) := by
    rw [failWith, OperationLeaseGuard.fail, hrelease]
    rfl
  rw [Settles, hfail, ensures_ask]
  constructor
  · refine settled_of_armed ⟨some error.code, rfl⟩ rfl fun release hpending => ?_
    cases hpending
    exact ⟨rfl, rfl⟩
  · intro answer
    refine ensures_done.mpr (.inr ⟨rfl, List.cons_ne_nil _ _, ?_⟩)
    intro release hmem
    cases List.mem_singleton.mp hmem
    exact ⟨rfl, rfl⟩

/-- Work neither completes nor releases anything. -/
theorem quiet_of_work {guard : Option OperationLeaseGuard} {tr : List SpeechExchange}
    (h : ∀ e ∈ tr, ∃ call, e.query = ⟨guard, .work call⟩) :
    acknowledged tr = [] ∧ tr.filterMap (fun e => e.query.call.release?) = [] := by
  constructor <;> refine List.filterMap_eq_nil_iff.mpr fun e he => ?_
  all_goals
    obtain ⟨query, answer⟩ := e
    obtain ⟨call, hquery⟩ := h _ he
    cases hquery
    rfl

/-- What follows quiet exchanges settles the lease as it would alone. -/
theorem settled_append {tr tr' : List SpeechExchange}
    {ending : Ending Awaited (Option OperationLeaseGuard × α)}
    (hquiet : acknowledged tr = [] ∧ tr.filterMap (fun e => e.query.call.release?) = [])
    (h : Settled scope leaseId (acknowledged tr') (issuedReleases true tr' ending)) :
    Settled scope leaseId (acknowledged (tr ++ tr')) (issuedReleases true (tr ++ tr') ending) := by
  have hacknowledged : acknowledged (tr ++ tr') = acknowledged tr' := by
    rw [acknowledged, List.filterMap_append]
    exact congrArg (· ++ _) hquiet.1
  have hissued : issuedReleases true (tr ++ tr') ending = issuedReleases true tr' ending := by
    rw [issuedReleases, List.filterMap_append, hquiet.2]
    rfl
  rw [hacknowledged, hissued]
  exact h

/-- A part that works under an armed guard, and then settles the lease. -/
theorem settles_working {β : Type} {guard : OperationLeaseGuard}
    (harmed : guard.ArmedFor scope leaseId)
    (program : WorkProgram β) {next : β → SpeechFuture α}
    (hnext : ∀ b, Settles scope leaseId (next b)) :
    Settles scope leaseId ((working (some guard) program).bind next) := by
  refine (ensures_asking _ _ program).bind (fun tr awaited h => ?_) fun tr b h => ?_
  · obtain ⟨call, rfl⟩ := h.2 awaited rfl
    have hdropped : Settled scope leaseId (acknowledged (tr ++ []))
        (issuedReleases true (tr ++ []) (.dropped ⟨some guard, .work call⟩ :
          Ending Awaited (Option OperationLeaseGuard × Except WaveformError α))) :=
      settled_append (quiet_of_work h.1) (settled_dropped harmed rfl)
    rw [List.append_nil] at hdropped
    exact hdropped
  · exact (hnext b).mono fun tr' ending hsettled => settled_append (quiet_of_work h.1) hsettled

/-- **What both operations do from `start_job` on settles the lease.** -/
theorem settles_runJob {guard : OperationLeaseGuard} {start : SpeechJobStart}
    (harmed : guard.ArmedFor scope leaseId) (hscope : start.scope = scope)
    (hlease : start.leaseId = leaseId) (execute : WorkProgram (Except WaveformError α))
    (record : α → CompletedSpeechOperation) :
    Settles scope leaseId (runJob guard start execute record) := by
  subst hscope hlease
  refine ensures_ask.mpr ⟨settled_dropped harmed rfl, fun started => ?_⟩
  cases started with
  | error error =>
      -- The early return: the guard is dropped armed.
      refine ensures_done.mpr (settled_of_armed harmed rfl fun release hrelease => ?_)
      cases hrelease
  | ok _ =>
      refine settles_working harmed execute fun outcome => ?_
      cases outcome with
      | error error => exact settles_failWith harmed error
      | ok result =>
          dsimp only
          cases hcompletion : completion start.scope start.leaseId (record result) with
          | error error => exact settles_failWith harmed error
          | ok completed =>
              have hof : completed.scope = start.scope ∧ completed.leaseId = start.leaseId := by
                rw [completion] at hcompletion
                split at hcompletion
                · cases hcompletion
                · cases hcompletion
                  exact ⟨rfl, rfl⟩
              refine ensures_ask.mpr ⟨settled_dropped harmed rfl, fun answer => ?_⟩
              cases answer with
              | error error => exact settles_failWith harmed (mapIdempotencyError error)
              | ok _ =>
                  -- Nothing is awaited between the acknowledgement and the disarming.
                  exact ensures_done.mpr (.inl ⟨completed, rfl, hof.1, hof.2, rfl⟩)

end Parts

/-! ## No second claim -/

section Claimless

variable {α : Type}

/-- The part claims nothing. -/
def Claimless (future : SpeechProgram α) : Prop :=
  Ensures future fun tr _ => ∀ e ∈ tr, e.query.call.isClaim = false

theorem claimless_done (a : α) : Claimless (.done a) := ensures_done.mpr (List.forall_mem_nil _)

theorem claimless_ask {awaited : Awaited} {next : SpeechAnswer awaited → SpeechProgram α}
    (hcall : awaited.call.isClaim = false) (hnext : ∀ answer, Claimless (next answer)) :
    Claimless (.ask awaited next) := by
  refine ensures_ask.mpr ⟨List.forall_mem_nil _, fun answer => ?_⟩
  exact (hnext answer).mono fun tr _ h => List.forall_mem_cons.mpr ⟨hcall, h⟩

theorem claimless_working {β : Type} {guard : Option OperationLeaseGuard} (program : WorkProgram β)
    {next : β → SpeechProgram α} (hnext : ∀ b, Claimless (next b)) :
    Claimless ((working guard program).bind next) := by
  have hwork : ∀ tr : List SpeechExchange, (∀ e ∈ tr, ∃ call, e.query = ⟨guard, .work call⟩) →
      ∀ e ∈ tr, e.query.call.isClaim = false := by
    intro tr h e he
    obtain ⟨call, hquery⟩ := h e he
    rw [hquery]
    rfl
  refine (ensures_asking _ _ program).bind (fun tr awaited h => hwork tr h.1) fun tr b h => ?_
  refine (hnext b).mono fun tr' _ h' e he => ?_
  exact (List.mem_append.mp he).elim (hwork tr h.1 e) (h' e)

theorem claimless_failWith (guard : OperationLeaseGuard) (error : WaveformError) :
    Claimless (failWith guard error : SpeechFuture α) := by
  rw [failWith, OperationLeaseGuard.fail]
  cases guard.release with
  | none => apply claimless_done
  | some release => exact claimless_ask rfl fun _ => claimless_done _

theorem claimless_runJob (guard : OperationLeaseGuard) (start : SpeechJobStart)
    (execute : WorkProgram (Except WaveformError α)) (record : α → CompletedSpeechOperation) :
    Claimless (runJob guard start execute record) := by
  apply claimless_ask rfl
  intro started
  cases started with
  | error error => apply claimless_done
  | ok _ =>
      apply claimless_working
      intro outcome
      cases outcome with
      | error error => exact claimless_failWith guard error
      | ok result =>
          dsimp only
          cases completion start.scope start.leaseId (record result) with
          | error error => exact claimless_failWith guard error
          | ok completed =>
              apply claimless_ask rfl
              intro answer
              cases answer with
              | error error => exact claimless_failWith guard (mapIdempotencyError error)
              | ok _ => apply claimless_done

end Claimless

/-! ## Both operations -/

section Operations

variable {α : Type}

/-- A future that claims once settles the lease that it is granted. -/
theorem settlesLease_of_claim {claim : IdempotencyClaim}
    {next : Except IdempotencyStoreError IdempotencyDecision → SpeechFuture α}
    (hclaimless : ∀ answer, Claimless (next answer))
    (hacquired : ∀ lease requestId operationStartedAt,
      Settles claim.scope lease.id (next (.ok (.acquired lease requestId operationStartedAt)))) :
    SettlesLease true (.ask ⟨none, .claim claim⟩ next) := by
  intro tr ending hends guard claim' lease requestId operationStartedAt hmem
  cases hends with
  | dropped => cases hmem
  | answered answer hrest =>
      rcases List.mem_cons.mp hmem with heq | hmem
      · cases heq
        let granted : SpeechExchange :=
          ⟨⟨none, .claim claim⟩, .ok (.acquired lease requestId operationStartedAt)⟩
        have hquiet : acknowledged [granted] = [] ∧
            [granted].filterMap (fun e => e.query.call.release?) = [] := ⟨rfl, rfl⟩
        exact settled_append hquiet (hacquired _ _ _ _ _ hrest)
      · cases hclaimless answer _ _ hrest _ hmem

/-- A future that claims nothing is granted nothing. -/
theorem settlesLease_of_claimless {future : SpeechFuture α} (h : Claimless future) :
    SettlesLease true future := by
  intro tr ending hends guard claim lease requestId operationStartedAt hmem
  cases h tr ending hends _ hmem

variable (service : WaveformService) (settings : Settings) (context : SpeechRequestContext)
  (authorization : AuthorizedActor) (leaseId : IdempotencyLeaseId)

theorem settles_synthesizeResolved (request : TtsRequest) (scope : IdempotencyScope)
    (lease : IdempotencyLease) (requestId : RequestId) (operationStartedAt : Nat)
    (resolvedVoice : Option VoiceProfile) :
    Settles scope lease.id (service.synthesizeResolved settings context authorization request scope
      lease requestId operationStartedAt resolvedVoice) :=
  settles_runJob armedFor_new (by rfl) (by rfl) _ _

/-- From the granted lease on, synthesis settles it. -/
theorem settles_synthesizeAcquired (request : TtsRequest) (scope : IdempotencyScope)
    (lease : IdempotencyLease) (requestId : RequestId) (operationStartedAt : Nat) :
    Settles scope lease.id (service.synthesizeAcquired settings context authorization request scope
      lease requestId operationStartedAt) := by
  rw [WaveformService.synthesizeAcquired]
  split
  · refine ensures_ask.mpr ⟨settled_dropped armedFor_new rfl, fun answer => ?_⟩
    cases answer with
    | error error => exact settles_failWith armedFor_new error
    | ok profile => apply settles_synthesizeResolved
  · split
    · exact settles_failWith armedFor_new .invalidRequest
    · apply settles_synthesizeResolved

theorem claimless_synthesizeAcquired (request : TtsRequest) (scope : IdempotencyScope)
    (lease : IdempotencyLease) (requestId : RequestId) (operationStartedAt : Nat) :
    Claimless (service.synthesizeAcquired settings context authorization request scope
      lease requestId
      operationStartedAt) := by
  rw [WaveformService.synthesizeAcquired]
  split
  · apply claimless_ask rfl
    intro answer
    cases answer with
    | error error => exact claimless_failWith _ error
    | ok profile => apply claimless_runJob
  · split
    · apply claimless_failWith
    · apply claimless_runJob

theorem settlesLease_synthesize (request : TtsRequest) :
    SettlesLease true (service.synthesizeAuthorized settings context authorization leaseId
      request) := by
  rw [WaveformService.synthesizeAuthorized]
  cases service.speech.prepareClaim settings context authorization (.tts request) leaseId with
  | error error => exact settlesLease_of_claimless (claimless_done _)
  | ok claim =>
      apply settlesLease_of_claim
      · intro answer
        cases answer with
        | error error => apply claimless_done
        | ok decision =>
            cases decision with
            | acquired lease requestId startedAt => apply claimless_synthesizeAcquired
            | replay response =>
                cases response with
                | tts completed => exact claimless_working _ fun _ => claimless_done _
                | stt result => apply claimless_done
            | keyReused => apply claimless_done
            | inProgress retryAfter => apply claimless_done
      · intro lease requestId startedAt
        apply settles_synthesizeAcquired

theorem settlesLease_transcribe (request : SttRequest) :
    SettlesLease true (service.transcribeAuthorized settings context authorization leaseId
      request) := by
  rw [WaveformService.transcribeAuthorized]
  cases service.speech.prepareClaim settings context authorization (.stt request) leaseId with
  | error error => exact settlesLease_of_claimless (claimless_done _)
  | ok claim =>
      apply settlesLease_of_claim
      · intro answer
        cases answer with
        | error error => apply claimless_done
        | ok decision =>
            cases decision with
            | acquired lease requestId startedAt => apply claimless_runJob
            | replay response =>
                cases response with
                | tts completed => apply claimless_done
                | stt result => exact claimless_working _ fun _ => claimless_done _
            | keyReused => apply claimless_done
            | inProgress retryAfter => apply claimless_done
      · intro lease requestId startedAt
        exact settles_runJob armedFor_new (by rfl) (by rfl) _ _

/-- **A granted lease is settled.** However the future of a synthesis or a transcription ends, at
any return or dropped at any await, the lease that the store granted is completed or released, and
not both. `tryCurrent` says that the runtime that polls a future also drops it. -/
theorem lease_settled (tryCurrent : Bool) (hruntime : tryCurrent = true) :
    (∀ request, SettlesLease tryCurrent
      (service.synthesizeAuthorized settings context authorization leaseId request)) ∧
    ∀ request, SettlesLease tryCurrent
      (service.transcribeAuthorized settings context authorization leaseId request) := by
  subst hruntime
  exact ⟨settlesLease_synthesize service settings context authorization leaseId,
    settlesLease_transcribe service settings context authorization leaseId⟩

end Operations

/-! ## A job that is not started -/

/-- A service with both chains. -/
def sampleWaveform : WaveformService where
  speech := sampleService
  work := ⟨samplePolicy, ttsProviderChain, sttProviderChain, fun _ => .newYear⟩
  hasVoiceProfiles := false

/-- A request that leaves the order to the account. -/
def sampleTts : TtsRequest where
  autoFallback := true
  providerOptions := .default
  providerKeys := .empty
  text := sampleText
  voiceProfile := none
  language := none
  providerOrder := none

/-- The lease is granted, and the store fails to start the job: the future returns the error and its
guard, still armed, spawns the release. -/
theorem lease_settled_unstarted : ∃ tr ending,
    Ends (sampleWaveform.synthesizeAuthorized sampleSettings sampleContext sampleAuthorization
      (Store.sampleLease 0) sampleTts) tr ending ∧
    issuedReleases true tr ending = [⟨none, Store.sampleScope, Store.sampleLease 0⟩] ∧
    Settled Store.sampleScope (Store.sampleLease 0) (acknowledged tr)
      (issuedReleases true tr ending) := by
  have hprepared : sampleService.prepareClaim sampleSettings sampleContext sampleAuthorization
      (.tts sampleTts) (Store.sampleLease 0) =
        .ok (sampleClaimFor none [.gemini, .elevenLabs, .openAi]) :=
    prepareClaim_ok.mpr ⟨by decide, [.gemini, .elevenLabs, .openAi], by decide, rfl, ⟨_, rfl⟩, rfl⟩
  have hends : ∃ start, Ends (sampleWaveform.synthesizeAuthorized sampleSettings sampleContext
      sampleAuthorization (Store.sampleLease 0) sampleTts)
      [⟨⟨none, .claim (sampleClaimFor none [.gemini, .elevenLabs, .openAi])⟩,
          .ok (.acquired ⟨Store.sampleLease 0, 310⟩ Store.sampleRequestId 10)⟩,
        ⟨⟨some (.new Store.sampleScope (Store.sampleLease 0)), .startJob start⟩,
          .error .unavailable⟩]
      (.finished (some (.new Store.sampleScope (Store.sampleLease 0)),
        .error (.dependencyUnavailable .idempotencyStore))) := by
    rw [WaveformService.synthesizeAuthorized, show sampleWaveform.speech = sampleService from rfl,
      hprepared]
    exact ⟨_, .answered _ (.answered _ (.finished _))⟩
  obtain ⟨start, hends⟩ := hends
  refine ⟨_, _, hends, rfl, ?_⟩
  exact (lease_settled sampleWaveform sampleSettings sampleContext sampleAuthorization
    (Store.sampleLease 0) true rfl).1 sampleTts _ _ hends none _ ⟨Store.sampleLease 0, 310⟩
      Store.sampleRequestId 10 List.mem_cons_self

end Waveform.Service
