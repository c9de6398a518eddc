import Mathlib.Algebra.Group.Nat.Defs
import Waveform.Service.Speech
import Waveform.Store.SingleCompletion

/-!
# Replays after the account's defaults have changed

A completed request is replayed to the same caller request with the same key only when its digest
comes out the same. The digest covers the completed provider order, and that order starts from what
the account has saved when the request is made. So a replay does not depend on the saved voice, and
it does depend on the saved order: on how it ranks the providers that the caller did not name.

- `SettingsChange`: what a caller may save, and the database defaults.
- `replayed_iff_sameOrder`: the repeated request is replayed exactly when the account's order ranks
  the providers that the request does not name as it did at the claim of the completed attempt.
-/

set_option autoImplicit false

namespace Waveform.Service

open Waveform.Domain LabelledRun
open Waveform.Control (Settings ProviderDefaults)
open Waveform.Store (StoreEvent Readings RecordRow)

/-! ## What a prepared claim says -/

section Prepare

variable {service : SpeechService} {settings settings' : Settings}
  {authorization authorization' : AuthorizedActor} {context context' : SpeechRequestContext}
  {request : SpeechRequest} {leaseId leaseId' : IdempotencyLeaseId}

/-- The order a request starts from has the providers of its chain. -/
theorem baseOrder_perm {operation : SpeechOperation} {base : List ProviderName}
    (h : service.baseOrder settings authorization operation = .ok base) :
    base.Perm (Settings.chain operation) := by
  unfold SpeechService.baseOrder at h
  split at h
  · split at h
    · rename_i order horder
      cases h
      exact Settings.providerOrder_perm horder
    · cases h
  · cases h
    exact List.Perm.refl _

/-- **What a completed order is**: what the request names, then the rest as the account ranks it. -/
theorem completeProviderOrder_ok {operation : SpeechOperation}
    {requested : Option (List ProviderName)} {order : List ProviderName} :
    service.completeProviderOrder settings authorization operation requested = .ok order ↔
      ∃ base, service.baseOrder settings authorization operation = .ok base ∧
        requested ≠ some [] ∧ requested.getD [] ⊆ Settings.chain operation ∧
        (requested.getD []).Nodup ∧
        order = requested.getD [] ++ remaining (requested.getD []) base := by
  cases hbase : service.baseOrder settings authorization operation with
  | error error =>
      simp [SpeechService.completeProviderOrder, hbase, bind, Except.bind]
  | ok base =>
      have hperm := baseOrder_perm hbase
      have hnodup : base.Nodup := hperm.nodup_iff.mpr (Settings.chain_nodup operation)
      have hsubset : requested.getD [] ⊆ Settings.chain operation ↔ requested.getD [] ⊆ base :=
        ⟨fun h => List.Subset.trans h hperm.symm.subset,
          fun h => List.Subset.trans h hperm.subset⟩
      simp only [SpeechService.completeProviderOrder, hbase, bind, Except.bind, Except.ok.injEq,
        exists_eq_left', hsubset]
      by_cases hempty : requested = some []
      · simp [hempty]
      rw [if_neg hempty]
      constructor
      · intro h
        split at h
        · rename_i completed hcompleted
          cases h
          obtain ⟨hsome, _⟩ := Option.filter_eq_some_iff.mp hcompleted
          obtain ⟨hsub, hreq, rfl⟩ := (completeOrder_eq_some hnodup).mp hsome
          exact ⟨hempty, hsub, hreq, rfl⟩
        · cases h
      · rintro ⟨_, hsub, hreq, rfl⟩
        -- The completed order is as long as the chain, so the filter keeps it.
        have hlength := (append_remaining_perm hnodup hsub hreq).length_eq.trans hperm.length_eq
        have hsome : resolveOrder (requested.getD []) base =
            some (requested.getD [] ++ remaining (requested.getD []) base) :=
          (completeOrder_eq_some hnodup).mpr ⟨hsub, hreq, rfl⟩
        simp [hsome, Option.filter_some, hlength]

/-- The keys of an attempt depend on the saved keys of the account only. -/
theorem forActor_congr (hkeys : settings'.providerKeys = settings.providerKeys)
    (hactor : authorization'.actor = authorization.actor) (requestKeys : ProviderApiKeys) :
    service.forActor settings' authorization' requestKeys =
      service.forActor settings authorization requestKeys := by
  simp only [SpeechService.forActor, Settings.loadProviderKeys, Settings.savedKeyRow, hkeys, hactor]

/-- **What was checked before a claim**, and the claim that was made. -/
theorem prepareClaim_ok {claim : IdempotencyClaim} :
    service.prepareClaim settings context authorization request leaseId = .ok claim ↔
      service.validateEarly request = .ok () ∧
      ∃ order, service.completeProviderOrder settings authorization request.operation
          request.providerOrder = .ok order ∧
        SpeechService.validateLate request order = .ok () ∧
        (∃ keys, service.forActor settings authorization request.providerKeys = .ok keys) ∧
        claim = service.claimFor context authorization request order leaseId := by
  unfold SpeechService.prepareClaim
  constructor
  · intro h
    obtain ⟨_, hearly, h⟩ := Except.bind_eq_ok.mp h
    obtain ⟨order, horder, h⟩ := Except.bind_eq_ok.mp h
    obtain ⟨_, hlate, h⟩ := Except.bind_eq_ok.mp h
    obtain ⟨keys, hkeys, h⟩ := Except.bind_eq_ok.mp h
    cases h
    exact ⟨hearly, order, horder, hlate, ⟨keys, hkeys⟩, rfl⟩
  · rintro ⟨hearly, order, horder, hlate, ⟨keys, hkeys⟩, rfl⟩
    simp [hearly, horder, hlate, hkeys, bind, Except.bind]
    rfl

/-- With the same saved keys, a request whose order completes as before is claimed as before. -/
theorem prepareClaim_of_sameOrder {claim : IdempotencyClaim} {order : List ProviderName}
    (h : service.prepareClaim settings context authorization request leaseId = .ok claim)
    (hkeys : settings'.providerKeys = settings.providerKeys)
    (hactor : authorization'.actor = authorization.actor)
    (horder : service.completeProviderOrder settings authorization request.operation
      request.providerOrder = .ok order)
    (horder' : service.completeProviderOrder settings' authorization' request.operation
      request.providerOrder = .ok order) :
    service.prepareClaim settings' context' authorization' request leaseId' =
      .ok (service.claimFor context' authorization' request order leaseId') := by
  obtain ⟨hearly, completed, hcompleted, hlate, ⟨keys, hforActor⟩, _⟩ := prepareClaim_ok.mp h
  rw [horder] at hcompleted
  cases hcompleted
  apply prepareClaim_ok.mpr
  refine ⟨hearly, order, horder', hlate, ⟨keys, ?_⟩, rfl⟩
  rw [forActor_congr hkeys hactor]
  exact hforActor

/-- The order that a digest covers, when the MAC has no collision between the two requests. -/
theorem digest_inj_order {key : DigestKey} {order order' : List ProviderName}
    (hfree : RequestDigest.CollisionFree key ((request.withProviderOrder order).messages key)
      ((request.withProviderOrder order').messages key))
    (h : (request.withProviderOrder order).digest key =
      (request.withProviderOrder order').digest key) : order = order' := by
  cases request with
  | tts request => exact RequestDigest.forTts_inj_order hfree h
  | stt request => exact RequestDigest.forStt_inj_order hfree h

end Prepare

/-! ## The digest of a completed record -/

section Digest

variable {idempotency : Store.IdempotencySettings} {scope : IdempotencyScope}
  {leaseId : IdempotencyLeaseId} {digest : RequestDigest}

/-- The lease was granted, and whatever record is pending under it has the digest of its claim. -/
def LeaseDigest (scope : IdempotencyScope) (leaseId : IdempotencyLeaseId) (digest : RequestDigest)
    (w : Store.World) : Prop :=
  w.attempts leaseId ≠ none ∧ ∀ row leaseExpiresAt, w.db.records scope = some row →
    row.state = .pending leaseId leaseExpiresAt → row.requestDigest = digest

/-- A step keeps that: only a claim sets a digest, and no other claim has this lease id. -/
theorem LeaseDigest.step {w w' : Store.World} {e : StoreEvent}
    (h : LeaseDigest scope leaseId digest w) (hstep : Store.Step idempotency w e w') :
    LeaseDigest scope leaseId digest w' := by
  obtain ⟨hgranted, hdigest⟩ := h
  have hfresh := hstep.fresh
  obtain ⟨a, ha⟩ := Option.ne_none_iff_exists'.mp hgranted
  rw [hstep.eq_next]
  refine ⟨?_, ?_⟩
  · obtain ⟨b, hb, _⟩ := Store.next_attempts_of_some hfresh ha
    rw [hb]
    simp
  · intro row leaseExpiresAt hrow hstate
    have hchange := Store.next_recordChange idempotency w e scope
    rw [hrow] at hchange
    generalize hnew : some row = new at hchange
    cases hchange with
    | kept => exact hdigest row leaseExpiresAt hnew.symm hstate
    | inserted hop _ _ _ _ =>
        cases hnew
        cases hstate
        rw [hop] at hfresh
        exact absurd hfresh.1 hgranted
    | reclaimed hop _ _ _ _ _ _ _ =>
        cases hnew
        cases hstate
        rw [hop] at hfresh
        exact absurd hfresh.1 hgranted
    | completed _ _ _ _ _ _ _ _ =>
        cases hnew
        cases hstate
    | released _ _ hstored hpending _ =>
        cases hnew
        cases hstate
        have hsame := hdigest _ _ hstored hpending
        exact hsame
    | purged _ _ _ => cases hnew

/-- A granted claim establishes it. -/
theorem LeaseDigest.granted {claim : IdempotencyClaim} {lease : IdempotencyLease}
    {t : Store.StoreTransition} (hcoherent : Store.Coherent t.pre)
    (h : Store.GrantsAt idempotency claim.scope claim lease t)
    (hstep : Store.Step idempotency t.pre t.label t.post) :
    LeaseDigest claim.scope claim.leaseId claim.digest t.post := by
  obtain ⟨hop, _, requestId, startedAt, hout⟩ := h
  obtain ⟨hlease, _, _⟩ := Store.GrantsAt.spec ⟨hop, rfl, requestId, startedAt, hout⟩ hstep
  have hnext := hstep.eq_next
  refine ⟨?_, ?_⟩
  · have hout' : t.pre.outcome idempotency t.label =
        .decided (.acquired lease requestId startedAt) := hout
    rw [hnext]
    simp [Store.World.next, Store.recordAttempt, hop, hout', hlease]
  · intro row leaseExpiresAt hrow hstate
    have hchange := Store.next_recordChange idempotency t.pre t.label claim.scope
    rw [← hnext, hrow] at hchange
    generalize hnew : some row = new at hchange
    have hfresh := hstep.fresh
    cases hchange with
    | kept =>
        -- Before the grant no record was pending under the new lease id.
        obtain ⟨a, ha, _⟩ := hcoherent.pending _ _ _ _ hnew.symm hstate
        rw [hop] at hfresh
        have hnone : t.pre.attempts claim.leaseId = none := hfresh.1
        rw [hnone] at ha
        cases ha
    | inserted hop' _ _ _ _ =>
        cases hnew
        rw [hop] at hop'
        cases hop'
        rfl
    | reclaimed hop' _ _ _ _ _ hdigest _ =>
        cases hnew
        rw [hop] at hop'
        cases hop'
        exact hdigest
    | completed hop' _ _ _ _ _ _ _ =>
        rw [hop] at hop'
        cases hop'
    | released hop' _ _ _ _ =>
        rw [hop] at hop'
        cases hop'
    | purged _ _ _ => cases hnew

end Digest

/-! ## Requests among changes of settings -/

/-- What can be saved of orders and voices: by an account, or as the database default. -/
inductive SettingsChange where
  | ensurePreferences (storageKey : ActorId) (created : Nat)
  | updatePreferences (storageKey : ActorId) (body : Settings.Preferences) (written : Nat)
  | setDefaults (defaults : ProviderDefaults)

/-- The settings after a change; a refused one changes nothing. -/
def SettingsChange.apply (settings : Settings) : SettingsChange → Settings
  | .ensurePreferences storageKey created => settings.ensurePreferences storageKey created
  | .updatePreferences storageKey body written =>
      match settings.updatePreferences storageKey body written with
      | .ok saved => saved
      | .error _ => settings
  | .setDefaults defaults => { settings with defaults := defaults }

/-- No change of orders or voices touches the saved keys. -/
theorem SettingsChange.apply_providerKeys (settings : Settings) (change : SettingsChange) :
    (change.apply settings).providerKeys = settings.providerKeys := by
  have hensure : ∀ storageKey created,
      (settings.ensurePreferences storageKey created).providerKeys = settings.providerKeys := by
    intro storageKey created
    unfold Settings.ensurePreferences
    split <;> rfl
  cases change with
  | ensurePreferences storageKey created => exact hensure storageKey created
  | setDefaults defaults => rfl
  | updatePreferences storageKey body written =>
      simp only [apply]
      split
      · rename_i saved hsaved
        unfold Settings.updatePreferences at hsaved
        split at hsaved
        · cases hsaved
        · obtain ⟨tts, _, hsaved⟩ := Except.bind_eq_ok.mp hsaved
          obtain ⟨stt, _, hsaved⟩ := Except.bind_eq_ok.mp hsaved
          cases hsaved
          exact hensure storageKey written
      · rfl

/-- The stores of the service and the settings. -/
structure ServiceWorld where
  store : Store.World
  settings : Settings

/-- An operation of the stores, or a change of settings. -/
inductive ServiceEvent where
  | store (e : StoreEvent)
  | settings (change : SettingsChange)

/-- One step. -/
inductive ServiceStep (service : SpeechService) :
    ServiceWorld → ServiceEvent → ServiceWorld → Prop where
  | store {w : ServiceWorld} {e : StoreEvent} {store : Store.World}
      (h : Store.Step service.idempotency w.store e store) :
      ServiceStep service w (.store e) { w with store := store }
  | settings {w : ServiceWorld} {change : SettingsChange} :
      ServiceStep service w (.settings change) { w with settings := change.apply w.settings }

/-- The transitions of a run of the service. -/
abbrev ServiceTransition := Transition ServiceWorld ServiceEvent

section Runs

variable {service : SpeechService}

/-- The operations of a run are a run of the stores. -/
theorem storeRun {w w' : ServiceWorld} {tr : List ServiceTransition}
    (h : Run (ServiceStep service) w tr w') :
    ∃ tr', Run (Store.Step service.idempotency) w.store tr' w'.store := by
  induction h with
  | nil w => exact ⟨[], .nil w.store⟩
  | cons hstep _ ih =>
      obtain ⟨tr', hrun⟩ := ih
      cases hstep with
      | store hstore => exact ⟨_, .cons hstore hrun⟩
      | settings => exact ⟨tr', hrun⟩

/-- A run keeps the saved keys. -/
theorem providerKeys_of_run {w w' : ServiceWorld} {tr : List ServiceTransition}
    (h : Run (ServiceStep service) w tr w') :
    w'.settings.providerKeys = w.settings.providerKeys := by
  induction h with
  | nil w => rfl
  | cons hstep _ ih =>
      cases hstep with
      | store hstore => exact ih
      | settings => exact ih.trans (SettingsChange.apply_providerKeys _ _)

end Runs

/-- A run in which a request is completed: its claim is granted, and the attempt completes under
that lease. -/
structure CompletedRequest (service : SpeechService) (request : SpeechRequest) where
  context : SpeechRequestContext
  authorization : AuthorizedActor
  claim : IdempotencyClaim
  lease : IdempotencyLease
  completion : IdempotencyCompletion
  initial : ServiceWorld
  before : List ServiceTransition
  /-- The world in which the claim is made. -/
  claimed : ServiceWorld
  claimedAt : Readings
  granted : Store.World
  between : List ServiceTransition
  /-- The world in which the attempt completes. -/
  completing : ServiceWorld
  completedAt : Readings
  completed : Store.World
  initial_eq : initial.store.Initial
  run_before : Run (ServiceStep service) initial before claimed
  prepared : service.prepareClaim claimed.settings context authorization request claim.leaseId =
    .ok claim
  claimStep : Store.Step service.idempotency claimed.store ⟨.claim claim, claimedAt⟩ granted
  grants : Store.GrantsAt service.idempotency claim.scope claim lease
    ⟨claimed.store, ⟨.claim claim, claimedAt⟩, granted⟩
  run_between : Run (ServiceStep service) { claimed with store := granted } between completing
  completeStep : Store.Step service.idempotency completing.store
    ⟨.complete completion, completedAt⟩ completed
  completes : Store.CompletesAt service.idempotency claim.scope completion
    ⟨completing.store, ⟨.complete completion, completedAt⟩, completed⟩
  sameLease : completion.leaseId = claim.leaseId

/-- The stored file may be read: the account has a proof with which Briefcase shows it, or the audio
is held. -/
def ReplayCheck.Readable (check : ReplayCheck) (authorization : AuthorizedActor)
    (context : SpeechRequestContext) (request : SpeechRequest)
    (response : CompletedSpeechOperation) : Prop :=
  let shows : BriefcaseFileUrl → Prop := fun file =>
    ∃ proof, check.briefcaseProof (ReplayCheck.subjectToken authorization context) = .ok proof ∧
      check.verifyFileReadAccess proof file = .ok ()
  match request, response with
  | .tts _, .tts completed =>
      match completed.storage with
      | .briefcase permanentUrl => shows permanentUrl
      | .held _ _ _ =>
          Store.isHeld check.db completed.requestId authorization.actor.id check.now = true
  | .stt request, _ => shows request.sourceUrl
  | .tts _, .stt _ => True

/-- The same request again, with the same key for the same account, later in the run: the record has
not expired, and the file may be read. -/
structure Repeat {service : SpeechService} {request : SpeechRequest}
    (first : CompletedRequest service request) where
  after : List ServiceTransition
  w : ServiceWorld
  context : SpeechRequestContext
  authorization : AuthorizedActor
  leaseId : IdempotencyLeaseId
  now : Readings
  check : ReplayCheck
  run_after : Run (ServiceStep service) { first.completing with store := first.completed } after w
  sameKey : context.idempotencyKey = first.context.idempotencyKey
  sameActor : authorization.actor = first.authorization.actor
  clock_le : w.store.clock ≤ now.begun
  onTime : now.written ≤ now.begun + service.idempotency.operationTimeout
  fresh : w.store.attempts leaseId = none
  unexpired : ∀ row, first.completed.db.records first.claim.scope = some row →
    now.locked < row.expiresAt
  readable : check.Readable authorization context request
    (Store.replayedResponse first.completion.response)

/-- What the repeated request is answered. -/
def Repeat.answer {service : SpeechService} {request : SpeechRequest}
    {first : CompletedRequest service request} (again : Repeat first) : Answer :=
  service.answer again.w.settings again.w.store.db again.now again.check again.context
    again.authorization request again.leaseId

/-- The account's order at the repetition ranks the providers that the request does not name as it
did at the claim. -/
def Repeat.SameOrder {service : SpeechService} {request : SpeechRequest}
    {first : CompletedRequest service request} (again : Repeat first) : Prop :=
  ∃ base base',
    service.baseOrder first.claimed.settings first.authorization request.operation = .ok base ∧
    service.baseOrder again.w.settings again.authorization request.operation = .ok base' ∧
    remaining (request.providerOrder.getD []) base' = remaining (request.providerOrder.getD []) base

/-- HMAC-SHA-256 has no collision between what the two requests feed to it. -/
def Repeat.CollisionFree {service : SpeechService} {request : SpeechRequest}
    {first : CompletedRequest service request} (again : Repeat first) : Prop :=
  ∀ order order', service.completeProviderOrder first.claimed.settings first.authorization
      request.operation request.providerOrder = .ok order →
    service.completeProviderOrder again.w.settings again.authorization request.operation
      request.providerOrder = .ok order' →
    RequestDigest.CollisionFree service.digestKey
      ((request.withProviderOrder order).messages service.digestKey)
      ((request.withProviderOrder order').messages service.digestKey)

/-! ## When a repeated request is replayed -/

section Replay

variable {service : SpeechService} {request : SpeechRequest}
  {first : CompletedRequest service request} {again : Repeat first}

/-- A file that may be read passes the checks of a replay. -/
theorem checkRead_of_readable {check : ReplayCheck} {authorization : AuthorizedActor}
    {context : SpeechRequestContext} {response : CompletedSpeechOperation}
    (hoperation : response.operation = request.operation)
    (h : check.Readable authorization context request response) :
    check.checkRead authorization context request response = .ok () := by
  cases request with
  | tts request =>
      cases response with
      | stt result => cases hoperation
      | tts completed =>
          simp only [ReplayCheck.Readable] at h
          simp only [ReplayCheck.checkRead]
          cases hstorage : completed.storage with
          | briefcase permanentUrl =>
              rw [hstorage] at h
              obtain ⟨proof, hproof, hverify⟩ := h
              simp [ReplayCheck.briefcaseAuthority, hproof, ReplayCheck.verifyWithRenewal, hverify,
                Except.mapError, bind, Except.bind]
          | held reason audioUrl expiresAt =>
              rw [hstorage] at h
              simp [h]
  | stt request =>
      cases response with
      | tts completed => cases hoperation
      | stt result =>
          obtain ⟨proof, hproof, hverify⟩ := h
          simp [ReplayCheck.checkRead, ReplayCheck.briefcaseAuthority, hproof, hverify,
            Except.mapError, bind, Except.bind]

/-- The decision that a claim is answered by. -/
theorem claimInner_of_outcome {settings : Store.IdempotencySettings} {w : Store.World}
    {claim : IdempotencyClaim} {now : Readings} {decision : IdempotencyDecision}
    (h : w.outcome settings ⟨.claim claim, now⟩ = .decided decision) :
    ∃ db, Store.claimInner settings now claim w.db = .ok (decision, db) := by
  cases hclaim : Store.claimInner settings now claim w.db with
  | error error => simp [Store.World.outcome, Store.execute, hclaim, Except.map, Store.commit] at h
  | ok result =>
      obtain ⟨decision', db⟩ := result
      have hsame : decision' = decision := by
        simpa [Store.World.outcome, Store.execute, hclaim, Except.map, Store.commit] using h
      exact ⟨db, by rw [hsame]⟩

/-- **What the completed attempt left**, still there when the request is repeated: the response
under the digest of its claim. -/
theorem Repeat.record (again : Repeat first) :
    ∃ row body, again.w.store.db.records first.claim.scope = some row ∧
      row.state = .completed body ∧
      Store.encodeResponse first.completion.response = .ok body ∧
      first.completion.response.operation = first.claim.scope.operation ∧
      first.completion.response.requestId = row.requestId ∧
      row.requestDigest = first.claim.digest ∧ again.now.locked < row.expiresAt ∧
      again.w.store.db.planes first.claim.scope.planeId = true := by
  -- The run of the stores up to the claim, to the completion and to the repetition.
  obtain ⟨_, hbefore⟩ := storeRun first.run_before
  obtain ⟨_, hbetween⟩ := storeRun first.run_between
  obtain ⟨after, hafter⟩ := storeRun again.run_after
  have hclaimed : Store.Coherent first.claimed.store :=
    hbefore.invariant Store.Coherent (fun _ _ _ => Store.Coherent.step)
      (Store.Coherent.initial first.initial_eq)
  have hcompleting : Store.Coherent first.completing.store :=
    hbetween.invariant Store.Coherent (fun _ _ _ => Store.Coherent.step)
      (hclaimed.step first.claimStep)
  have hend : Store.Coherent again.w.store :=
    hafter.invariant Store.Coherent (fun _ _ _ => Store.Coherent.step)
      (hcompleting.step first.completeStep)
  have hdigest : LeaseDigest first.claim.scope first.claim.leaseId first.claim.digest
      first.completing.store :=
    hbetween.invariant (LeaseDigest first.claim.scope first.claim.leaseId first.claim.digest)
      (fun _ _ _ h => h.step) (LeaseDigest.granted hclaimed first.grants first.claimStep)
  obtain ⟨stored, leaseExpiresAt, body, hstored, hstate, hencode, hoperation, hid, hpost⟩ :=
    first.completes.spec first.completeStep
  let row := Store.completedRecord service.idempotency first.completedAt stored body
  have hunexpired : again.now.locked < row.expiresAt := again.unexpired row hpost
  have hclock := Store.clock_le_of_run hafter
  have hkept : again.w.store.db.records first.claim.scope = some row := by
    apply Store.record_kept_until_expiry rfl hpost hafter
    intro t ht
    calc t.label.now.locked ≤ again.w.store.clock := hclock.2 t ht
      _ ≤ again.now.begun := again.clock_le
      _ ≤ again.now.locked := again.now.begun_le_locked
      _ < row.expiresAt := hunexpired
  have hsame : row.requestDigest = first.claim.digest := by
    rw [first.sameLease] at hstate
    exact hdigest.2 stored leaseExpiresAt hstored hstate
  exact ⟨row, body, hkept, rfl, hencode, hoperation, hid, hsame, hunexpired,
    hend.plane _ _ hkept⟩

/-- **A repeated request is replayed exactly when the account's order ranks the providers that it
does not name as it did at the claim.** -/
theorem replayed_iff_sameOrder (hfree : again.CollisionFree) :
    again.answer = .replayed (Store.replayedResponse first.completion.response) ↔
      again.SameOrder := by
  obtain ⟨row, body, hrow, hbody, hencode, hoperation, hid, hdigest, hunexpired, hplane⟩ :=
    again.record
  obtain ⟨_, order, horder, _, _, hclaim⟩ := prepareClaim_ok.mp first.prepared
  obtain ⟨base, hbase, hnonempty, hsub, hnodup, hordered⟩ := completeProviderOrder_ok.mp horder
  -- A claim that the repetition makes has the scope of the first one.
  have hscope : ∀ order' leaseId, (service.claimFor again.context again.authorization request order'
      leaseId).scope = first.claim.scope := by
    intro order' leaseId
    rw [hclaim]
    simp [SpeechService.claimFor, again.sameActor, again.sameKey]
  constructor
  · intro hreplayed
    simp only [Repeat.answer, SpeechService.answer] at hreplayed
    cases hprepared : service.prepareClaim again.w.settings again.context again.authorization
        request again.leaseId with
    | error error => simp [hprepared] at hreplayed
    | ok claim' =>
        obtain ⟨_, order', horder', _, _, hclaim'⟩ := prepareClaim_ok.mp hprepared
        obtain ⟨base', hbase', _, _, _, hordered'⟩ := completeProviderOrder_ok.mp horder'
        refine ⟨base, base', hbase, hbase', ?_⟩
        have hscope' : claim'.scope = first.claim.scope := by
          rw [hclaim']
          exact hscope order' again.leaseId
        -- Another digest is answered by an error.
        have hsame : claim'.digest = row.requestDigest := by
          by_contra hne
          have hfresh : (Store.StoreOp.claim claim').freshLease service.idempotency
              again.w.store := by
            rw [hclaim']
            exact ⟨again.fresh, rfl⟩
          have hrow' : again.w.store.db.records claim'.scope = some row := by rw [hscope', hrow]
          have hplane' : again.w.store.db.planes claim'.scope.planeId = true := by
            rw [hscope', hplane]
          have hout := (Store.claim_keyReused (e := ⟨.claim claim', again.now⟩) rfl hfresh hplane'
            hrow' (Store.not_recordIsPurgeable_of_lt hunexpired) hne).1
          obtain ⟨db, hinner⟩ := claimInner_of_outcome hout
          simp [hprepared, hinner, answerDecision] at hreplayed
        have hdigests : (request.withProviderOrder order).digest service.digestKey =
            (request.withProviderOrder order').digest service.digestKey := by
          have hfirst : first.claim.digest =
              (request.withProviderOrder order).digest service.digestKey := by rw [hclaim]; rfl
          have hagain : claim'.digest =
              (request.withProviderOrder order').digest service.digestKey := by rw [hclaim']; rfl
          rw [← hfirst, ← hagain, hsame, hdigest]
        have horders := digest_inj_order (hfree order order' horder horder') hdigests
        rw [hordered, hordered'] at horders
        exact (List.append_cancel_left horders).symm
  · rintro ⟨base₁, base', hbase₁, hbase', hremaining⟩
    rw [hbase] at hbase₁
    cases hbase₁
    have horder' : service.completeProviderOrder again.w.settings again.authorization
        request.operation request.providerOrder = .ok order := by
      apply completeProviderOrder_ok.mpr
      exact ⟨base', hbase', hnonempty, hsub, hnodup, by rw [hordered, hremaining]⟩
    have hbetween := providerKeys_of_run first.run_between
    have hafter := providerKeys_of_run again.run_after
    have hkeys : again.w.settings.providerKeys = first.claimed.settings.providerKeys :=
      hafter.trans hbetween
    have hprepared : service.prepareClaim again.w.settings again.context again.authorization request
        again.leaseId =
          .ok (service.claimFor again.context again.authorization request order again.leaseId) :=
      prepareClaim_of_sameOrder first.prepared hkeys again.sameActor horder horder'
    let claim' := service.claimFor again.context again.authorization request order again.leaseId
    have hscope' : claim'.scope = first.claim.scope := hscope order again.leaseId
    have hsame : claim'.digest = row.requestDigest := by
      rw [hdigest, hclaim]
      rfl
    have hrow' : again.w.store.db.records claim'.scope = some row := by rw [hscope', hrow]
    have hplane' : again.w.store.db.planes claim'.scope.planeId = true := by rw [hscope', hplane]
    have hout := (Store.claim_replays (e := ⟨.claim claim', again.now⟩) rfl ⟨again.fresh, rfl⟩
      hplane' hrow' hbody hencode (by rw [hscope', hoperation]) hid hsame hunexpired).1
    obtain ⟨db, hinner⟩ := claimInner_of_outcome hout
    have hread : again.check.checkRead again.authorization again.context request
        (Store.replayedResponse first.completion.response) = .ok () := by
      apply checkRead_of_readable _ again.readable
      rw [Store.replayedResponse_operation, hoperation, hclaim]
      rfl
    simp only [Repeat.answer, SpeechService.answer, hprepared]
    rw [hinner]
    simp [answerDecision, hread]

end Replay

/-! ## A request whose account changes its order -/

/-- A keyed digest that depends on every byte and its place. -/
def sampleDigestKey : DigestKey where
  hmac := fun message =>
    let sum := message.foldl (fun h byte => (h * 65599 + byte.toNat) % 2 ^ 256) 7
    Vector.ofFn fun i => UInt8.ofNat (sum / 256 ^ i.val)
  optionsJson := fun _ => []
  urlText := fun url => url.path

/-- A deployment with the default settings. -/
def sampleService : SpeechService where
  idempotency := Store.sampleSettings
  maxTextChars := maxTtsTextCharacters
  briefcaseOrigin := Store.sampleUrl "/"
  digestKey := sampleDigestKey
  vault := none
  hasProviderKeys := true
  hasProviderOrders := true

/-- The settings of an account that has saved nothing. -/
def sampleSettings : Settings where
  defaults := ⟨["gemini", "elevenlabs", "openai"], ["gemini", "openai", "deepgram"], "charon"⟩
  voices := ["charon"]
  preferences := []
  providerKeys := []

/-- A short text. -/
def sampleText : SpeechText := ⟨"Hello", notBlank_hello, bounded_hello⟩

/-- A request with fallback, and with the given provider order. -/
def sampleRequest (requested : Option (List ProviderName)) : SpeechRequest :=
  .tts
    { autoFallback := true
      providerOptions := .default
      providerKeys := .empty
      text := sampleText
      voiceProfile := none
      language := none
      providerOrder := requested }

def sampleContext : SpeechRequestContext :=
  ⟨Store.sampleRequestId, none, Store.sampleScope.key⟩

def sampleAuthorization : AuthorizedActor := ⟨Store.sampleScope.actor, none⟩

/-- The claim of the request when its order completes to this one. -/
def sampleClaimFor (requested : Option (List ProviderName)) (order : List ProviderName) :
    IdempotencyClaim :=
  sampleService.claimFor sampleContext sampleAuthorization (sampleRequest requested) order
    (Store.sampleLease 0)

/-- The stores once the claim was granted and its job started. -/
def sampleStore (claim : IdempotencyClaim) : Store.World :=
  (Store.sampleWorld.next Store.sampleSettings ⟨.claim claim, .at 10⟩).next Store.sampleSettings
    ⟨.startJob (Store.sampleJob Store.sampleScope 0), .at 20⟩

def sampleCompletion : IdempotencyCompletion :=
  ⟨Store.sampleScope, Store.sampleLease 0, .tts Store.sampleResult⟩

/-- The request claimed at 10 and completed at 30. -/
def sampleFirst (requested : Option (List ProviderName)) (order : List ProviderName)
    (horder : sampleService.completeProviderOrder sampleSettings sampleAuthorization
      .tts requested =
      .ok order)
    (hlate : SpeechService.validateLate (sampleRequest requested) order = .ok ())
    (hdone : (sampleStore (sampleClaimFor requested order)).outcome Store.sampleSettings
      ⟨.complete sampleCompletion, .at 30⟩ = .done) :
    CompletedRequest sampleService (sampleRequest requested) where
  context := sampleContext
  authorization := sampleAuthorization
  claim := sampleClaimFor requested order
  lease := ⟨Store.sampleLease 0, 10 + Store.sampleSettings.lease⟩
  completion := sampleCompletion
  initial := ⟨Store.sampleWorld, sampleSettings⟩
  before := []
  claimed := ⟨Store.sampleWorld, sampleSettings⟩
  claimedAt := .at 10
  granted := Store.sampleWorld.next Store.sampleSettings
    ⟨.claim (sampleClaimFor requested order), .at 10⟩
  between := [⟨_, .store ⟨.startJob (Store.sampleJob Store.sampleScope 0), .at 20⟩, _⟩]
  completing := ⟨sampleStore (sampleClaimFor requested order), sampleSettings⟩
  completedAt := .at 30
  completed := (sampleStore (sampleClaimFor requested order)).next Store.sampleSettings
    ⟨.complete sampleCompletion, .at 30⟩
  initial_eq := Store.sampleWorld_initial
  run_before := .nil _
  prepared := prepareClaim_ok.mpr ⟨if_neg (Nat.not_lt.mpr sampleText.bounded), order, horder, hlate,
    ⟨_, rfl⟩, rfl⟩
  claimStep := ⟨Nat.le_of_ble_eq_true rfl, Nat.le_of_ble_eq_true rfl, ⟨rfl, rfl⟩, rfl⟩
  grants := ⟨rfl, rfl, Store.sampleRequestId, 10, rfl⟩
  run_between := Run.single
    (.store ⟨Nat.le_of_ble_eq_true rfl, Nat.le_of_ble_eq_true rfl, trivial, rfl⟩)
  completeStep := ⟨Nat.le_of_ble_eq_true rfl, Nat.le_of_ble_eq_true rfl, trivial, rfl⟩
  completes := ⟨rfl, rfl, hdone⟩
  sameLease := rfl

/-- The account prefers another provider from then on. -/
def sampleChange : SettingsChange :=
  .updatePreferences sampleAuthorization.actor.id ⟨none, some ["elevenlabs"], none⟩ 40

/-- Proofs and files as a replay finds them: the account has a proof, and Briefcase shows the
file. -/
def sampleCheck : ReplayCheck where
  briefcaseProof := fun _ => .ok ⟨⟨"sap_1", proofTokenValid_sap1⟩, 0⟩
  renewRefusedProof := fun _ _ => .error .notAuthorized
  verifyFileReadAccess := fun _ _ => .ok ()
  db := Store.sampleWorld.db
  now := 60

/-- The request again at 50, after the account has changed its order. -/
def sampleAgain {requested : Option (List ProviderName)}
    (first : CompletedRequest sampleService (sampleRequest requested))
    (hkey : sampleContext.idempotencyKey = first.context.idempotencyKey)
    (hactor : sampleAuthorization.actor = first.authorization.actor)
    (hclock : first.completed.clock ≤ 50)
    (hfresh : first.completed.attempts (Store.sampleLease 1) = none)
    (hunexpired : ∀ row ∈ first.completed.db.records first.claim.scope, 50 < row.expiresAt)
    (hresponse : first.completion.response = .tts Store.sampleResult) : Repeat first where
  after := [⟨_, .settings sampleChange, _⟩]
  w := ⟨first.completed, sampleChange.apply first.completing.settings⟩
  context := sampleContext
  authorization := sampleAuthorization
  leaseId := Store.sampleLease 1
  now := .at 50
  check := sampleCheck
  run_after := Run.single .settings
  sameKey := hkey
  sameActor := hactor
  clock_le := hclock
  onTime := Nat.le_add_right _ _
  fresh := hfresh
  unexpired := hunexpired
  readable := by
    rw [hresponse]
    exact ⟨_, rfl, rfl⟩

/-- A request that names every provider. -/
def fullFirst :
    CompletedRequest sampleService (sampleRequest (some [.openAi, .gemini, .elevenLabs])) :=
  sampleFirst _ [.openAi, .gemini, .elevenLabs] (by decide) rfl (by decide)

/-- The same request again. -/
def fullAgain : Repeat fullFirst :=
  sampleAgain fullFirst rfl rfl (by decide) (by decide) (by decide) rfl

/-- It does not depend on what the account prefers. -/
theorem replayed_iff_sameOrder_fullAgain :
    fullAgain.answer = .replayed (.tts Store.sampleResult) := by
  have hfree : fullAgain.CollisionFree := by
    intro order order' horder horder' m hm m' hm' _
    have hfirst : sampleService.completeProviderOrder sampleSettings sampleAuthorization .tts
        (some [.openAi, .gemini, .elevenLabs]) = .ok [.openAi, .gemini, .elevenLabs] := by decide
    have hagain : sampleService.completeProviderOrder (sampleChange.apply sampleSettings)
        sampleAuthorization .tts (some [.openAi, .gemini, .elevenLabs]) =
          .ok [.openAi, .gemini, .elevenLabs] := by decide
    cases hfirst.symm.trans horder
    cases hagain.symm.trans horder'
    -- Both digests are computed from the one message.
    rw [List.mem_singleton.mp hm, List.mem_singleton.mp hm']
  exact (replayed_iff_sameOrder hfree).mpr
    ⟨[.gemini, .elevenLabs, .openAi], [.elevenLabs, .gemini, .openAi], by decide, by decide, rfl⟩

/-- A request that leaves the order to the account. -/
def defaultFirst : CompletedRequest sampleService (sampleRequest none) :=
  sampleFirst _ [.gemini, .elevenLabs, .openAi] (by decide) rfl (by decide)

/-- The same request again. -/
def defaultAgain : Repeat defaultFirst :=
  sampleAgain defaultFirst rfl rfl (by decide) (by decide) (by decide) rfl

/-- **A saved order changes the digest of a request that names none**: the repetition is refused as
another request. -/
theorem not_forall_replayed :
    ¬ ∀ (service : SpeechService) (request : SpeechRequest)
      (first : CompletedRequest service request) (again : Repeat first),
      again.answer = .replayed (Store.replayedResponse first.completion.response) := by
  intro h
  have hreplayed := h _ _ _ defaultAgain
  have hrefused : defaultAgain.answer = .refused .idempotencyKeyReused := by decide +kernel
  rw [hrefused] at hreplayed
  cases hreplayed

end Waveform.Service
