import Waveform.Store.OneOperation

/-!
# Operations that share a request id

The request id that a client sends is the request id of the record, the primary key of the job and
the primary key of held audio. `Undisturbed` says of one operation that a run of the store cannot be
told from a run in which the operation is alone: its own events are answered the same, and the
store holds of it what it would hold.

- `undisturbed_of_startsOwnJob`: every operation is undisturbed in every run in which no
  `start_job` meets a job row of another operation under its request id.
- `start_meets_other_job`: such a meeting is never harmless. Alone the start succeeds; in the shared
  store it fails, or it takes over the other operation's row.
- `not_forall_undisturbed`: it can happen.
-/

set_option autoImplicit false

namespace Waveform.Store

open Waveform.Domain LabelledRun

/-! ## Which operation a step is a step of -/

/-- The operation that an event works on; maintenance works on all of them. -/
def StoreEvent.operationId (w : World) (e : StoreEvent) : Option OperationId :=
  match e.op with
  | .claim claim => some ⟨claim.scope, claimedStart w.db e.now claim⟩
  | .startJob job => (w.attempts job.leaseId).map Attempt.operationId
  | .complete completion => (w.attempts completion.leaseId).map Attempt.operationId
  | .release release => (w.attempts release.leaseId).map Attempt.operationId
  | .hold attempt _ => (w.attempts attempt).map Attempt.operationId
  | .recoverExpiredJobs => none
  | .deleteExpiredRecords _ => none
  | .deleteExpiredAudio _ => none

/-- The event is one of the operation's own, or maintenance. -/
def StoreEvent.Concerns (w : World) (e : StoreEvent) (o : OperationId) : Prop :=
  ∀ other ∈ e.operationId w, other = o

instance (w : World) (e : StoreEvent) (o : OperationId) : Decidable (e.Concerns w o) :=
  inferInstanceAs (Decidable (∀ other ∈ e.operationId w, other = o))

/-- How a transition of the shared store appears to an operation that is alone in its store: its
own events are taken and answered as they were, those of others are not taken. -/
inductive AloneStep (settings : IdempotencySettings) (o : OperationId) :
    StoreTransition → List StoreTransition → Prop where
  | own {t alone : StoreTransition} (hconcerns : t.label.Concerns t.pre o)
      (hlabel : alone.label = t.label)
      (houtcome : alone.pre.outcome settings t.label = t.pre.outcome settings t.label)
      (hpre : alone.pre.db = t.pre.db.only o) (hpost : alone.post.db = t.post.db.only o) :
      AloneStep settings o t [alone]
  | other {t : StoreTransition} (hother : ¬ t.label.Concerns t.pre o) : AloneStep settings o t []
  /-- A later claim of the same key removes the operation's expired record, which maintenance would
  have removed. -/
  | purged {t alone : StoreTransition} (hother : ¬ t.label.Concerns t.pre o)
      (hlabel : alone.label = ⟨.deleteExpiredRecords [o.scope], t.label.now⟩) :
      AloneStep settings o t [alone]

/-- The operation runs in the store as it runs alone from the same empty store. -/
def Undisturbed (settings : IdempotencySettings) (o : OperationId) (w : World)
    (tr : List StoreTransition) (w' : World) : Prop :=
  ∃ trs alone, Run (ProtocolStep settings) w (List.flatten trs) alone ∧
    alone.db = w'.db.only o ∧ List.Forall₂ (AloneStep settings o) tr trs

/-! ## Steps of the operation -/

section Steps

variable {settings : IdempotencySettings} {w : World} {e : StoreEvent} {o : OperationId}

theorem StoreEvent.Concerns.attempt {leaseId : IdempotencyLeaseId} {a : Attempt}
    (h : e.Concerns w o) (hid : e.operationId w = (w.attempts leaseId).map Attempt.operationId)
    (ha : w.attempts leaseId = some a) : a.operationId = o := by
  apply h
  rw [hid, ha]
  rfl

/-- A lease that was granted to the operation holds no other operation's record. -/
theorem leaseOfOwn_of_attempt (hcoherent : Coherent w) {leaseId : IdempotencyLeaseId}
    {a : Attempt} (ha : w.attempts leaseId = some a) (hown : a.operationId = o) :
    LeaseOfOwn w.db o leaseId := by
  intro stored hstored htoken
  obtain ⟨hoperation, _⟩ := hcoherent.operationId_eq hstored htoken ha
  rw [hown] at hoperation
  exact congrArg OperationId.startedAt hoperation.symm

/-- **A step of the operation answers and does the same in its part of the store.** -/
theorem execute_only (hcoherent : Coherent w) (hseparated : Separated w)
    (hfresh : e.op.freshLease settings w) (hprotocol : e.op.inProtocol w)
    (hown : e.StartsOwnJob w) (hconcerns : e.Concerns w o) :
    execute settings e.now (w.db.only o) e.op =
      onlyResult o (execute settings e.now w.db e.op) := by
  unfold StoreEvent.StartsOwnJob at hown
  cases hop : e.op with
  | claim claim =>
      rw [hop] at hfresh
      have hid : (⟨claim.scope, claimedStart w.db e.now claim⟩ : OperationId) = o :=
        hconcerns _ (by simp [StoreEvent.operationId, hop])
      exact execute_only_claim (congrArg OperationId.scope hid)
        (congrArg OperationId.startedAt hid) hfresh.2
  | startJob job =>
      rw [hop] at hprotocol hown
      obtain ⟨a, ha, hscope⟩ := hprotocol
      have hid : a.operationId = o :=
        hconcerns.attempt (by simp [StoreEvent.operationId, hop]) ha
      have hscope' : job.scope = o.scope := by rw [← hscope, ← hid]; rfl
      have hlease := leaseOfOwn_of_attempt hcoherent ha hid
      refine execute_only_startJob hscope' hlease ?_ hseparated.held
      intro stored leaseExpiresAt hstored hstate hunexpired hstorable row hrow
      have htoken : stored.state.leaseToken = some job.leaseId := by rw [hstate]; rfl
      have hrowId := hown stored hstored htoken
        (by simpa [hstate, RecordState.leaseExpiresAt] using hunexpired) hstorable row hrow
      have hcreated := hlease stored (by rw [← hscope', hstored]) htoken
      rw [hrowId, hscope', hcreated]
  | complete completion =>
      rw [hop] at hprotocol
      obtain ⟨a, ha, hscope, _⟩ := hprotocol
      have hid : a.operationId = o :=
        hconcerns.attempt (by simp [StoreEvent.operationId, hop]) ha
      have hscope' : completion.scope = o.scope := by rw [← hscope, ← hid]; rfl
      refine execute_only_complete hscope' (leaseOfOwn_of_attempt hcoherent ha hid) ?_
      intro requestId row hrow htoken
      obtain ⟨b, hb, hoperation⟩ := hseparated.token requestId row _ hrow htoken
      rw [Option.mem_def.mp ha] at hb
      cases hb
      rw [← hoperation, hid]
  | release release =>
      rw [hop] at hprotocol
      obtain ⟨a, ha, hscope⟩ := hprotocol
      have hid : a.operationId = o :=
        hconcerns.attempt (by simp [StoreEvent.operationId, hop]) ha
      have hscope' : release.scope = o.scope := by rw [← hscope, ← hid]; rfl
      exact execute_only_release hscope' (leaseOfOwn_of_attempt hcoherent ha hid)
  | hold attempt audio =>
      rw [hop] at hprotocol
      obtain ⟨a, ha, _, _, hstarted, hrequest, _⟩ := hprotocol
      have hid : a.operationId = o :=
        hconcerns.attempt (by simp [StoreEvent.operationId, hop]) ha
      obtain ⟨job, hjob, hoperation⟩ := hseparated.started attempt a ha hstarted
      exact execute_only_hold (by rw [hrequest, hjob]) (by rw [hoperation, hid])
  | recoverExpiredJobs => exact execute_only_recoverExpiredJobs
  | deleteExpiredRecords selected => exact execute_only_deleteExpiredRecords selected
  | deleteExpiredAudio selected => exact execute_only_deleteExpiredAudio selected

/-! ## Steps of other operations -/

/-- The operation an event works on, when it works on another one than `o`. -/
theorem operationId_of_not_concerns (h : ¬ e.Concerns w o) :
    ∃ other, e.operationId w = some other ∧ other ≠ o := by
  simp only [StoreEvent.Concerns, Option.mem_def, not_forall] at h
  obtain ⟨other, hother, hne⟩ := h
  exact ⟨other, hother, hne⟩

theorem ne_of_not_concerns {leaseId : IdempotencyLeaseId} {a : Attempt}
    (h : ¬ e.Concerns w o) (hid : e.operationId w = (w.attempts leaseId).map Attempt.operationId)
    (ha : w.attempts leaseId = some a) : a.operationId ≠ o := by
  obtain ⟨other, hother, hne⟩ := operationId_of_not_concerns h
  rw [hid, ha, Option.map_some, Option.some.injEq] at hother
  rw [hother]
  exact hne

/-- A step of another operation leaves the operation's jobs. -/
theorem only_jobs_of_not_concerns (hcoherent : Coherent w) (hseparated : Separated w)
    (hown : e.StartsOwnJob w) (h : ¬ e.Concerns w o) (requestId : RequestId) :
    ((w.next settings e).db.only o).jobs requestId = (w.db.only o).jobs requestId := by
  have hmaintenance : e.operationId w ≠ none := by
    obtain ⟨other, hother, _⟩ := operationId_of_not_concerns h
    rw [hother]
    simp
  -- A row of another operation is in neither part.
  have hidden : (∀ row, w.db.jobs requestId = some row → row.operationId ≠ o) →
      (∀ row, (w.next settings e).db.jobs requestId = some row → row.operationId ≠ o) →
      ((w.next settings e).db.only o).jobs requestId = (w.db.only o).jobs requestId := by
    intro hbefore hafter
    rw [Db.only_jobs_of_other hbefore, Db.only_jobs_of_other hafter]
  have rewritten : ∀ {new row : JobRow}, (w.next settings e).db.jobs requestId = some new →
      w.db.jobs requestId = some row → new.operationId = row.operationId →
      row.operationId ≠ o →
      ((w.next settings e).db.only o).jobs requestId = (w.db.only o).jobs requestId := by
    intro new row hnew hrow hsame hne
    apply hidden
    · intro other hother
      rw [hrow] at hother
      cases hother
      exact hne
    · intro other hother
      rw [hnew] at hother
      cases hother
      rw [hsame]
      exact hne
  have hchange := next_jobChange settings w e requestId
  generalize hnew : (w.next settings e).db.jobs requestId = new at hchange
  cases hchange with
  | kept => simp only [Db.only, hnew]
  | @started job stored leaseExpiresAt hop hstored hstate hunexpired hstorable hid _ =>
      subst hid
      obtain ⟨hrows, hrow⟩ :=
        upsertedJob_operationId hown hop hstored hstate hunexpired hstorable
      obtain ⟨a, ha, hscope, _, hstart⟩ := hcoherent.pending _ _ _ _ hstored hstate
      have hne : (⟨job.scope, stored.createdAt⟩ : OperationId) ≠ o := by
        have := ne_of_not_concerns h (by simp [StoreEvent.operationId, hop]) ha
        simpa only [Attempt.operationId, hscope, hstart] using this
      apply hidden
      · intro row hold
        rw [hrows row hold]
        exact hne
      · intro row hold
        rw [hnew] at hold
        cases hold
        rw [hrow]
        exact hne
  | @finished completion _ _ row hop _ _ _ hrow htoken _ =>
      obtain ⟨a, ha, hoperation⟩ := hseparated.token _ _ _ hrow htoken
      have hne := ne_of_not_concerns h (by simp [StoreEvent.operationId, hop]) ha
      rw [hoperation] at hne
      exact rewritten hnew hrow (row.finished_operationId _ _) hne
  | @released release row hop hrow htoken =>
      obtain ⟨a, ha, hoperation⟩ := hseparated.token _ _ _ hrow htoken
      have hne := ne_of_not_concerns h (by simp [StoreEvent.operationId, hop]) ha
      rw [hoperation] at hne
      exact rewritten hnew hrow (row.released_operationId _ _) hne
  | recovered hop _ => exact absurd (by simp [StoreEvent.operationId, hop]) hmaintenance

/-- A step of another operation leaves the operation's held audio. -/
theorem only_held_of_not_concerns (hcoherent : Coherent w) (hseparated : Separated w)
    (hprotocol : e.op.inProtocol w) (hown : e.StartsOwnJob w) (h : ¬ e.Concerns w o)
    (requestId : RequestId) :
    ((w.next settings e).db.only o).held requestId = (w.db.only o).held requestId := by
  have hvisible : ∀ db : Db, (db.jobs requestId).any (fun row => row.operationId = o) =
      ((db.only o).jobs requestId).isSome := by
    intro db
    cases hrow : db.jobs requestId with
    | none => simp [Db.only, hrow]
    | some row => by_cases hid : row.operationId = o <;> simp [Db.only, hrow, hid]
  have hjobs : ((w.next settings e).db.jobs requestId).any (fun row => row.operationId = o) =
      (w.db.jobs requestId).any (fun row => row.operationId = o) := by
    rw [hvisible, hvisible, only_jobs_of_not_concerns hcoherent hseparated hown h]
  -- The holding attempt has started a job of its own operation under this request id.
  have hidden : ∀ {attempt : IdempotencyLeaseId} {audio : HeldAudio},
      e.op = .hold attempt audio → audio.requestId = requestId →
      ((w.next settings e).db.only o).held requestId = (w.db.only o).held requestId := by
    intro attempt audio hop hid
    rw [hop] at hprotocol
    obtain ⟨a, ha, _, _, hstarted, hrequest, _⟩ := hprotocol
    obtain ⟨job, hjob, hoperation⟩ := hseparated.started attempt a ha hstarted
    have hne := ne_of_not_concerns h (by simp [StoreEvent.operationId, hop]) ha
    rw [← hoperation] at hne
    rw [← hrequest, hid] at hjob
    have hfalse : (w.db.jobs requestId).any (fun row => row.operationId = o) = false := by
      simp [hjob, hne]
    simp only [Db.only, hjobs, hfalse, Bool.false_eq_true, if_false]
  have hchange := next_heldChange settings w e requestId
  generalize hnew : (w.next settings e).db.held requestId = new at hchange
  cases hchange with
  | kept => simp only [Db.only, hjobs, hnew]
  | inserted hop hid _ _ => exact hidden hop hid
  | replaced hop hid _ _ _ => exact hidden hop hid
  | expired hop _ _ =>
      obtain ⟨other, hother, _⟩ := operationId_of_not_concerns h
      simp [StoreEvent.operationId, hop] at hother

/-- A step of another operation leaves the operation's record, or removes it when it could be
purged. -/
theorem only_records_of_not_concerns (hcoherent : Coherent w) (h : ¬ e.Concerns w o) :
    ((w.next settings e).db.only o).records o.scope = (w.db.only o).records o.scope ∨
      ((w.next settings e).db.only o).records o.scope = none ∧
        ∀ stored, (w.db.only o).records o.scope = some stored →
          recordIsPurgeable stored e.now.locked = true := by
  have hidden : ∀ {db : Db} {row : RecordRow}, db.records o.scope = some row →
      row.createdAt ≠ o.startedAt → (db.only o).records o.scope = none := by
    intro db row hrow hne
    simp [Db.only, hrow, Option.filter_some, hne]
  -- A record under a lease of another operation is in neither part.
  have hleased : ∀ {stored new : RecordRow} {leaseId : IdempotencyLeaseId}
      {leaseExpiresAt : Nat}, w.db.records o.scope = some stored →
      stored.state = .pending leaseId leaseExpiresAt →
      e.operationId w = (w.attempts leaseId).map Attempt.operationId →
      (w.next settings e).db.records o.scope = some new → new.createdAt = stored.createdAt →
      ((w.next settings e).db.only o).records o.scope = (w.db.only o).records o.scope := by
    intro stored new leaseId leaseExpiresAt hstored hstate hid hnew hcreated
    obtain ⟨a, ha, hscope, _, hstart⟩ := hcoherent.pending _ _ _ _ hstored hstate
    have hne : stored.createdAt ≠ o.startedAt := by
      intro heq
      apply ne_of_not_concerns h hid ha
      simp only [Attempt.operationId, hscope, hstart, heq]
    rw [hidden hstored hne, hidden hnew (by rw [hcreated]; exact hne)]
  have hchange := next_recordChange settings w e o.scope
  generalize hnew : (w.next settings e).db.records o.scope = new at hchange
  cases hchange with
  | kept => exact .inl (by simp only [Db.only, hnew])
  | @inserted claim hop hscope hgone _ _ =>
      refine .inr ⟨?_, fun stored hstored => hgone stored (Db.only_records_some hstored)⟩
      apply hidden hnew
      intro hcreated
      apply h
      intro other hother
      have hstart : claimedStart w.db e.now claim = e.now.written := by
        unfold claimedStart
        cases hrecord : w.db.records claim.scope with
        | none => rfl
        | some stored =>
            rw [hscope] at hrecord
            simp [hgone stored hrecord]
      simp only [StoreEvent.operationId, hop, hstart, Option.mem_some_iff] at hother
      have hwritten : e.now.written = o.startedAt := hcreated
      rw [← hother, hscope, hwritten]
  | @reclaimed claim stored _ _ hop hscope hstored hlive _ _ _ _ =>
      have hne : stored.createdAt ≠ o.startedAt := by
        intro hcreated
        apply h
        intro other hother
        have hstart : claimedStart w.db e.now claim = stored.createdAt := by
          simp [claimedStart, hscope, hstored, hlive]
        simp only [StoreEvent.operationId, hop, hstart, Option.mem_some_iff] at hother
        rw [← hother, hscope, hcreated]
      exact .inl (by rw [hidden hstored hne, hidden hnew hne])
  | completed hop _ hstored hstate _ _ _ _ =>
      exact .inl (hleased hstored hstate (by simp [StoreEvent.operationId, hop]) hnew rfl)
  | released hop _ hstored hstate _ =>
      exact .inl (hleased hstored hstate (by simp [StoreEvent.operationId, hop]) hnew rfl)
  | purged hop _ _ =>
      obtain ⟨other, hother, _⟩ := operationId_of_not_concerns h
      simp [StoreEvent.operationId, hop] at hother

/-- **A step of another operation leaves the operation's part of the store**, or removes its expired
record as maintenance would. -/
theorem only_of_not_concerns (hcoherent : Coherent w) (hseparated : Separated w)
    (hprotocol : e.op.inProtocol w) (hown : e.StartsOwnJob w) (h : ¬ e.Concerns w o) :
    (w.next settings e).db.only o = w.db.only o ∨
      (w.next settings e).db.only o = deleteExpiredRecords e.now [o.scope] (w.db.only o) := by
  have hjobs : ∀ requestId, ((w.next settings e).db.only o).jobs requestId =
      (w.db.only o).jobs requestId :=
    only_jobs_of_not_concerns hcoherent hseparated hown h
  have hheld : ∀ requestId, ((w.next settings e).db.only o).held requestId =
      (w.db.only o).held requestId :=
    only_held_of_not_concerns hcoherent hseparated hprotocol hown h
  have hplanes := next_planes settings w e
  rcases only_records_of_not_concerns hcoherent h with
    hrecord | ⟨hrecord, hpurgeable⟩
  · left
    ext1
    · exact hplanes
    · funext scope
      by_cases hscope : scope = o.scope
      · rw [hscope, hrecord]
      · simp [Db.only, hscope]
    · exact funext hjobs
    · exact funext hheld
  · right
    ext1
    · exact hplanes
    · funext scope
      by_cases hscope : scope = o.scope
      · subst hscope
        rw [hrecord]
        cases hstored : (w.db.only o).records o.scope with
        | none => simp [deleteExpiredRecords, hstored]
        | some stored =>
            simp [deleteExpiredRecords, hstored, Option.filter_some, hpurgeable stored hstored]
      · simp [deleteExpiredRecords, Db.only, hscope]
    · exact funext hjobs
    · exact funext hheld

/-! ## The run of the operation alone -/

/-- The attempts of one operation. -/
def onlyAttempts (o : OperationId) (attempts : IdempotencyLeaseId → Option Attempt) :
    IdempotencyLeaseId → Option Attempt :=
  fun leaseId => (attempts leaseId).filter fun a => a.operationId = o

theorem onlyAttempts_of_own {attempts : IdempotencyLeaseId → Option Attempt}
    {leaseId : IdempotencyLeaseId} {a : Attempt} (ha : attempts leaseId = some a)
    (hown : a.operationId = o) : onlyAttempts o attempts leaseId = some a := by
  simp [onlyAttempts, ha, hown]

/-- Changing what was done under a lease does the same among the operation's attempts. -/
theorem onlyAttempts_update (o : OperationId) (attempts : IdempotencyLeaseId → Option Attempt)
    (leaseId : IdempotencyLeaseId) (change : Attempt → Attempt)
    (hchange : ∀ a, (change a).operationId = a.operationId) :
    Function.update (onlyAttempts o attempts) leaseId
        ((onlyAttempts o attempts leaseId).map change) =
      onlyAttempts o (Function.update attempts leaseId ((attempts leaseId).map change)) := by
  funext other
  by_cases hlease : other = leaseId
  · subst hlease
    cases ha : attempts other with
    | none => simp [onlyAttempts, ha]
    | some a => by_cases hown :
        a.operationId = o <;> simp [onlyAttempts, ha, Option.filter_some, hchange, hown]
  · simp [onlyAttempts, hlease]

/-- An answered event is entered in the operation's history as in the whole. -/
theorem recordAttempt_only {attempts : IdempotencyLeaseId → Option Attempt} {now : Readings}
    {op : StoreOp} {outcome : Outcome}
    (hgranted : ∀ claim lease requestId startedAt, op = .claim claim →
      outcome = .decided (.acquired lease requestId startedAt) →
        (⟨claim.scope, startedAt⟩ : OperationId) = o) :
    recordAttempt (onlyAttempts o attempts) now op outcome =
      onlyAttempts o (recordAttempt attempts now op outcome) := by
  unfold recordAttempt
  split
  · rename_i claim lease requestId startedAt
    funext other
    by_cases hlease : other = lease.id
    · subst hlease
      have hown := hgranted claim lease requestId startedAt rfl rfl
      simp [onlyAttempts, Option.filter_some, Attempt.operationId, hown]
    · simp [onlyAttempts, hlease]
  · exact onlyAttempts_update o attempts _ _ fun _ => rfl
  · exact onlyAttempts_update o attempts _ _ fun _ => rfl
  · exact onlyAttempts_update o attempts _ _ fun _ => rfl
  · rfl

/-- A claim that is granted a lease is granted it for the operation it works on. -/
theorem claimedStart_of_acquired {claim : IdempotencyClaim} {lease : IdempotencyLease}
    {requestId : RequestId} {startedAt : Nat} (hop : e.op = .claim claim)
    (hout : w.outcome settings e = .decided (.acquired lease requestId startedAt)) :
    claimedStart w.db e.now claim = startedAt := by
  unfold World.outcome at hout
  rcases execute_claim settings e.now w.db claim with
    ⟨error, hexec⟩ | ⟨decision, db', hexec, _, hresult⟩
  · rw [hop, hexec] at hout
    cases hout
  · rw [hop, hexec] at hout
    unfold claimedStart
    cases hresult with
    | inserted hgone =>
        cases hout
        cases hrecord : w.db.records claim.scope with
        | none => rfl
        | some stored => simp [hgone stored hrecord]
    | reclaimed hstored hlive _ _ _ =>
        cases hout
        simp [hstored, hlive]
    | keyReused _ _ _ => cases hout
    | replayed _ _ _ _ _ _ _ => cases hout
    | inProgress _ _ _ _ _ => cases hout

/-- A step of another operation leaves the operation's attempts. -/
theorem onlyAttempts_of_not_concerns (hfresh : e.op.freshLease settings w)
    (h : ¬ e.Concerns w o) :
    onlyAttempts o (w.next settings e).attempts = onlyAttempts o w.attempts := by
  funext leaseId
  -- What was done under a lease of another operation is in neither history.
  have hidden : ∀ {a b : Attempt}, w.attempts leaseId = some a →
      (w.next settings e).attempts leaseId = some b → b.operationId = a.operationId →
      e.operationId w = (w.attempts leaseId).map Attempt.operationId →
      onlyAttempts o (w.next settings e).attempts leaseId = onlyAttempts o w.attempts leaseId := by
    intro a b ha hb hsame hid
    have hne := ne_of_not_concerns h hid ha
    simp [onlyAttempts, ha, hb, Option.filter_some, hsame, hne]
  have hchange := next_attemptChange settings w e leaseId
  generalize hnew : (w.next settings e).attempts leaseId = new at hchange
  cases hchange with
  | kept => simp only [onlyAttempts, hnew]
  | @granted claim lease requestId startedAt hop hlease hout =>
      rw [hop] at hfresh
      have hnone : w.attempts leaseId = none := by rw [← hlease]; exact hfresh.1
      have hne : (⟨claim.scope, startedAt⟩ : OperationId) ≠ o := by
        intro heq
        apply h
        intro other hother
        simp only [StoreEvent.operationId, hop, claimedStart_of_acquired hop hout,
          Option.mem_some_iff] at hother
        rw [← hother, heq]
      simp [onlyAttempts, hnone, hnew, Attempt.operationId, hne]
  | started ha hop hlease _ =>
      exact hidden ha hnew rfl (by simp [StoreEvent.operationId, hop, hlease])
  | held ha hop _ => exact hidden ha hnew rfl (by simp [StoreEvent.operationId, hop])
  | completed ha hop hlease _ =>
      exact hidden ha hnew rfl (by simp [StoreEvent.operationId, hop, hlease])

/-- A world and what the operation sees of it when it is alone. -/
structure SeenAlone (o : OperationId) (w alone : World) : Prop where
  coherent : Coherent w
  separated : Separated w
  db_eq : alone.db = w.db.only o
  clock_le : alone.clock ≤ w.clock
  attempts_eq : alone.attempts = onlyAttempts o w.attempts

/-- In an empty store the operation is alone. -/
theorem SeenAlone.initial (o : OperationId) (h : w.Initial) : SeenAlone o w w where
  coherent := Coherent.initial h
  separated := Separated.initial h
  db_eq := by
    obtain ⟨hrecords, hjobs, hheld, _⟩ := h
    ext1
    · rfl
    · funext scope
      simp [Db.only, hrecords]
    · funext requestId
      simp [Db.only, hjobs]
    · funext requestId
      simp [Db.only, hjobs, hheld]
  clock_le := Nat.le_refl _
  attempts_eq := by
    funext leaseId
    simp [onlyAttempts, h.2.2.2 leaseId]

/-- An event of the operation is one that it can take alone. -/
theorem SeenAlone.inProtocol {alone : World} (h : SeenAlone o w alone)
    (hprotocol : e.op.inProtocol w) (hconcerns : e.Concerns w o) : e.op.inProtocol alone := by
  have carry : ∀ {leaseId : IdempotencyLeaseId} {a : Attempt}, w.attempts leaseId = some a →
      e.operationId w = (w.attempts leaseId).map Attempt.operationId →
      a ∈ alone.attempts leaseId := by
    intro leaseId a ha hid
    rw [h.attempts_eq]
    exact onlyAttempts_of_own ha (hconcerns.attempt hid ha)
  cases hop : e.op with
  | claim claim => trivial
  | startJob job =>
      rw [hop] at hprotocol
      obtain ⟨a, ha, hrest⟩ := hprotocol
      exact ⟨a, carry ha (by simp [StoreEvent.operationId, hop]), hrest⟩
  | complete completion =>
      rw [hop] at hprotocol
      obtain ⟨a, ha, hrest⟩ := hprotocol
      exact ⟨a, carry ha (by simp [StoreEvent.operationId, hop]), hrest⟩
  | release release =>
      rw [hop] at hprotocol
      obtain ⟨a, ha, hrest⟩ := hprotocol
      exact ⟨a, carry ha (by simp [StoreEvent.operationId, hop]), hrest⟩
  | hold attempt audio =>
      rw [hop] at hprotocol
      obtain ⟨a, ha, hrest⟩ := hprotocol
      exact ⟨a, carry ha (by simp [StoreEvent.operationId, hop]), hrest⟩
  | recoverExpiredJobs => trivial
  | deleteExpiredRecords selected => trivial
  | deleteExpiredAudio selected => trivial

/-- A lease id that is fresh in the store is fresh for the operation alone. -/
theorem SeenAlone.freshLease {alone : World} (h : SeenAlone o w alone)
    (hfresh : e.op.freshLease settings w) : e.op.freshLease settings alone := by
  cases hop : e.op with
  | claim claim =>
      rw [hop] at hfresh
      refine ⟨?_, hfresh.2⟩
      simp [h.attempts_eq, onlyAttempts, hfresh.1]
  | startJob _ | complete _ | release _ | hold _ _ | recoverExpiredJobs
  | deleteExpiredRecords _ | deleteExpiredAudio _ => trivial

/-- **One step of the store is none or one step of the operation alone.** -/
theorem SeenAlone.step {w' alone : World} (h : SeenAlone o w alone)
    (hstep : ProtocolStep settings w e w') (hown : e.StartsOwnJob w) :
    ∃ tr alone', Run (ProtocolStep settings) alone tr alone' ∧ SeenAlone o w' alone' ∧
      AloneStep settings o ⟨w, e, w'⟩ tr := by
  have hcoherent' : Coherent w' := h.coherent.step hstep.toStep
  have hseparated' : Separated w' := h.separated.step h.coherent hstep hown
  have hclock := hstep.clock_le_begun
  obtain ⟨hlocked, hwritten, hafter⟩ := hstep.clock_le
  have hbefore : alone.clock ≤ e.now.begun := Nat.le_trans h.clock_le hclock
  by_cases hconcerns : e.Concerns w o
  · have hexec := execute_only h.coherent h.separated hstep.fresh hstep.inProtocol hown hconcerns
    rw [← h.db_eq] at hexec
    have hout : alone.outcome settings e = w.outcome settings e := by
      simp [World.outcome, hexec, onlyResult]
    have hdb : (alone.next settings e).db = w'.db.only o := by
      rw [hstep.eq_next]
      simp [World.next, hexec, onlyResult]
    have hgranted : ∀ claim lease requestId startedAt, e.op = .claim claim →
        w.outcome settings e = .decided (.acquired lease requestId startedAt) →
          (⟨claim.scope, startedAt⟩ : OperationId) = o := by
      intro claim lease requestId startedAt hop hacquired
      rw [← claimedStart_of_acquired hop hacquired]
      exact hconcerns _ (by simp [StoreEvent.operationId, hop])
    have halone : ProtocolStep settings alone e (alone.next settings e) :=
      ⟨⟨hbefore, hstep.onTime, h.freshLease hstep.fresh, rfl⟩,
        h.inProtocol hstep.inProtocol hconcerns⟩
    refine ⟨_, _, .single halone, ⟨hcoherent', hseparated', hdb, ?_, ?_⟩, ?_⟩
    · rw [hafter]
      exact Nat.le_refl _
    · rw [hstep.eq_next]
      simp only [World.next, hout, h.attempts_eq]
      exact recordAttempt_only hgranted
    · exact .own hconcerns rfl hout h.db_eq hdb
  · have hattempts := onlyAttempts_of_not_concerns hstep.fresh hconcerns
    rw [← hstep.eq_next] at hattempts
    have hdb := @only_of_not_concerns settings _ _ _ h.coherent h.separated hstep.inProtocol
      hown hconcerns
    rw [← hstep.eq_next] at hdb
    rcases hdb with hkept | hpurged
    · refine ⟨[], alone, .nil alone, ⟨hcoherent', hseparated', ?_, ?_, ?_⟩, .other hconcerns⟩
      · rw [hkept, h.db_eq]
      · have := h.clock_le
        omega
      · rw [hattempts, h.attempts_eq]
    · let purge : StoreEvent := ⟨.deleteExpiredRecords [o.scope], e.now⟩
      have halone : ProtocolStep settings alone purge (alone.next settings purge) :=
        ⟨⟨hbefore, hstep.onTime, trivial, rfl⟩, trivial⟩
      refine ⟨_, _, .single halone, ⟨hcoherent', hseparated', ?_, ?_, ?_⟩, .purged hconcerns rfl⟩
      · rw [hpurged, ← h.db_eq]
        rfl
      · rw [hafter]
        exact Nat.le_refl _
      · rw [hattempts, ← h.attempts_eq]
        rfl

end Steps

/-- **Operations that share a request id do not disturb each other** in any run of the service in
which every `start_job` finds no job row of another operation under its request id. -/
theorem undisturbed_of_startsOwnJob {settings : IdempotencySettings} (o : OperationId)
    {w w' : World} {tr : List StoreTransition} (hinit : w.Initial)
    (hrun : Run (ProtocolStep settings) w tr w')
    (hown : ∀ t ∈ tr, t.label.StartsOwnJob t.pre) : Undisturbed settings o w tr w' := by
  obtain ⟨trs, alone, halone, hseen, hsteps⟩ := hrun.simulation
    (fun _ _ _ _ hseen hstep hok => SeenAlone.step hseen hstep hok)
    (SeenAlone.initial o hinit) hown
  exact ⟨trs, alone, halone, hseen.db_eq, hsteps⟩

/-- Two operations of one account under different keys, at the same time. -/
def separateEvents : List StoreEvent :=
  [⟨.claim (sampleClaim sampleScope 0), .at 10⟩,
    ⟨.startJob (sampleJob sampleScope 0), .at 20⟩,
    ⟨.claim { sampleClaim otherSampleScope 1 with requestId := ⟨6, Uuid.six_ne_nil⟩ }, .at 30⟩,
    ⟨.startJob (sampleJob otherSampleScope 1), .at 40⟩,
    ⟨.complete ⟨sampleScope, sampleLease 0, .tts sampleResult⟩, .at 50⟩]

/-- Under different request ids they do not disturb each other. -/
theorem undisturbed_of_startsOwnJob_separateEvents :
    Undisturbed sampleSettings ⟨otherSampleScope, 30⟩ sampleWorld
      (transitions sampleSettings sampleWorld separateEvents)
      (sampleWorld.after sampleSettings separateEvents) :=
  undisturbed_of_startsOwnJob _ sampleWorld_initial (protocolRun_transitions (by decide))
    (by decide)

/-! ## Two operations with one request id -/

/-- **A start that meets another operation's job row is never harmless.** Alone it succeeds; in the
shared store it fails, or it takes over the row of the other operation. -/
theorem start_meets_other_job {settings : IdempotencySettings} {w : World} {e : StoreEvent}
    (hcoherent : Coherent w) (hmeets : ¬ e.StartsOwnJob w) :
    ∃ job stored row, e.op = .startJob job ∧ w.db.records job.scope = some stored ∧
      w.db.jobs stored.requestId = some row ∧
      row.operationId ≠ ⟨job.scope, stored.createdAt⟩ ∧
      (execute settings e.now (w.db.only ⟨job.scope, stored.createdAt⟩) e.op).1 = .done ∧
      (w.outcome settings e = .failed .leaseLost ∨
        (w.next settings e).db.jobs stored.requestId =
          some (row.restarted (startedJob stored job))) := by
  unfold StoreEvent.StartsOwnJob at hmeets
  split at hmeets
  swap
  · exact absurd trivial hmeets
  rename_i job hop
  simp only [Option.mem_def, not_forall] at hmeets
  obtain ⟨stored, hstored, htoken, hunexpired, hstorable, row, hrow, hne⟩ := hmeets
  have hplane := hcoherent.plane _ _ hstored
  cases hstate : stored.state with
  | completed body =>
      rw [hstate] at htoken
      cases htoken
  | pending token leaseExpiresAt =>
      rw [hstate] at htoken hunexpired
      cases htoken
      simp only [RecordState.leaseExpiresAt, Option.any_some, decide_eq_true_eq] at hunexpired
      refine ⟨job, stored, row, hop, hstored, hrow, hne, ?_, ?_⟩
      · -- Alone the request id has no job, so the insert conflicts with nothing.
        have hnone : (w.db.only ⟨job.scope, stored.createdAt⟩).jobs stored.requestId = none := by
          apply Db.only_jobs_of_other
          intro other hother
          rw [hrow] at hother
          cases hother
          exact hne
        have hstored' : (w.db.only ⟨job.scope, stored.createdAt⟩).records job.scope =
            some stored := Db.only_records_of_own hstored rfl
        have haccept : ∀ other,
            (w.db.only ⟨job.scope, stored.createdAt⟩).jobs stored.requestId = some other →
              other.acceptsRestart (startedJob stored job) = true := by
          intro other hother
          rw [hnone] at hother
          cases hother
        have hplane' : (w.db.only ⟨job.scope, stored.createdAt⟩).planes job.scope.planeId = true :=
          hplane
        have hok := startJobInner_ok.mpr ⟨hplane', stored, leaseExpiresAt, hstored', hstate,
          hunexpired, hstorable, haccept, rfl⟩
        rw [hop]
        simp [execute, hok, Except.map, commit]
      · by_cases haccept : row.acceptsRestart (startedJob stored job) = true
        · right
          have haccept' : ∀ other, w.db.jobs stored.requestId = some other →
              other.acceptsRestart (startedJob stored job) = true := by
            intro other hother
            rw [hrow] at hother
            cases hother
            exact haccept
          have hok := startJobInner_ok.mpr ⟨hplane, stored, leaseExpiresAt, hstored, hstate,
            hunexpired, hstorable, haccept', rfl⟩
          simp [World.next, hop, execute, hok, Except.map, commit, hrow, upsertedJob]
        · left
          have hcheck : ensureCurrentLease stored job.leaseId none = .ok () :=
            ensureCurrentLease_ok.mpr ⟨⟨leaseExpiresAt, hstate⟩, fun _ h => by cases h⟩
          have hnot : ¬ leaseExpiresAt ≤ e.now.locked := by omega
          have hfail : startJobInner e.now job w.db = .error .leaseLost := by
            simp [startJobInner, lockPlane_ok.mpr hplane, loadClaimOrLost_ok.mpr hstored, hcheck,
              hstate, RecordState.leaseExpiresAt, hnot, hstorable, upsertJob, hrow, haccept, bind,
              Except.bind]
          simp [World.outcome, hop, execute, hfail, Except.map, commit]

/-- Two operations of one account under different keys, for which the client sends the same request
id. -/
def sharedEvents : List StoreEvent :=
  [⟨.claim (sampleClaim sampleScope 0), .at 10⟩,
    ⟨.startJob (sampleJob sampleScope 0), .at 20⟩,
    ⟨.claim (sampleClaim otherSampleScope 1), .at 30⟩,
    ⟨.startJob (sampleJob otherSampleScope 1), .at 40⟩]

/-- **The second of two operations with one request id cannot start its job.** -/
theorem not_forall_undisturbed :
    ¬ ∀ (settings : IdempotencySettings) (o : OperationId) (w w' : World)
      (tr : List StoreTransition), w.Initial → Run (ProtocolStep settings) w tr w' →
        Undisturbed settings o w tr w' := by
  intro h
  have hrun : Run (ProtocolStep sampleSettings) sampleWorld
      (transitions sampleSettings sampleWorld sharedEvents)
      (sampleWorld.after sampleSettings sharedEvents) := protocolRun_transitions (by decide)
  obtain ⟨trs, alone, _, _, hsteps⟩ :=
    h sampleSettings ⟨otherSampleScope, 30⟩ _ _ _ sampleWorld_initial hrun
  simp only [transitions, sharedEvents, play] at hsteps
  cases hsteps with | cons _ hsteps =>
  cases hsteps with | cons _ hsteps =>
  cases hsteps with | cons _ hsteps =>
  cases hsteps with | cons hlast _ =>
  cases hlast with
  | own _ _ houtcome hpre _ =>
      unfold World.outcome at houtcome
      rw [hpre] at houtcome
      exact absurd houtcome (by decide)
  | other hother => exact hother (by decide)
  | purged hother _ => exact hother (by decide)

end Waveform.Store
