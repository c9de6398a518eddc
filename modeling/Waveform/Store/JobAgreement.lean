import Waveform.Store.JobHistory

/-!
# The job history and the record

What a replay serves is the record; what the history shows is the job. Statements of several
operations write to both tables, and recovery writes to the jobs alone.

- `next_job_kept`: a step that completes nothing leaves a job in its scope, and completed exactly
  when it was.
- `JobsAgree`: the invariant, in which the job that an attempt of a record has started is completed
  exactly when the record is.
- `history_agrees`: what holds of every reachable world and of every step from it.
-/

set_option autoImplicit false

namespace Waveform.Store

open Waveform.Domain LabelledRun

/-- `state = 'completed'`. -/
def RecordState.isCompleted : RecordState → Bool
  | .completed _ => true
  | .pending _ _ => false

/-- The scope that the columns of a job row name. -/
def JobRow.scope (row : JobRow) : IdempotencyScope := row.operationId.scope

/-- The attempt was granted on this record: same scope, same request, same start. -/
def Attempt.Of (a : Attempt) (scope : IdempotencyScope) (stored : RecordRow) : Prop :=
  a.scope = scope ∧ a.requestId = stored.requestId ∧ a.operationStartedAt = stored.createdAt

/-! ## Job rows under one step -/

section Rows

variable {row : JobRow}

/-- An upsert takes over an unfinished row of the same scope only. -/
theorem scope_of_acceptsRestart {stored : RecordRow} {job : SpeechJobStart}
    (h : row.acceptsRestart (startedJob stored job) = true) :
    row.scope = job.scope ∧ row.status.isCompleted = false := by
  simp only [JobRow.acceptsRestart, startedJob, Bool.and_eq_true, beq_iff_eq,
    Bool.not_eq_true'] at h
  obtain ⟨⟨⟨⟨⟨⟨⟨hplane, _⟩, hactor⟩, hkind⟩, hoperation⟩, hopen⟩, _⟩, hhash⟩ := h
  refine ⟨?_, hopen⟩
  simp only [JobRow.scope, JobRow.operationId, hplane, hactor, hkind, hoperation, hhash]

theorem released_isCompleted (release : IdempotencyRelease) (now : Readings) :
    (row.released release now).status.isCompleted = row.status.isCompleted := by
  unfold JobRow.released
  split
  · rename_i hjob
    rw [hjob.2]
    rfl
  · rfl

theorem recovered_isCompleted (now : Readings) :
    (row.recovered now).status.isCompleted = row.status.isCompleted := by
  unfold JobRow.recovered
  split
  · rename_i hjob
    rw [hjob.1]
    rfl
  · rfl

end Rows

section Steps

variable {settings : IdempotencySettings} {w : World} {e : StoreEvent}

/-- What a successful start found and left. -/
theorem startJob_done {job : SpeechJobStart} (hop : e.op = .startJob job)
    (hout : w.outcome settings e = .done) :
    ∃ stored leaseExpiresAt, w.db.records job.scope = some stored ∧
      stored.state = .pending job.leaseId leaseExpiresAt ∧
      (∀ row, w.db.jobs stored.requestId = some row →
        row.scope = job.scope ∧ row.status.isCompleted = false) ∧
      (w.next settings e).db.records = w.db.records ∧
      ∃ row, (w.next settings e).db.jobs stored.requestId = some row ∧ row.scope = job.scope ∧
        row.status = .running ∧ row.leaseToken = some job.leaseId := by
  rcases execute_startJob settings e.now w.db job with ⟨error, hexec⟩ | ⟨db', hexec, hok⟩
  · simp [World.outcome, hop, hexec] at hout
  · obtain ⟨_, stored, leaseExpiresAt, hstored, hstate, _, _, haccept, rfl⟩ :=
      startJobInner_ok.mp hok
    refine ⟨stored, leaseExpiresAt, hstored, hstate, ?_, by simp [World.next, hop, hexec],
      upsertedJob stored job (w.db.jobs stored.requestId), by simp [World.next, hop, hexec], ?_⟩
    · intro row hrow
      exact scope_of_acceptsRestart (haccept row hrow)
    · cases hrow : w.db.jobs stored.requestId with
      | none => exact ⟨rfl, rfl, rfl⟩
      | some row => exact ⟨(scope_of_acceptsRestart (haccept row hrow)).1, rfl, rfl⟩

/-- What a successful completion found and left. -/
theorem complete_done {completion : IdempotencyCompletion} (hop : e.op = .complete completion)
    (hout : w.outcome settings e = .done) :
    ∃ stored leaseExpiresAt row response, w.db.records completion.scope = some stored ∧
      stored.state = .pending completion.leaseId leaseExpiresAt ∧
      completion.response.requestId = stored.requestId ∧
      w.db.jobs stored.requestId = some row ∧ row.leaseToken = some completion.leaseId ∧
      (w.next settings e).db.records = Function.update w.db.records completion.scope
        (some (completedRecord settings e.now stored response)) ∧
      (w.next settings e).db.jobs = Function.update w.db.jobs stored.requestId
        (some (row.finished completion.response e.now.written)) := by
  rcases execute_complete settings e.now w.db completion with ⟨error, hexec⟩ | ⟨db', hexec, hok⟩
  · simp [World.outcome, hop, hexec] at hout
  · obtain ⟨response, stored, leaseExpiresAt, row, _, _, _, _, hstored, hstate, hid, hrow, htoken,
      rfl⟩ := completeInner_ok.mp hok
    exact ⟨stored, leaseExpiresAt, row, response, hstored, hstate, hid, hrow, htoken,
      by simp [World.next, hop, hexec, Db.setRecord, Db.setJob],
      by simp [World.next, hop, hexec, Db.setRecord, Db.setJob]⟩

/-- A completion that fails leaves the database as it was. -/
theorem complete_failed {completion : IdempotencyCompletion} (hop : e.op = .complete completion)
    (hout : w.outcome settings e ≠ .done) : (w.next settings e).db = w.db := by
  rcases execute_complete settings e.now w.db completion with ⟨error, hexec⟩ | ⟨db', hexec, hok⟩
  · simp [World.next, hop, hexec]
  · simp [World.outcome, hop, hexec] at hout

/-- A step that completes nothing leaves a job in its scope, and completed exactly when it was. -/
theorem next_job_kept (hop : ∀ completion, e.op = .complete completion →
      w.outcome settings e ≠ .done) {requestId : RequestId} {row : JobRow}
    (hrow : w.db.jobs requestId = some row) :
    ∃ row', (w.next settings e).db.jobs requestId = some row' ∧ row'.scope = row.scope ∧
      row'.status.isCompleted = row.status.isCompleted := by
  have hchange := next_jobChange settings w e requestId
  generalize hnew : (w.next settings e).db.jobs requestId = new at hchange
  cases hchange with
  | kept => exact ⟨row, hrow, rfl, rfl⟩
  | started hstart hstored hstate _ _ hid hout =>
      obtain ⟨stored, _, hsame, _, haccepts, _, row', hrow', hscope, hrunning, _⟩ :=
        startJob_done hstart hout
      rw [hstored] at hsame
      obtain rfl := Option.some.inj hsame
      subst hid
      have hopen := haccepts row hrow
      rw [← hnew, hrow']
      refine ⟨row', rfl, hscope.trans hopen.1.symm, ?_⟩
      rw [hrunning, hopen.2]
      rfl
  | finished hcomplete _ _ _ _ _ hout => exact absurd hout (hop _ hcomplete)
  | released _ hother _ =>
      obtain rfl := Option.some.inj (hrow.symm.trans hother)
      exact ⟨_, rfl, congrArg OperationId.scope (row.released_operationId _ _),
        released_isCompleted _ _⟩
  | recovered _ hother =>
      obtain rfl := Option.some.inj (hrow.symm.trans hother)
      exact ⟨_, rfl, congrArg OperationId.scope (row.recovered_operationId _),
        recovered_isCompleted _⟩

/-- A completed job stays completed, whatever the step. -/
theorem next_job_completed {requestId : RequestId} {row : JobRow}
    (hrow : w.db.jobs requestId = some row) (hcompleted : row.status.isCompleted = true) :
    ∃ row', (w.next settings e).db.jobs requestId = some row' ∧
      row'.status.isCompleted = true := by
  by_cases hcompletes : ∃ completion, e.op = .complete completion ∧ w.outcome settings e = .done
  · obtain ⟨completion, hop, hout⟩ := hcompletes
    obtain ⟨stored, _, finished, _, _, _, _, _, _, _, hjobs⟩ := complete_done hop hout
    rw [hjobs]
    by_cases hid : requestId = stored.requestId
    · subst hid
      exact ⟨_, Function.update_self .., rfl⟩
    · exact ⟨row, (Function.update_of_ne hid ..).trans hrow, hcompleted⟩
  · have hnone : ∀ completion, e.op = .complete completion → w.outcome settings e ≠ .done :=
      fun completion hop hout => hcompletes ⟨completion, hop, hout⟩
    obtain ⟨row', hrow', _, hkept⟩ := next_job_kept hnone hrow
    exact ⟨row', hrow', hkept.trans hcompleted⟩

/-- A step that completes nothing inserts a record, or leaves it completed exactly when it was. -/
theorem next_record_kept (hop : ∀ completion, e.op = .complete completion →
      w.outcome settings e ≠ .done) {scope : IdempotencyScope} {stored : RecordRow}
    (hstored : (w.next settings e).db.records scope = some stored) :
    (stored.createdAt = e.now.written ∧
        ∀ old ∈ w.db.records scope, recordIsPurgeable old e.now.locked = true) ∨
      ∃ old, w.db.records scope = some old ∧ stored.requestId = old.requestId ∧
        stored.createdAt = old.createdAt ∧ stored.state.isCompleted = old.state.isCompleted := by
  have hchange := next_recordChange settings w e scope
  rw [hstored] at hchange
  generalize hnew : some stored = new at hchange
  cases hchange with
  | kept => exact .inr ⟨stored, hnew.symm, rfl, rfl, rfl⟩
  | inserted _ _ hgone _ _ =>
      obtain rfl := Option.some.inj hnew
      exact .inl ⟨rfl, hgone⟩
  | reclaimed _ _ hold _ hstate _ _ _ =>
      obtain rfl := Option.some.inj hnew
      exact .inr ⟨_, hold, rfl, rfl, by rw [hstate]; rfl⟩
  | completed hcomplete _ _ _ _ _ _ hout => exact absurd hout (hop _ hcomplete)
  | released _ _ hold hstate _ =>
      obtain rfl := Option.some.inj hnew
      exact .inr ⟨_, hold, rfl, rfl, by rw [hstate]; rfl⟩
  | purged _ _ _ => cases hnew

/-- An attempt that has started its job had done so before the step, or starts it in the step. -/
theorem next_started {leaseId : IdempotencyLeaseId} {a : Attempt}
    (ha : (w.next settings e).attempts leaseId = some a) (hstarted : a.started = true) :
    (∃ b, w.attempts leaseId = some b ∧ b.SameGrant a ∧ b.started = true) ∨
      ∃ b job, w.attempts leaseId = some b ∧ b.SameGrant a ∧ e.op = .startJob job ∧
        job.leaseId = leaseId ∧ w.outcome settings e = .done := by
  have hchange := next_attemptChange settings w e leaseId
  rw [ha] at hchange
  generalize hnew : some a = new at hchange
  cases hchange with
  | kept => exact .inl ⟨a, hnew.symm, .refl a, hstarted⟩
  | granted _ _ _ =>
      cases hnew
      cases hstarted
  | started hb hop hlease hout =>
      cases hnew
      exact .inr ⟨_, _, hb, ⟨rfl, rfl, rfl⟩, hop, hlease, hout⟩
  | held hb _ _ =>
      cases hnew
      exact .inl ⟨_, hb, ⟨rfl, rfl, rfl⟩, hstarted⟩
  | completed hb _ _ _ =>
      cases hnew
      exact .inl ⟨_, hb, ⟨rfl, rfl, rfl⟩, hstarted⟩

end Steps

/-! ## The invariant -/

/-- Records and jobs agree. -/
structure JobsAgree (w : World) : Prop where
  /-- The lease token of a job was granted in the scope of the job. -/
  token : ∀ requestId row leaseId, w.db.jobs requestId = some row →
    row.leaseToken = some leaseId → ∃ a, w.attempts leaseId = some a ∧ a.scope = row.scope
  /-- The job that an attempt of a record has started is completed exactly when the record is. -/
  started : ∀ scope stored leaseId a, w.db.records scope = some stored →
    w.attempts leaseId = some a → a.Of scope stored → a.started = true →
    ∃ row, w.db.jobs stored.requestId = some row ∧ row.scope = scope ∧
      row.status.isCompleted = stored.state.isCompleted
  /-- A record was created by now, and lives for some time. -/
  lifetime : ∀ scope stored, w.db.records scope = some stored →
    stored.createdAt ≤ w.clock ∧ stored.createdAt < stored.expiresAt
  /-- No attempt started after the record of its scope, and every attempt whose record is gone
  started before now. -/
  past : ∀ leaseId a, w.attempts leaseId = some a →
    match w.db.records a.scope with
    | some stored => a.operationStartedAt ≤ stored.createdAt
    | none => a.operationStartedAt < w.clock

namespace JobsAgree

variable {settings : IdempotencySettings} {w w' : World} {e : StoreEvent}

theorem initial (h : w.Initial) : JobsAgree w where
  token requestId row leaseId hrow := by
    rw [h.2.1 requestId] at hrow
    cases hrow
  started scope stored leaseId a hstored := by
    rw [h.1 scope] at hstored
    cases hstored
  lifetime scope stored hstored := by
    rw [h.1 scope] at hstored
    cases hstored
  past leaseId a ha := by
    rw [h.2.2.2 leaseId] at ha
    cases ha

theorem token_step (h : JobsAgree w) (hcoherent : Coherent w) (hstep : Step settings w e w') :
    ∀ requestId row leaseId, w'.db.jobs requestId = some row → row.leaseToken = some leaseId →
      ∃ a, w'.attempts leaseId = some a ∧ a.scope = row.scope := by
  obtain ⟨_, _, hfresh, rfl⟩ := hstep
  intro requestId row leaseId hrow htoken
  have carry : ∀ b scope, w.attempts leaseId = some b → b.scope = scope →
      ∃ a, (w.next settings e).attempts leaseId = some a ∧ a.scope = scope := by
    rintro b _ hb rfl
    obtain ⟨a, ha, hsame⟩ := next_attempts_of_some hfresh hb
    exact ⟨a, ha, hsame.1⟩
  have hchange := next_jobChange settings w e requestId
  rw [hrow] at hchange
  generalize hnew : some row = new at hchange
  cases hchange with
  | kept =>
      obtain ⟨b, hb, hscope⟩ := h.token requestId row leaseId hnew.symm htoken
      exact carry b _ hb hscope
  | @started job stored _ hop hstored hstate _ _ hid hout =>
      obtain ⟨found, _, hfound, _, _, _, row', hrow', hscope, _, hlease⟩ := startJob_done hop hout
      obtain rfl := Option.some.inj (hstored.symm.trans hfound)
      subst hid
      obtain rfl := Option.some.inj (hrow.symm.trans hrow')
      obtain rfl := Option.some.inj (hlease.symm.trans htoken)
      obtain ⟨b, hb, hgranted, _, _⟩ := hcoherent.pending _ _ _ _ hstored hstate
      exact carry b _ hb (hgranted.trans hscope.symm)
  | finished _ _ _ _ _ _ _ =>
      cases hnew
      cases htoken
  | released _ hold _ =>
      cases hnew
      rw [JobRow.released_leaseToken] at htoken
      obtain ⟨b, hb, hscope⟩ := h.token requestId _ leaseId hold htoken
      exact carry b _ hb (hscope.trans
        (congrArg OperationId.scope (JobRow.released_operationId _ _ _)).symm)
  | recovered _ hold =>
      cases hnew
      rw [JobRow.recovered_leaseToken] at htoken
      obtain ⟨b, hb, hscope⟩ := h.token requestId _ leaseId hold htoken
      exact carry b _ hb (hscope.trans
        (congrArg OperationId.scope (JobRow.recovered_operationId _ _)).symm)

theorem lifetime_step (h : JobsAgree w) (hstep : Step settings w e w') :
    ∀ scope stored, w'.db.records scope = some stored →
      stored.createdAt ≤ w'.clock ∧ stored.createdAt < stored.expiresAt := by
  intro scope stored hstored
  obtain ⟨hlocked, hwritten, hclock⟩ := hstep.clock_le
  have hlease := settings.lease_pos
  have httl := settings.lease_lt_ttl
  rw [hstep.eq_next] at hstored
  have hchange := next_recordChange settings w e scope
  rw [hstored] at hchange
  generalize hnew : some stored = new at hchange
  rw [hclock]
  cases hchange with
  | kept =>
      obtain ⟨hcreated, hlives⟩ := h.lifetime scope stored hnew.symm
      omega
  | inserted _ _ _ _ _ =>
      obtain rfl := Option.some.inj hnew
      simp only [freshRecord]
      omega
  | reclaimed _ _ hold _ _ _ _ _ =>
      obtain rfl := Option.some.inj hnew
      obtain ⟨hcreated, hlives⟩ := h.lifetime scope _ hold
      simp only [reclaimedRecord]
      omega
  | completed _ _ hold _ _ _ _ _ =>
      obtain rfl := Option.some.inj hnew
      obtain ⟨hcreated, hlives⟩ := h.lifetime scope _ hold
      simp only [completedRecord]
      omega
  | released _ _ hold _ _ =>
      obtain rfl := Option.some.inj hnew
      obtain ⟨hcreated, hlives⟩ := h.lifetime scope _ hold
      simp only [releasedRecord]
      omega
  | purged _ _ _ => cases hnew

/-- An attempt whose scope is about to get a new record started before it. -/
theorem before_insert (h : JobsAgree w) (hstep : Step settings w e w')
    {leaseId : IdempotencyLeaseId} {a : Attempt} (ha : w.attempts leaseId = some a)
    (hgone : ∀ old ∈ w.db.records a.scope, recordIsPurgeable old e.now.locked = true) :
    a.operationStartedAt < e.now.written := by
  obtain ⟨hlocked, hwritten, _⟩ := hstep.clock_le
  have hpast := h.past leaseId a ha
  cases hold : w.db.records a.scope with
  | none =>
      rw [hold] at hpast
      omega
  | some old =>
      rw [hold] at hpast
      obtain ⟨_, hlives⟩ := h.lifetime _ old hold
      have hexpired := expiresAt_le_of_recordIsPurgeable (hgone old hold)
      dsimp only at hpast
      omega

/-- A granted attempt starts with its record. -/
theorem granted_past {claim : IdempotencyClaim} {lease : IdempotencyLease} {requestId : RequestId}
    {startedAt : Nat} (hop : e.op = .claim claim)
    (hout : w.outcome settings e = .decided (.acquired lease requestId startedAt)) :
    ∃ stored, (w.next settings e).db.records claim.scope = some stored ∧
      startedAt = stored.createdAt := by
  rcases execute_claim settings e.now w.db claim with
    ⟨error, hexec⟩ | ⟨decision, db', hexec, _, hresult⟩
  · simp [World.outcome, hop, hexec] at hout
  · have hdecision : decision = .acquired lease requestId startedAt := by
      simpa [World.outcome, hop, hexec] using hout
    have hdb : (w.next settings e).db = db' := by simp [World.next, hop, hexec]
    rw [hdb]
    cases hresult with
    | inserted _ =>
        obtain ⟨_, _, rfl⟩ := IdempotencyDecision.acquired.inj hdecision
        exact ⟨_, Db.setRecord_records_self .., rfl⟩
    | reclaimed _ _ _ _ _ =>
        obtain ⟨_, _, rfl⟩ := IdempotencyDecision.acquired.inj hdecision
        exact ⟨_, Db.setRecord_records_self .., rfl⟩
    | keyReused _ _ _ => cases hdecision
    | replayed _ _ _ _ _ _ _ => cases hdecision
    | inProgress _ _ _ _ _ => cases hdecision

theorem past_step (h : JobsAgree w) (hstep : Step settings w e w') :
    ∀ leaseId a, w'.attempts leaseId = some a →
      match w'.db.records a.scope with
      | some stored => a.operationStartedAt ≤ stored.createdAt
      | none => a.operationStartedAt < w'.clock := by
  intro leaseId a ha
  obtain ⟨hlocked, hwritten, hclock⟩ := hstep.clock_le
  rw [hclock]
  rw [hstep.eq_next] at ha ⊢
  -- What was so of an attempt that was there before.
  have carry : ∀ b, w.attempts leaseId = some b → b.SameGrant a →
      match (w.next settings e).db.records a.scope with
      | some stored => a.operationStartedAt ≤ stored.createdAt
      | none => a.operationStartedAt < e.now.written := by
    rintro b hb ⟨hscope, _, hstart⟩
    have hpast := h.past leaseId b hb
    rw [← hscope, ← hstart] at hpast
    have hchange := next_recordChange settings w e a.scope
    generalize (w.next settings e).db.records a.scope = new at hchange
    cases hchange with
    | kept =>
        cases hold : w.db.records a.scope with
        | none =>
            rw [hold] at hpast
            dsimp only at hpast ⊢
            omega
        | some old =>
            rw [hold] at hpast
            exact hpast
    | inserted _ _ hgone _ _ =>
        have hbefore := h.before_insert hstep hb (by rw [← hscope]; exact hgone)
        simp only [freshRecord]
        omega
    | reclaimed _ _ hold _ _ _ _ _ =>
        rw [hold] at hpast
        exact hpast
    | completed _ _ hold _ _ _ _ _ =>
        rw [hold] at hpast
        exact hpast
    | released _ _ hold _ _ =>
        rw [hold] at hpast
        exact hpast
    | purged _ hold hpurgeable =>
        rw [hold] at hpast
        obtain ⟨_, hlives⟩ := h.lifetime _ _ hold
        have hexpired := expiresAt_le_of_recordIsPurgeable hpurgeable
        dsimp only at hpast ⊢
        omega
  have hchange := next_attemptChange settings w e leaseId
  rw [ha] at hchange
  generalize hnew : some a = new at hchange
  cases hchange with
  | kept => exact carry a hnew.symm (.refl a)
  | granted hop _ hout =>
      cases hnew
      obtain ⟨stored, hstored, hstart⟩ := granted_past hop hout
      dsimp only
      rw [hstored]
      exact Nat.le_of_eq hstart
  | started hb _ _ _ =>
      cases hnew
      exact carry _ hb ⟨rfl, rfl, rfl⟩
  | held hb _ _ =>
      cases hnew
      exact carry _ hb ⟨rfl, rfl, rfl⟩
  | completed hb _ _ _ =>
      cases hnew
      exact carry _ hb ⟨rfl, rfl, rfl⟩

/-- A completion completes the record of its scope and the job of its request together; the job of
another scope has another token. -/
theorem started_complete (h : JobsAgree w) (hcoherent : Coherent w)
    {completion : IdempotencyCompletion} (hop : e.op = .complete completion)
    (hout : w.outcome settings e = .done) {scope : IdempotencyScope} {stored : RecordRow}
    {leaseId : IdempotencyLeaseId} {b : Attempt}
    (hstored : (w.next settings e).db.records scope = some stored)
    (hb : w.attempts leaseId = some b) (hof : b.Of scope stored) (hstarted : b.started = true) :
    ∃ row, (w.next settings e).db.jobs stored.requestId = some row ∧ row.scope = scope ∧
      row.status.isCompleted = stored.state.isCompleted := by
  obtain ⟨old, _, row, response, hold, hstate, _, hrow, htoken, hrecords, hjobs⟩ :=
    complete_done hop hout
  rw [hrecords] at hstored
  rw [hjobs]
  by_cases hscope : scope = completion.scope
  · subst hscope
    rw [Function.update_self] at hstored
    obtain rfl := Option.some.inj hstored
    obtain ⟨same, hsame, hjobScope, _⟩ := h.started _ old leaseId b hold hb hof hstarted
    obtain rfl := Option.some.inj (hrow.symm.trans hsame)
    exact ⟨_, Function.update_self .., hjobScope, rfl⟩
  · rw [Function.update_of_ne hscope] at hstored
    obtain ⟨job, hjob, hjobScope, hagrees⟩ := h.started scope stored leaseId b hstored hb hof
      hstarted
    by_cases hid : stored.requestId = old.requestId
    · -- The completed job would be the job of this scope, and its token one of the other.
      rw [hid] at hjob
      obtain rfl := Option.some.inj (hrow.symm.trans hjob)
      obtain ⟨a, ha, hascope⟩ := h.token _ row _ hrow htoken
      obtain ⟨a', ha', hascope', _⟩ := hcoherent.pending _ _ _ _ hold hstate
      obtain rfl := Option.some.inj (ha.symm.trans ha')
      exact absurd (hjobScope.symm.trans (hascope.symm.trans hascope')) hscope
    · exact ⟨job, (Function.update_of_ne hid ..).trans hjob, hjobScope, hagrees⟩

theorem started_step (h : JobsAgree w) (hcoherent : Coherent w) (hstep : Step settings w e w') :
    ∀ scope stored leaseId a, w'.db.records scope = some stored →
      w'.attempts leaseId = some a → a.Of scope stored → a.started = true →
      ∃ row, w'.db.jobs stored.requestId = some row ∧ row.scope = scope ∧
        row.status.isCompleted = stored.state.isCompleted := by
  rintro scope stored leaseId a hstored ha ⟨hscope, hid, hstart⟩ hstarted
  rw [hstep.eq_next] at hstored ha ⊢
  rcases next_started ha hstarted with
    ⟨b, hb, ⟨hbscope, hbid, hbstart⟩, hbstarted⟩ | ⟨b, job, hb, hgrant, hop, hlease, hout⟩
  · have hof : b.Of scope stored :=
      ⟨hbscope.symm.trans hscope, hbid.symm.trans hid, hbstart.symm.trans hstart⟩
    by_cases hcompletes : ∃ completion, e.op = .complete completion ∧ w.outcome settings e = .done
    · obtain ⟨completion, hop, hout⟩ := hcompletes
      exact h.started_complete hcoherent hop hout hstored hb hof hbstarted
    · have hnone : ∀ completion, e.op = .complete completion → w.outcome settings e ≠ .done :=
        fun completion hop hout => hcompletes ⟨completion, hop, hout⟩
      rcases next_record_kept hnone hstored with
        ⟨hcreated, hgone⟩ | ⟨old, hold, hsameId, hsameCreated, hsameState⟩
      · -- An attempt that was there before is none of a record that the step inserts.
        have hbefore := h.before_insert hstep hb (by rw [hof.1]; exact hgone)
        have hcontra := hof.2.2
        omega
      · have hofOld : b.Of scope old :=
          ⟨hof.1, hof.2.1.trans hsameId, hof.2.2.trans hsameCreated⟩
        obtain ⟨row, hrow, hjobScope, hagrees⟩ :=
          h.started scope old leaseId b hold hb hofOld hbstarted
        obtain ⟨row', hrow', hkeptScope, hkept⟩ := next_job_kept hnone hrow
        rw [hsameId]
        exact ⟨row', hrow', hkeptScope.trans hjobScope,
          hkept.trans (hagrees.trans hsameState.symm)⟩
  · obtain ⟨found, _, hfound, hstate, _, hrecords, row, hrow, hjobScope, hrunning, _⟩ :=
      startJob_done hop hout
    obtain ⟨c, hc, hcscope, _⟩ := hcoherent.pending _ _ _ _ hfound hstate
    rw [hlease] at hc
    obtain rfl := Option.some.inj (hb.symm.trans hc)
    have hjob : job.scope = scope := hcscope.symm.trans (hgrant.1.symm.trans hscope)
    rw [hrecords, ← hjob] at hstored
    obtain rfl := Option.some.inj (hfound.symm.trans hstored)
    refine ⟨row, hrow, hjobScope.trans hjob, ?_⟩
    rw [hrunning, hstate]
    rfl

/-- **Every step keeps records and jobs in agreement.** -/
theorem step (h : JobsAgree w) (hcoherent : Coherent w) (hstep : Step settings w e w') :
    JobsAgree w' where
  token := h.token_step hcoherent hstep
  started := h.started_step hcoherent hstep
  lifetime := h.lifetime_step hstep
  past := h.past_step hstep

end JobsAgree

/-- Records and jobs agree in every reachable world. -/
theorem ReachableWorld.jobsAgree {settings : IdempotencySettings} {w : World}
    (h : ReachableWorld settings w) : JobsAgree w := by
  obtain ⟨w₀, tr, hinit, hrun⟩ := h
  have hboth := hrun.invariant (fun w => Coherent w ∧ JobsAgree w)
    (fun _ _ _ hw hstep => ⟨hw.1.step hstep, hw.2.step hw.1 hstep⟩)
    ⟨.initial hinit, .initial hinit⟩
  exact hboth.2

/-! ## The history -/

/-- The lease that an operation on a job uses, with the scope of its record. -/
def StoreOp.jobLease : StoreOp → Option (IdempotencyScope × IdempotencyLeaseId)
  | .startJob job => some (job.scope, job.leaseId)
  | .complete completion => some (completion.scope, completion.leaseId)
  | .release failure => some (failure.scope, failure.leaseId)
  | _ => none

/-- What the job history owes to the idempotency records, in a world and in every step from it. -/
structure HistoryAgrees (settings : IdempotencySettings) (w : World) : Prop where
  /-- The job that an attempt of a record has started is completed exactly when the record is. -/
  completed_iff : ∀ scope stored leaseId a, w.db.records scope = some stored →
    w.attempts leaseId = some a → a.Of scope stored → a.started = true →
    ∃ row, w.db.jobs stored.requestId = some row ∧
      (row.status.isCompleted = true ↔ stored.state.isCompleted = true)
  /-- A completed job stays completed. -/
  completed_stays : ∀ e w', Step settings w e w' → ∀ requestId row,
    w.db.jobs requestId = some row → row.status.isCompleted = true →
    ∃ row', w'.db.jobs requestId = some row' ∧ row'.status.isCompleted = true
  /-- A failed job is moved on only under the current lease of the record of its scope. -/
  failed_moves : ∀ e w', Step settings w e w' → ∀ requestId row row' code finishedAt,
    w.db.jobs requestId = some row → row.status = .failed code finishedAt →
    w'.db.jobs requestId = some row' → row'.status ≠ row.status →
    ∃ leaseId stored, e.op.jobLease = some (row.scope, leaseId) ∧
      w.db.records row.scope = some stored ∧ stored.state.leaseToken = some leaseId ∧
      stored.requestId = requestId
  /-- A completion completes the record and its job, or changes neither. -/
  completes_both : ∀ e w' completion, Step settings w e w' → e.op = .complete completion →
    w'.db = w.db ∨ ∃ stored row, w'.db.records completion.scope = some stored ∧
      stored.state.isCompleted = true ∧ w'.db.jobs stored.requestId = some row ∧
      row.status.isCompleted = true

/-- The job history agrees with the idempotency records in every reachable world. -/
theorem history_agrees {settings : IdempotencySettings} {w : World}
    (h : ReachableWorld settings w) : HistoryAgrees settings w where
  completed_iff := by
    intro scope stored leaseId a hstored ha hof hstarted
    obtain ⟨row, hrow, _, hagrees⟩ := h.jobsAgree.started scope stored leaseId a hstored ha hof
      hstarted
    exact ⟨row, hrow, by rw [hagrees]⟩
  completed_stays := by
    intro e w' hstep requestId row hrow hcompleted
    rw [hstep.eq_next]
    exact next_job_completed hrow hcompleted
  failed_moves := by
    intro e w' hstep requestId row row' code finishedAt hrow hfailed hrow' hmoved
    rw [hstep.eq_next] at hrow'
    have hchange := next_jobChange settings w e requestId
    rw [hrow'] at hchange
    generalize hnew : some row' = new at hchange
    cases hchange with
    | kept => exact absurd (congrArg JobRow.status (Option.some.inj (hnew.trans hrow))) hmoved
    | @started job _ _ hop hstored hstate _ _ hid hout =>
        obtain ⟨found, _, hfound, _, haccepts, _⟩ := startJob_done hop hout
        obtain rfl := Option.some.inj (hstored.symm.trans hfound)
        subst hid
        rw [(haccepts row hrow).1]
        exact ⟨job.leaseId, _, by rw [hop]; rfl, hstored, by rw [hstate]; rfl, rfl⟩
    | @finished completion _ _ _ hop hstored hstate hid hother htoken _ =>
        obtain rfl := Option.some.inj (hrow.symm.trans hother)
        obtain ⟨a, ha, hascope⟩ := h.jobsAgree.token _ row _ hrow htoken
        obtain ⟨a', ha', hascope', _⟩ := h.coherent.pending _ _ _ _ hstored hstate
        obtain rfl := Option.some.inj (ha.symm.trans ha')
        have hscope : row.scope = completion.scope := hascope.symm.trans hascope'
        rw [hscope]
        exact ⟨completion.leaseId, _, by rw [hop]; rfl, hstored, by rw [hstate]; rfl, hid⟩
    | released _ hother _ =>
        obtain rfl := Option.some.inj (hrow.symm.trans hother)
        obtain rfl := Option.some.inj hnew
        exact absurd (by simp [JobRow.released, hfailed]) hmoved
    | recovered _ hother =>
        obtain rfl := Option.some.inj (hrow.symm.trans hother)
        obtain rfl := Option.some.inj hnew
        exact absurd (by simp [JobRow.recovered, hfailed]) hmoved
  completes_both := by
    intro e w' completion hstep hop
    rw [hstep.eq_next]
    by_cases hout : w.outcome settings e = .done
    · obtain ⟨stored, _, row, response, _, _, _, _, _, hrecords, hjobs⟩ := complete_done hop hout
      refine .inr ⟨completedRecord settings e.now stored response,
        row.finished completion.response e.now.written, ?_, rfl, ?_, rfl⟩
      · rw [hrecords, Function.update_self]
      · rw [hjobs]
        exact Function.update_self ..
    · exact .inl (complete_failed hop hout)

/-- The lease of a running job expires, a cleaner recovers the job, and a second attempt restarts
and completes it. -/
def recoveredEvents : List StoreEvent :=
  [⟨.claim (sampleClaim sampleScope 0), .at 10⟩,
    ⟨.startJob (sampleJob sampleScope 0), .at 20⟩,
    ⟨.recoverExpiredJobs, .at 700000000⟩,
    ⟨.claim (sampleClaim sampleScope 1), .at 700000010⟩,
    ⟨.startJob (sampleJob sampleScope 1), .at 700000020⟩,
    ⟨.complete ⟨sampleScope, sampleLease 1, .tts sampleResult⟩, .at 700000030⟩]

theorem history_agrees_recoveredEvents :
    HistoryAgrees sampleSettings (sampleWorld.after sampleSettings recoveredEvents) :=
  history_agrees ⟨sampleWorld, transitions sampleSettings sampleWorld recoveredEvents,
    sampleWorld_initial, run_of_protocolRun (protocolRun_transitions (by decide))⟩

end Waveform.Store
