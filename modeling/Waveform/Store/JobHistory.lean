import Waveform.Store.HeldLifetime

/-!
# What a step does to the job of one request

`JobChange` lists the ways one step can treat a job row, and `next_jobChange` says that every step
is one of them. An operation is the scope of its record and the time the record was created; the
columns of a job row name the operation it belongs to (`JobRow.operationId`), and no step changes
them in a row that is there.

`Separated` is the invariant that job rows keep apart: what an attempt has started is a job of its
own operation, a job's lease token was granted for the job's own operation, and audio is held under
the request id of a job only. It rests on one condition about `start_job` (`StartsOwnJob`): the job
row under the record's request id, if there is one, is a row of the same operation.
-/

set_option autoImplicit false

namespace Waveform.Store

open Waveform.Domain LabelledRun

/-- One speech operation: a scope and the start time of its record. The same key used again after
its record was purged is another operation. -/
structure OperationId where
  scope : IdempotencyScope
  startedAt : Nat
  deriving DecidableEq

/-- The operation that the columns of a job row name. -/
def JobRow.operationId (row : JobRow) : OperationId where
  scope := ⟨row.planeId, ⟨row.actorKind, row.actorId⟩, row.operation, row.idempotencyKeyHash.key⟩
  startedAt := row.createdAt

/-- The operation an attempt works on. -/
def Attempt.operationId (a : Attempt) : OperationId := ⟨a.scope, a.operationStartedAt⟩

/-- Two history entries of one grant work on the same operation. -/
theorem Attempt.SameGrant.operationId_eq {a b : Attempt} (h : a.SameGrant b) :
    b.operationId = a.operationId := by
  obtain ⟨hscope, _, hstart⟩ := h
  simp only [Attempt.operationId, hscope, hstart]

section Columns

variable (row : JobRow)

@[simp] theorem startedJob_operationId (stored : RecordRow) (job : SpeechJobStart) :
    (startedJob stored job).operationId = ⟨job.scope, stored.createdAt⟩ := rfl

@[simp] theorem JobRow.restarted_operationId (excluded : JobRow) :
    (row.restarted excluded).operationId = row.operationId := rfl

@[simp] theorem JobRow.finished_operationId (response : CompletedSpeechOperation)
    (finishedAt : Nat) : (row.finished response finishedAt).operationId = row.operationId := rfl

@[simp] theorem JobRow.released_operationId (release : IdempotencyRelease) (now : Readings) :
    (row.released release now).operationId = row.operationId := by
  unfold JobRow.released
  split <;> rfl

@[simp] theorem JobRow.released_leaseToken (release : IdempotencyRelease) (now : Readings) :
    (row.released release now).leaseToken = row.leaseToken := by
  unfold JobRow.released
  split <;> rfl

@[simp] theorem JobRow.recovered_operationId (now : Readings) :
    (row.recovered now).operationId = row.operationId := by
  unfold JobRow.recovered
  split <;> rfl

@[simp] theorem JobRow.recovered_leaseToken (now : Readings) :
    (row.recovered now).leaseToken = row.leaseToken := by
  unfold JobRow.recovered
  split <;> rfl

/-- A release leaves a job of another lease as it is. -/
theorem JobRow.released_of_ne {release : IdempotencyRelease} (now : Readings)
    (h : row.leaseToken ≠ some release.leaseId) : row.released release now = row := by
  unfold JobRow.released
  rw [if_neg fun hjob => h hjob.1]

end Columns

/-! ## What a step does to a job row -/

/-- How a step with this event can change the job row of a request. -/
inductive JobChange (settings : IdempotencySettings) (w : World) (e : StoreEvent)
    (requestId : RequestId) : Option JobRow → Prop where
  | kept : JobChange settings w e requestId (w.db.jobs requestId)
  | started {job : SpeechJobStart} {stored : RecordRow} {leaseExpiresAt : Nat}
      (hop : e.op = .startJob job) (hstored : w.db.records job.scope = some stored)
      (hstate : stored.state = .pending job.leaseId leaseExpiresAt)
      (hunexpired : e.now.locked < leaseExpiresAt)
      (hstorable : (startedJob stored job).storable = true) (hid : stored.requestId = requestId)
      (houtcome : w.outcome settings e = .done) :
      JobChange settings w e requestId
        (some (upsertedJob stored job (w.db.jobs requestId)))
  | finished {completion : IdempotencyCompletion} {stored : RecordRow} {leaseExpiresAt : Nat}
      {row : JobRow} (hop : e.op = .complete completion)
      (hstored : w.db.records completion.scope = some stored)
      (hstate : stored.state = .pending completion.leaseId leaseExpiresAt)
      (hid : stored.requestId = requestId) (hrow : w.db.jobs requestId = some row)
      (htoken : row.leaseToken = some completion.leaseId)
      (houtcome : w.outcome settings e = .done) :
      JobChange settings w e requestId (some (row.finished completion.response e.now.written))
  | released {release : IdempotencyRelease} {row : JobRow} (hop : e.op = .release release)
      (hrow : w.db.jobs requestId = some row) (htoken : row.leaseToken = some release.leaseId) :
      JobChange settings w e requestId (some (row.released release e.now))
  | recovered {row : JobRow} (hop : e.op = .recoverExpiredJobs)
      (hrow : w.db.jobs requestId = some row) :
      JobChange settings w e requestId (some (row.recovered e.now))

/-- **Every step changes the job row of a request in one of the listed ways.** -/
theorem next_jobChange (settings : IdempotencySettings) (w : World) (e : StoreEvent)
    (requestId : RequestId) :
    JobChange settings w e requestId ((w.next settings e).db.jobs requestId) := by
  have hkept : (w.next settings e).db.jobs requestId = w.db.jobs requestId →
      JobChange settings w e requestId ((w.next settings e).db.jobs requestId) := by
    intro heq
    rw [heq]
    exact .kept
  cases hop : e.op with
  | claim claim =>
      rcases execute_claim settings e.now w.db claim with
        ⟨error, hexec⟩ | ⟨decision, db', hexec, _, hresult⟩
      · exact hkept (by simp [World.next, hop, hexec])
      · cases hresult <;> exact hkept (by simp [World.next, hop, hexec])
  | startJob job =>
      rcases execute_startJob settings e.now w.db job with ⟨error, hexec⟩ | ⟨db', hexec, hok⟩
      · exact hkept (by simp [World.next, hop, hexec])
      · obtain ⟨_, stored, leaseExpiresAt, hstored, hstate, hunexpired, hstorable, _, rfl⟩ :=
          startJobInner_ok.mp hok
        have hout : w.outcome settings e = .done := by simp [World.outcome, hop, hexec]
        by_cases hid : requestId = stored.requestId
        · subst hid
          have hnew : (w.next settings e).db.jobs stored.requestId =
              some (upsertedJob stored job (w.db.jobs stored.requestId)) := by
            simp [World.next, hop, hexec]
          rw [hnew]
          exact .started hop hstored hstate hunexpired hstorable rfl hout
        · exact hkept (by simp [World.next, hop, hexec, Db.setJob_jobs, hid])
  | complete completion =>
      rcases execute_complete settings e.now w.db completion with
        ⟨error, hexec⟩ | ⟨db', hexec, hok⟩
      · exact hkept (by simp [World.next, hop, hexec])
      · obtain ⟨_, stored, leaseExpiresAt, row, _, _, _, _, hstored, hstate, _, hrow, htoken,
          rfl⟩ := completeInner_ok.mp hok
        have hout : w.outcome settings e = .done := by simp [World.outcome, hop, hexec]
        by_cases hid : requestId = stored.requestId
        · subst hid
          have hnew : (w.next settings e).db.jobs stored.requestId =
              some (row.finished completion.response e.now.written) := by
            simp [World.next, hop, hexec]
          rw [hnew]
          exact .finished hop hstored hstate rfl hrow htoken hout
        · exact hkept (by simp [World.next, hop, hexec, Db.setJob_jobs, hid])
  | release release =>
      rcases execute_release settings e.now w.db release with ⟨error, hexec⟩ | ⟨db', hexec, hok⟩
      · exact hkept (by simp [World.next, hop, hexec])
      · obtain ⟨stored, _, _, _, rfl⟩ := releaseInner_ok.mp hok
        by_cases hid : requestId = stored.requestId
        · subst hid
          have hnew : (w.next settings e).db.jobs stored.requestId =
              (w.db.jobs stored.requestId).map fun row => row.released release e.now := by
            simp [World.next, hop, hexec]
          cases hrow : w.db.jobs stored.requestId with
          | none => exact hkept (by rw [hnew, hrow]; rfl)
          | some row =>
              rw [hrow, Option.map_some] at hnew
              -- Only the lease that runs the job releases it.
              by_cases htoken : row.leaseToken = some release.leaseId
              · rw [hnew]
                exact .released hop hrow htoken
              · exact hkept (by rw [hnew, hrow, row.released_of_ne e.now htoken])
        · exact hkept (by simp [World.next, hop, hexec, Db.setJob_jobs, hid])
  | hold attempt audio =>
      rcases execute_hold settings e.now w.db attempt audio with hexec |
        ⟨expiresAt, db', hexec, hok⟩
      · exact hkept (by simp [World.next, hop, hexec])
      · obtain ⟨_, _, rfl⟩ := hold_eq_some.mp hok
        exact hkept (by simp [World.next, hop, hexec])
  | recoverExpiredJobs =>
      have hnew : (w.next settings e).db.jobs requestId =
          (w.db.jobs requestId).map fun row => row.recovered e.now := by
        simp [World.next, hop, execute, Store.recoverExpiredJobs]
      cases hrow : w.db.jobs requestId with
      | none => exact hkept (by rw [hnew, hrow]; rfl)
      | some row =>
          rw [hnew, hrow, Option.map_some]
          exact .recovered hop hrow
  | deleteExpiredRecords selected =>
      exact hkept (by simp [World.next, hop, execute, Store.deleteExpiredRecords])
  | deleteExpiredAudio selected =>
      exact hkept (by simp [World.next, hop, execute, Store.deleteExpiredAudio])

/-- A job row that is there stays there, and belongs to the operation it belonged to. -/
theorem next_jobs_of_some (settings : IdempotencySettings) {w : World} (e : StoreEvent)
    {requestId : RequestId} {row : JobRow} (hrow : w.db.jobs requestId = some row) :
    ∃ row', (w.next settings e).db.jobs requestId = some row' ∧
      row'.operationId = row.operationId := by
  have hchange := next_jobChange settings w e requestId
  generalize (w.next settings e).db.jobs requestId = new at hchange
  cases hchange with
  | kept => exact ⟨row, hrow, rfl⟩
  | started _ _ _ _ _ _ _ =>
      rw [hrow]
      exact ⟨_, rfl, rfl⟩
  | finished _ _ _ _ hother _ _ =>
      rw [hrow] at hother
      cases hother
      exact ⟨_, rfl, rfl⟩
  | released _ hother _ =>
      rw [hrow] at hother
      cases hother
      exact ⟨_, rfl, row.released_operationId _ _⟩
  | recovered _ hother =>
      rw [hrow] at hother
      cases hother
      exact ⟨_, rfl, row.recovered_operationId _⟩

/-! ## The condition and the invariant -/

/-- A `start_job` whose own checks pass finds no job row of another operation under the request id
of its record. -/
def StoreEvent.StartsOwnJob (w : World) (e : StoreEvent) : Prop :=
  match e.op with
  | .startJob job => ∀ stored ∈ w.db.records job.scope,
      stored.state.leaseToken = some job.leaseId →
      stored.state.leaseExpiresAt.any (e.now.locked < ·) = true →
      (startedJob stored job).storable = true →
      ∀ row ∈ w.db.jobs stored.requestId, row.operationId = ⟨job.scope, stored.createdAt⟩
  | _ => True

instance (w : World) (e : StoreEvent) : Decidable (e.StartsOwnJob w) :=
  match e with
  | ⟨.startJob job, _⟩ => inferInstanceAs (Decidable (∀ stored ∈ w.db.records job.scope, _))
  | ⟨.claim _, _⟩ | ⟨.complete _, _⟩ | ⟨.release _, _⟩ | ⟨.hold _ _, _⟩
  | ⟨.recoverExpiredJobs, _⟩ | ⟨.deleteExpiredRecords _, _⟩ | ⟨.deleteExpiredAudio _, _⟩ =>
      .isTrue trivial

/-- Job rows and held rows belong to one operation each. -/
structure Separated (w : World) : Prop where
  /-- An attempt that has started its job has a job of its own operation. -/
  started : ∀ leaseId a, w.attempts leaseId = some a → a.started = true →
    ∃ row, w.db.jobs a.requestId = some row ∧ row.operationId = a.operationId
  /-- The lease token of a job was granted for the operation of the job. -/
  token : ∀ requestId row leaseId, w.db.jobs requestId = some row →
    row.leaseToken = some leaseId →
      ∃ a, w.attempts leaseId = some a ∧ a.operationId = row.operationId
  /-- Audio is held under the request id of a job. -/
  held : ∀ requestId row, w.db.held requestId = some row → ∃ job, w.db.jobs requestId = some job

theorem Separated.initial {w : World} (h : w.Initial) : Separated w where
  started leaseId a ha := by
    rw [h.2.2.2 leaseId] at ha
    cases ha
  token requestId row leaseId hrow := by
    rw [h.2.1 requestId] at hrow
    cases hrow
  held requestId row hrow := by
    rw [h.2.2.1 requestId] at hrow
    cases hrow

/-- The operation of a pending record is the one its lease was granted for. -/
theorem Coherent.operationId_eq {w : World} (h : Coherent w) {scope : IdempotencyScope}
    {stored : RecordRow} {leaseId : IdempotencyLeaseId} {a : Attempt}
    (hstored : w.db.records scope = some stored)
    (htoken : stored.state.leaseToken = some leaseId) (ha : w.attempts leaseId = some a) :
    a.operationId = ⟨scope, stored.createdAt⟩ ∧ a.requestId = stored.requestId := by
  cases hstate : stored.state with
  | completed body =>
      rw [hstate] at htoken
      cases htoken
  | pending token leaseExpiresAt =>
      rw [hstate] at htoken
      cases htoken
      obtain ⟨b, hb, hscope, hid, hstart⟩ := h.pending scope stored _ _ hstored hstate
      rw [ha] at hb
      cases hb
      exact ⟨by simp only [Attempt.operationId, hscope, hstart], hid⟩

/-- The row that an accepted start leaves is a row of the starting operation. -/
theorem upsertedJob_operationId {w : World} {e : StoreEvent} {job : SpeechJobStart}
    {stored : RecordRow} {leaseExpiresAt : Nat} (hown : e.StartsOwnJob w)
    (hop : e.op = .startJob job) (hstored : w.db.records job.scope = some stored)
    (hstate : stored.state = .pending job.leaseId leaseExpiresAt)
    (hunexpired : e.now.locked < leaseExpiresAt)
    (hstorable : (startedJob stored job).storable = true) :
    (∀ row, w.db.jobs stored.requestId = some row →
        row.operationId = ⟨job.scope, stored.createdAt⟩) ∧
      (upsertedJob stored job (w.db.jobs stored.requestId)).operationId =
        ⟨job.scope, stored.createdAt⟩ := by
  have hrows : ∀ row, w.db.jobs stored.requestId = some row →
      row.operationId = ⟨job.scope, stored.createdAt⟩ := by
    intro row hrow
    unfold StoreEvent.StartsOwnJob at hown
    rw [hop] at hown
    exact hown stored hstored (by rw [hstate]; rfl)
      (by simpa [hstate, RecordState.leaseExpiresAt] using hunexpired) hstorable row hrow
  refine ⟨hrows, ?_⟩
  cases hrow : w.db.jobs stored.requestId with
  | none => rfl
  | some row => exact hrows row hrow

/-- **A step that starts no job in another operation's row keeps the rows apart.** -/
theorem Separated.step {settings : IdempotencySettings} {w w' : World} {e : StoreEvent}
    (h : Separated w) (hcoherent : Coherent w) (hstep : ProtocolStep settings w e w')
    (hown : e.StartsOwnJob w) : Separated w' := by
  obtain ⟨⟨_, _, hfresh, rfl⟩, hprotocol⟩ := hstep
  refine ⟨?_, ?_, ?_⟩
  · intro leaseId a ha hstarted
    -- A job that was started before the step is still there.
    have carry : ∀ b, w.attempts leaseId = some b → b.started = true → b.SameGrant a →
        ∃ row, (w.next settings e).db.jobs a.requestId = some row ∧
          row.operationId = a.operationId := by
      intro b hb hbstarted hsame
      obtain ⟨row, hrow, hoperation⟩ := h.started leaseId b hb hbstarted
      obtain ⟨row', hrow', hkept⟩ := next_jobs_of_some settings e hrow
      rw [hsame.2.1]
      exact ⟨row', hrow', by rw [hkept, hoperation, hsame.operationId_eq]⟩
    have hchange := next_attemptChange settings w e leaseId
    rw [ha] at hchange
    generalize hnew : some a = new at hchange
    cases hchange with
    | kept => exact carry a hnew.symm hstarted (.refl a)
    | granted _ _ _ =>
        cases hnew
        cases hstarted
    | held hb _ _ =>
        cases hnew
        exact carry _ hb hstarted ⟨rfl, rfl, rfl⟩
    | completed hb _ _ _ =>
        cases hnew
        exact carry _ hb hstarted ⟨rfl, rfl, rfl⟩
    | @started b job hb hop hlease hout =>
        cases hnew
        -- The successful start left a row of the operation whose record holds the lease.
        rcases execute_startJob settings e.now w.db job with ⟨error, hexec⟩ | ⟨db', hexec, hok⟩
        · simp [World.outcome, hop, hexec] at hout
        · obtain ⟨_, stored, leaseExpiresAt, hstored, hstate, hunexpired, hstorable, _, rfl⟩ :=
            startJobInner_ok.mp hok
          obtain ⟨_, hrow⟩ :=
            upsertedJob_operationId hown hop hstored hstate hunexpired hstorable
          obtain ⟨hoperation, hid⟩ := hcoherent.operationId_eq hstored
            (by rw [hstate, hlease]; rfl) hb
          refine ⟨upsertedJob stored job (w.db.jobs stored.requestId), ?_, ?_⟩
          · simp [World.next, hop, hexec, hid]
          · rw [hrow, ← hoperation]
            rfl
  · intro requestId row leaseId hrow htoken
    have carry : ∀ b, w.attempts leaseId = some b → b.operationId = row.operationId →
        ∃ a, (w.next settings e).attempts leaseId = some a ∧ a.operationId = row.operationId := by
      intro b hb hoperation
      obtain ⟨a, ha, hsame⟩ := next_attempts_of_some hfresh hb
      exact ⟨a, ha, by rw [hsame.operationId_eq, hoperation]⟩
    have hchange := next_jobChange settings w e requestId
    rw [hrow] at hchange
    generalize hnew : some row = new at hchange
    cases hchange with
    | kept =>
        obtain ⟨b, hb, hoperation⟩ := h.token requestId row leaseId hnew.symm htoken
        exact carry b hb hoperation
    | @started job stored leaseExpiresAt hop hstored hstate hunexpired hstorable hid _ =>
        subst hid
        cases hnew
        obtain ⟨_, hoperation⟩ :=
          upsertedJob_operationId hown hop hstored hstate hunexpired hstorable
        have hlease : job.leaseId = leaseId := by
          cases hold : w.db.jobs stored.requestId <;> rw [hold] at htoken <;>
            exact Option.some.inj htoken
        obtain ⟨b, hb, hscope, _, hstart⟩ := hcoherent.pending _ _ _ _ hstored hstate
        rw [hlease] at hb
        exact carry b hb (by rw [hoperation, ← hscope, ← hstart]; rfl)
    | finished _ _ _ _ _ _ _ =>
        cases hnew
        cases htoken
    | released _ hold _ =>
        cases hnew
        rw [JobRow.released_leaseToken] at htoken
        obtain ⟨b, hb, hoperation⟩ := h.token requestId _ leaseId hold htoken
        exact carry b hb (by rw [hoperation, JobRow.released_operationId])
    | recovered _ hold =>
        cases hnew
        rw [JobRow.recovered_leaseToken] at htoken
        obtain ⟨b, hb, hoperation⟩ := h.token requestId _ leaseId hold htoken
        exact carry b hb (by rw [hoperation, JobRow.recovered_operationId])
  · intro requestId row hrow
    have carry : (∃ job, w.db.jobs requestId = some job) →
        ∃ job, (w.next settings e).db.jobs requestId = some job := by
      rintro ⟨job, hjob⟩
      obtain ⟨job', hjob', _⟩ := next_jobs_of_some settings e hjob
      exact ⟨job', hjob'⟩
    have hchange := next_heldChange settings w e requestId
    rw [hrow] at hchange
    generalize hnew : some row = new at hchange
    cases hchange with
    | kept => exact carry (h.held requestId row hnew.symm)
    | replaced _ _ hold _ _ => exact carry (h.held requestId _ hold)
    | expired _ _ _ => cases hnew
    | inserted hop hid _ _ =>
        -- The attempt has started its job, so the request id has one.
        rw [hop] at hprotocol
        obtain ⟨a, ha, _, _, hstarted, hrequest, _⟩ := hprotocol
        obtain ⟨job, hjob, _⟩ := h.started _ a ha hstarted
        exact carry ⟨job, by rw [← hid, hrequest, hjob]⟩

end Waveform.Store
