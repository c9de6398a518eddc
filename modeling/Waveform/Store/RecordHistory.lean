import Waveform.Store.System

/-!
# What a step does to the record of one scope

`RecordChange` lists the ways one step can treat the record of a scope: it keeps it, inserts a new
one where none was or where the old one could be purged, hands it to another lease, completes it,
releases its lease, or purges it. `step_recordChange` says that every step is one of these; every
statement about records is proved by cases on it.

`Coherent` is the invariant that ties a record to the history: a pending record's token was granted
for this very scope, request id and start time, a completed record's response decodes to a response
of this scope and request, and a record only exists in a live plane.
-/

set_option autoImplicit false

namespace Waveform.Store

open Waveform.Domain LabelledRun

/-- How a step with this event can change the record of a scope. -/
inductive RecordChange (settings : IdempotencySettings) (w : World) (e : StoreEvent)
    (scope : IdempotencyScope) : Option RecordRow → Prop where
  | kept : RecordChange settings w e scope (w.db.records scope)
  | inserted {claim : IdempotencyClaim} (hop : e.op = .claim claim) (hscope : claim.scope = scope)
      (hgone : ∀ stored, w.db.records scope = some stored →
        recordIsPurgeable stored e.now.locked = true)
      (hplane : w.db.planes scope.planeId = true)
      (houtcome : w.outcome settings e = .decided (.acquired
        ⟨claim.leaseId, e.now.written + claim.leaseDuration⟩ claim.requestId e.now.written)) :
      RecordChange settings w e scope (some (freshRecord settings e.now claim))
  | reclaimed {claim : IdempotencyClaim} {stored : RecordRow} {token : IdempotencyLeaseId}
      {leaseExpiresAt : Nat} (hop : e.op = .claim claim) (hscope : claim.scope = scope)
      (hstored : w.db.records scope = some stored)
      (hlive : recordIsPurgeable stored e.now.locked = false)
      (hstate : stored.state = .pending token leaseExpiresAt)
      (hexpired : leaseExpiresAt ≤ e.now.locked)
      (hdigest : stored.requestDigest = claim.digest)
      (houtcome : w.outcome settings e = .decided (.acquired
        ⟨claim.leaseId, e.now.written + claim.leaseDuration⟩ stored.requestId stored.createdAt)) :
      RecordChange settings w e scope (some (reclaimedRecord e.now claim stored))
  | completed {completion : IdempotencyCompletion} {stored : RecordRow} {leaseExpiresAt : Nat}
      {response : StoredResponse} (hop : e.op = .complete completion)
      (hscope : completion.scope = scope) (hstored : w.db.records scope = some stored)
      (hstate : stored.state = .pending completion.leaseId leaseExpiresAt)
      (hencode : encodeResponse completion.response = .ok response)
      (hoperation : completion.response.operation = scope.operation)
      (hid : completion.response.requestId = stored.requestId)
      (houtcome : w.outcome settings e = .done) :
      RecordChange settings w e scope (some (completedRecord settings e.now stored response))
  | released {release : IdempotencyRelease} {stored : RecordRow} {leaseExpiresAt : Nat}
      (hop : e.op = .release release) (hscope : release.scope = scope)
      (hstored : w.db.records scope = some stored)
      (hstate : stored.state = .pending release.leaseId leaseExpiresAt)
      (houtcome : w.outcome settings e = .done) :
      RecordChange settings w e scope (some (releasedRecord e.now release.leaseId stored))
  | purged {stored : RecordRow} {selected : List IdempotencyScope}
      (hop : e.op = .deleteExpiredRecords selected) (hstored : w.db.records scope = some stored)
      (hpurgeable : recordIsPurgeable stored e.now.locked = true) :
      RecordChange settings w e scope none

/-- A step that leaves the records table alone keeps every record. -/
theorem RecordChange.of_records_eq {settings : IdempotencySettings} {w : World} {e : StoreEvent}
    {scope : IdempotencyScope} (h : (w.next settings e).db.records = w.db.records) :
    RecordChange settings w e scope ((w.next settings e).db.records scope) := by
  rw [h]
  exact .kept

/-- A step that writes the record of another scope keeps this one. -/
theorem RecordChange.of_ne {settings : IdempotencySettings} {w : World} {e : StoreEvent}
    {scope other : IdempotencyScope} {row : Option RecordRow} (hne : scope ≠ other)
    (h : (w.next settings e).db.records = (w.db.setRecord other row).records) :
    RecordChange settings w e scope ((w.next settings e).db.records scope) := by
  rw [h, Db.setRecord_records_of_ne _ _ _ hne]
  exact .kept

/-- **Every step changes the record of a scope in one of the listed ways.** -/
theorem next_recordChange (settings : IdempotencySettings) (w : World) (e : StoreEvent)
    (scope : IdempotencyScope) :
    RecordChange settings w e scope ((w.next settings e).db.records scope) := by
  cases hop : e.op with
  | claim claim =>
      rcases execute_claim settings e.now w.db claim with
        ⟨error, hexec⟩ | ⟨decision, db', hexec, hplane, hresult⟩
      · exact .of_records_eq (by simp [World.next, hop, hexec])
      · have hdb : (w.next settings e).db = db' := by simp [World.next, hop, hexec]
        have hout : w.outcome settings e = .decided decision := by
          simp [World.outcome, hop, hexec]
        -- A claim writes the record of its own scope, and only when it inserts or reclaims it.
        by_cases hscope : claim.scope = scope
        · subst hscope
          cases hresult with
          | inserted hgone =>
              rw [hdb, Db.setRecord_records_self]
              exact .inserted hop rfl hgone hplane hout
          | keyReused _ _ _ => exact .of_records_eq (by rw [hdb])
          | replayed _ _ _ _ _ _ _ => exact .of_records_eq (by rw [hdb])
          | reclaimed hstored hlive hdigest hstate hexpired =>
              rw [hdb, Db.setRecord_records_self]
              exact .reclaimed hop rfl hstored hlive hstate hexpired hdigest hout
          | inProgress _ _ _ _ _ => exact .of_records_eq (by rw [hdb])
        · cases hresult with
          | inserted _ => exact .of_ne (Ne.symm hscope) (by rw [hdb])
          | keyReused _ _ _ => exact .of_records_eq (by rw [hdb])
          | replayed _ _ _ _ _ _ _ => exact .of_records_eq (by rw [hdb])
          | reclaimed _ _ _ _ _ => exact .of_ne (Ne.symm hscope) (by rw [hdb])
          | inProgress _ _ _ _ _ => exact .of_records_eq (by rw [hdb])
  | startJob job =>
      rcases execute_startJob settings e.now w.db job with
        ⟨error, hexec⟩ | ⟨db', hexec, hok⟩
      · exact .of_records_eq (by simp [World.next, hop, hexec])
      · obtain ⟨_, _, _, _, _, _, _, _, rfl⟩ := startJobInner_ok.mp hok
        exact .of_records_eq (by simp [World.next, hop, hexec])
  | complete completion =>
      rcases execute_complete settings e.now w.db completion with
        ⟨error, hexec⟩ | ⟨db', hexec, hok⟩
      · exact .of_records_eq (by simp [World.next, hop, hexec])
      · have hout : w.outcome settings e = .done := by simp [World.outcome, hop, hexec]
        obtain ⟨response, stored, leaseExpiresAt, row, hoperation, hencode, _, _, hstored, hstate,
          hid, _, _, rfl⟩ := completeInner_ok.mp hok
        by_cases hscope : completion.scope = scope
        · subst hscope
          have hnew : (w.next settings e).db.records completion.scope =
              some (completedRecord settings e.now stored response) := by
            simp [World.next, hop, hexec]
          rw [hnew]
          exact .completed hop rfl hstored hstate hencode hoperation hid hout
        · exact .of_ne (Ne.symm hscope) (by simp [World.next, hop, hexec]; rfl)
  | release release =>
      rcases execute_release settings e.now w.db release with
        ⟨error, hexec⟩ | ⟨db', hexec, hok⟩
      · exact .of_records_eq (by simp [World.next, hop, hexec])
      · have hout : w.outcome settings e = .done := by simp [World.outcome, hop, hexec]
        obtain ⟨stored, leaseExpiresAt, hstored, hstate, rfl⟩ := releaseInner_ok.mp hok
        by_cases hscope : release.scope = scope
        · subst hscope
          have hnew : (w.next settings e).db.records release.scope =
              some (releasedRecord e.now release.leaseId stored) := by
            simp [World.next, hop, hexec]
          rw [hnew]
          exact .released hop rfl hstored hstate hout
        · exact .of_ne (Ne.symm hscope) (by simp [World.next, hop, hexec]; rfl)
  | hold attempt audio =>
      rcases execute_hold settings e.now w.db attempt audio with
        hexec | ⟨expiresAt, db', hexec, hok⟩
      · exact .of_records_eq (by simp [World.next, hop, hexec])
      · obtain ⟨_, _, rfl⟩ := hold_eq_some.mp hok
        exact .of_records_eq (by simp [World.next, hop, hexec])
  | recoverExpiredJobs =>
      exact .of_records_eq (by simp [World.next, hop, execute, Store.recoverExpiredJobs])
  | deleteExpiredRecords selected =>
      have hnew : (w.next settings e).db.records scope =
          (w.db.records scope).filter fun row =>
            !(selected.contains scope && recordIsPurgeable row e.now.locked) := by
        simp [World.next, hop, execute, Store.deleteExpiredRecords]
      cases hstored : w.db.records scope with
      | none =>
          have hkept : (w.next settings e).db.records scope = w.db.records scope := by
            rw [hnew, hstored]
            rfl
          rw [hkept]
          exact .kept
      | some stored =>
          -- A selected record is deleted only if it is still past its time.
          by_cases hpick : (selected.contains scope && recordIsPurgeable stored e.now.locked) = true
          · have hgone : (w.next settings e).db.records scope = none := by
              rw [hnew, hstored, Option.filter_some, hpick]
              rfl
            rw [hgone]
            exact .purged hop hstored (by simp at hpick; exact hpick.2)
          · have hkept : (w.next settings e).db.records scope = w.db.records scope := by
              rw [hnew, hstored, Option.filter_some, Bool.eq_false_iff.mpr hpick]
              rfl
            rw [hkept]
            exact .kept
  | deleteExpiredAudio selected =>
      exact .of_records_eq (by simp [World.next, hop, execute, Store.deleteExpiredAudio])

/-! ## The history of attempts -/

/-- Two history entries describe the same grant; what was done under it may differ. -/
def Attempt.SameGrant (a b : Attempt) : Prop :=
  b.scope = a.scope ∧ b.requestId = a.requestId ∧ b.operationStartedAt = a.operationStartedAt

theorem Attempt.SameGrant.refl (a : Attempt) : a.SameGrant a := ⟨rfl, rfl, rfl⟩

/-- How a step with this event can change the history entry of a lease. -/
inductive AttemptChange (settings : IdempotencySettings) (w : World) (e : StoreEvent)
    (leaseId : IdempotencyLeaseId) : Option Attempt → Prop where
  | kept : AttemptChange settings w e leaseId (w.attempts leaseId)
  | granted {claim : IdempotencyClaim} {lease : IdempotencyLease} {requestId : RequestId}
      {startedAt : Nat} (hop : e.op = .claim claim) (hlease : claim.leaseId = leaseId)
      (houtcome : w.outcome settings e = .decided (.acquired lease requestId startedAt)) :
      AttemptChange settings w e leaseId
        (some ⟨claim.scope, requestId, startedAt, false, none, false⟩)
  | started {a : Attempt} {job : SpeechJobStart} (ha : w.attempts leaseId = some a)
      (hop : e.op = .startJob job) (hlease : job.leaseId = leaseId)
      (houtcome : w.outcome settings e = .done) :
      AttemptChange settings w e leaseId (some { a with started := true })
  | held {a : Attempt} {audio : HeldAudio} {expiresAt : Nat} (ha : w.attempts leaseId = some a)
      (hop : e.op = .hold leaseId audio) (houtcome : w.outcome settings e = .held expiresAt) :
      AttemptChange settings w e leaseId
        (some { a with held := some ⟨audio, e.now.begun, expiresAt⟩ })
  | completed {a : Attempt} {completion : IdempotencyCompletion}
      (ha : w.attempts leaseId = some a) (hop : e.op = .complete completion)
      (hlease : completion.leaseId = leaseId) (houtcome : w.outcome settings e = .done) :
      AttemptChange settings w e leaseId (some { a with completed := true })

/-- **Every step changes the history entry of a lease in one of the listed ways.** -/
theorem next_attemptChange (settings : IdempotencySettings) (w : World) (e : StoreEvent)
    (leaseId : IdempotencyLeaseId) :
    AttemptChange settings w e leaseId ((w.next settings e).attempts leaseId) := by
  have hkept : (w.next settings e).attempts leaseId = w.attempts leaseId →
      AttemptChange settings w e leaseId ((w.next settings e).attempts leaseId) := by
    intro heq
    rw [heq]
    exact .kept
  cases hop : e.op with
  | claim claim =>
      rcases execute_claim settings e.now w.db claim with
        ⟨error, hexec⟩ | ⟨decision, db', hexec, _, hresult⟩
      · exact hkept (by simp [World.next, recordAttempt, World.outcome, hop, hexec])
      · have hout : w.outcome settings e = .decided decision := by
          simp [World.outcome, hop, hexec]
        -- A claim opens an entry only when it grants its lease.
        cases hresult with
        | inserted _ =>
            by_cases hlease : leaseId = claim.leaseId
            · subst hlease
              simp only [World.next, recordAttempt, hop, hout, Function.update_self]
              exact .granted hop rfl hout
            · exact hkept (by simp [World.next, recordAttempt, hop, hout, hlease])
        | reclaimed _ _ _ _ _ =>
            by_cases hlease : leaseId = claim.leaseId
            · subst hlease
              simp only [World.next, recordAttempt, hop, hout, Function.update_self]
              exact .granted hop rfl hout
            · exact hkept (by simp [World.next, recordAttempt, hop, hout, hlease])
        | keyReused _ _ _ => exact hkept (by simp [World.next, recordAttempt, hop, hout])
        | replayed _ _ _ _ _ _ _ => exact hkept (by simp [World.next, recordAttempt, hop, hout])
        | inProgress _ _ _ _ _ => exact hkept (by simp [World.next, recordAttempt, hop, hout])
  | hold attempt audio =>
      rcases execute_hold settings e.now w.db attempt audio with hexec | ⟨expiresAt, db', hexec, _⟩
      · exact hkept (by simp [World.next, recordAttempt, World.outcome, hop, hexec])
      · have hout : w.outcome settings e = .held expiresAt := by simp [World.outcome, hop, hexec]
        by_cases hlease : leaseId = attempt
        · subst hlease
          cases ha : w.attempts leaseId with
          | none => exact hkept (by simp [World.next, recordAttempt, hop, hout, ha])
          | some a =>
              simp only [World.next, recordAttempt, hop, hout, Function.update_self, ha,
                Option.map_some]
              exact .held ha hop hout
        · exact hkept (by simp [World.next, recordAttempt, hop, hout, hlease])
  | complete completion =>
      rcases execute_complete settings e.now w.db completion with
        ⟨error, hexec⟩ | ⟨db', hexec, _⟩
      · exact hkept (by simp [World.next, recordAttempt, World.outcome, hop, hexec])
      · have hout : w.outcome settings e = .done := by simp [World.outcome, hop, hexec]
        by_cases hlease : leaseId = completion.leaseId
        · subst hlease
          cases ha : w.attempts completion.leaseId with
          | none => exact hkept (by simp [World.next, recordAttempt, hop, hout, ha])
          | some a =>
              simp only [World.next, recordAttempt, hop, hout, Function.update_self, ha,
                Option.map_some]
              exact .completed ha hop rfl hout
        · exact hkept (by simp [World.next, recordAttempt, hop, hout, hlease])
  | startJob job =>
      rcases execute_startJob settings e.now w.db job with ⟨error, hexec⟩ | ⟨db', hexec, _⟩
      · exact hkept (by simp [World.next, recordAttempt, World.outcome, hop, hexec])
      · have hout : w.outcome settings e = .done := by simp [World.outcome, hop, hexec]
        by_cases hlease : leaseId = job.leaseId
        · subst hlease
          cases ha : w.attempts job.leaseId with
          | none => exact hkept (by simp [World.next, recordAttempt, hop, hout, ha])
          | some a =>
              simp only [World.next, recordAttempt, hop, hout, Function.update_self, ha,
                Option.map_some]
              exact .started ha hop rfl hout
        · exact hkept (by simp [World.next, recordAttempt, hop, hout, hlease])
  | release release => exact hkept (by simp [World.next, recordAttempt, hop])
  | recoverExpiredJobs => exact hkept (by simp [World.next, recordAttempt, hop])
  | deleteExpiredRecords selected => exact hkept (by simp [World.next, recordAttempt, hop])
  | deleteExpiredAudio selected => exact hkept (by simp [World.next, recordAttempt, hop])

/-- A granted lease keeps its grant, whatever step follows. -/
theorem next_attempts_of_some {settings : IdempotencySettings} {w : World} {e : StoreEvent}
    (hfresh : e.op.freshLease settings w) {leaseId : IdempotencyLeaseId} {a : Attempt}
    (ha : w.attempts leaseId = some a) :
    ∃ b, (w.next settings e).attempts leaseId = some b ∧ a.SameGrant b := by
  have hchange := next_attemptChange settings w e leaseId
  generalize (w.next settings e).attempts leaseId = new at hchange
  cases hchange with
  | kept => exact ⟨a, ha, .refl a⟩
  | granted hop hlease _ =>
      -- The claim's lease id would have to be fresh.
      rw [hop] at hfresh
      have hnone := hfresh.1
      rw [hlease, ha] at hnone
      cases hnone
  | started hb _ _ _ =>
      rw [ha] at hb
      cases hb
      exact ⟨_, rfl, rfl, rfl, rfl⟩
  | held hb _ _ =>
      rw [ha] at hb
      cases hb
      exact ⟨_, rfl, rfl, rfl, rfl⟩
  | completed hb _ _ _ =>
      rw [ha] at hb
      cases hb
      exact ⟨_, rfl, rfl, rfl, rfl⟩

/-- A claim that is granted a lease enters it in the history. -/
theorem next_attempts_of_acquired {settings : IdempotencySettings} {w : World} {e : StoreEvent}
    {claim : IdempotencyClaim} {lease : IdempotencyLease} {requestId : RequestId}
    {startedAt : Nat} (hop : e.op = .claim claim)
    (hout : w.outcome settings e = .decided (.acquired lease requestId startedAt)) :
    (w.next settings e).attempts lease.id =
      some ⟨claim.scope, requestId, startedAt, false, none, false⟩ := by
  simp [World.next, recordAttempt, hop, hout]

/-! ## The invariant -/

/-- What ties the records to the history of the run. -/
structure Coherent (w : World) : Prop where
  /-- The token of a pending record was granted for this record. -/
  pending : ∀ scope row token leaseExpiresAt, w.db.records scope = some row →
    row.state = .pending token leaseExpiresAt →
      ∃ a, w.attempts token = some a ∧ a.scope = scope ∧ a.requestId = row.requestId ∧
        a.operationStartedAt = row.createdAt
  /-- A completed record holds the encoding of a response of its own operation and request. -/
  completed : ∀ scope row body, w.db.records scope = some row → row.state = .completed body →
    ∃ response, encodeResponse response = .ok body ∧ response.operation = scope.operation ∧
      response.requestId = row.requestId
  /-- Records exist in live planes only. -/
  plane : ∀ scope row, w.db.records scope = some row → w.db.planes scope.planeId = true

/-- No step changes which planes are live. -/
theorem next_planes (settings : IdempotencySettings) (w : World) (e : StoreEvent) :
    (w.next settings e).db.planes = w.db.planes := by
  unfold World.next
  cases hop : e.op with
  | claim claim =>
      rcases execute_claim settings e.now w.db claim with
        ⟨error, hexec⟩ | ⟨decision, db', hexec, _, hresult⟩
      · simp [hexec]
      · cases hresult <;> simp [hexec]
  | startJob job =>
      rcases execute_startJob settings e.now w.db job with
        ⟨error, hexec⟩ | ⟨db', hexec, hok⟩
      · simp [hexec]
      · obtain ⟨_, _, _, _, _, _, _, _, rfl⟩ := startJobInner_ok.mp hok
        simp [hexec]
  | complete completion =>
      rcases execute_complete settings e.now w.db completion with
        ⟨error, hexec⟩ | ⟨db', hexec, hok⟩
      · simp [hexec]
      · obtain ⟨_, _, _, _, _, _, _, _, _, _, _, _, _, rfl⟩ := completeInner_ok.mp hok
        simp [hexec]
  | release release =>
      rcases execute_release settings e.now w.db release with
        ⟨error, hexec⟩ | ⟨db', hexec, hok⟩
      · simp [hexec]
      · obtain ⟨_, _, _, _, rfl⟩ := releaseInner_ok.mp hok
        simp [hexec]
  | hold attempt audio =>
      rcases execute_hold settings e.now w.db attempt audio with
        hexec | ⟨expiresAt, db', hexec, hok⟩
      · simp [hexec]
      · obtain ⟨_, _, rfl⟩ := hold_eq_some.mp hok
        simp [hexec]
  | recoverExpiredJobs => rfl
  | deleteExpiredRecords selected => rfl
  | deleteExpiredAudio selected => rfl

theorem Coherent.initial {w : World} (h : w.Initial) : Coherent w where
  pending scope row token leaseExpiresAt hrow := by rw [h.1 scope] at hrow; cases hrow
  completed scope row body hrow := by rw [h.1 scope] at hrow; cases hrow
  plane scope row hrow := by rw [h.1 scope] at hrow; cases hrow

/-- **Every step keeps the invariant.** -/
theorem Coherent.step {settings : IdempotencySettings} {w w' : World} {e : StoreEvent}
    (h : Coherent w) (hstep : Step settings w e w') : Coherent w' := by
  obtain ⟨_, _, hfresh, rfl⟩ := hstep
  -- A token that was granted before the step is still granted for the same record.
  have carry : ∀ {token : IdempotencyLeaseId} {scope : IdempotencyScope} {requestId : RequestId}
      {createdAt : Nat}, (∃ a, w.attempts token = some a ∧ a.scope = scope ∧
        a.requestId = requestId ∧ a.operationStartedAt = createdAt) →
      ∃ a, (w.next settings e).attempts token = some a ∧ a.scope = scope ∧
        a.requestId = requestId ∧ a.operationStartedAt = createdAt := by
    rintro token scope requestId createdAt ⟨a, ha, rfl, rfl, rfl⟩
    obtain ⟨b, hb, hscope, hid, hstart⟩ := next_attempts_of_some hfresh ha
    exact ⟨b, hb, hscope, hid, hstart⟩
  refine ⟨?_, ?_, ?_⟩
  · intro scope row token leaseExpiresAt hrow hstate
    have hchange := next_recordChange settings w e scope
    rw [hrow] at hchange
    generalize hnew : some row = new at hchange
    cases hchange with
    | kept => exact carry (h.pending scope row token leaseExpiresAt hnew.symm hstate)
    | inserted hop hscope _ _ hout =>
        cases hnew
        cases hstate
        exact ⟨_, next_attempts_of_acquired hop hout, hscope, rfl, rfl⟩
    | reclaimed hop hscope _ _ _ _ _ hout =>
        cases hnew
        cases hstate
        exact ⟨_, next_attempts_of_acquired hop hout, hscope, rfl, rfl⟩
    | completed _ _ _ _ _ _ _ _ =>
        cases hnew
        cases hstate
    | released _ _ hstored hpending _ =>
        cases hnew
        cases hstate
        have hgrant := h.pending scope _ _ _ hstored hpending
        exact carry hgrant
    | purged _ _ _ => cases hnew
  · intro scope row body hrow hstate
    have hchange := next_recordChange settings w e scope
    rw [hrow] at hchange
    generalize hnew : some row = new at hchange
    cases hchange with
    | kept => exact h.completed scope row body hnew.symm hstate
    | inserted _ _ _ _ _ =>
        cases hnew
        cases hstate
    | reclaimed _ _ _ _ _ _ _ _ =>
        cases hnew
        cases hstate
    | completed _ _ _ _ hencode hoperation hid _ =>
        cases hnew
        cases hstate
        exact ⟨_, hencode, hoperation, hid⟩
    | released _ _ _ _ _ =>
        cases hnew
        cases hstate
    | purged _ _ _ => cases hnew
  · intro scope row hrow
    rw [next_planes]
    have hchange := next_recordChange settings w e scope
    rw [hrow] at hchange
    generalize hnew : some row = new at hchange
    cases hchange with
    | kept => exact h.plane scope row hnew.symm
    | inserted _ _ _ hplane _ => exact hplane
    | reclaimed _ _ hstored _ _ _ _ _ => exact h.plane scope _ hstored
    | completed _ _ hstored _ _ _ _ _ => exact h.plane scope _ hstored
    | released _ _ hstored _ _ => exact h.plane scope _ hstored
    | purged _ _ _ => cases hnew

/-- The invariant holds in every reachable world. -/
theorem ReachableWorld.coherent {settings : IdempotencySettings} {w : World}
    (h : ReachableWorld settings w) : Coherent w := by
  obtain ⟨w₀, tr, hinit, hrun⟩ := h
  exact hrun.invariant Coherent (fun _ _ _ => Coherent.step) (Coherent.initial hinit)

end Waveform.Store
