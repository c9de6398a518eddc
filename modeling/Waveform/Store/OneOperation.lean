import Waveform.Store.JobHistory

/-!
# The part of the store that belongs to one operation

`Db.only` keeps of a database the rows of one operation: its record, its jobs, and the audio held
under the request ids of its jobs. An operation's own steps cannot tell the part from the whole:
`execute_only` says that such a step answers the same in both, and leaves in the part what it leaves
in the whole of this operation.
-/

set_option autoImplicit false

namespace Waveform.Store

open Waveform.Domain LabelledRun

namespace Db

/-- The rows of one operation. -/
def only (db : Db) (o : OperationId) : Db where
  planes := db.planes
  records scope := if scope = o.scope then
      (db.records scope).filter fun row => row.createdAt = o.startedAt
    else none
  jobs requestId := (db.jobs requestId).filter fun row => row.operationId = o
  held requestId := if (db.jobs requestId).any fun row => row.operationId = o then
      db.held requestId
    else none

variable {db : Db} {o : OperationId}

@[simp] theorem only_planes : (db.only o).planes = db.planes := rfl

theorem only_records_of_own {stored : RecordRow} (hstored : db.records o.scope = some stored)
    (hcreated : stored.createdAt = o.startedAt) :
    (db.only o).records o.scope = some stored := by
  simp [only, hstored, Option.filter_some, hcreated]

/-- Every record of the part is a record of the whole. -/
theorem only_records_some {scope : IdempotencyScope} {stored : RecordRow}
    (h : (db.only o).records scope = some stored) : db.records scope = some stored := by
  simp only [only] at h
  split at h
  · exact (Option.filter_eq_some_iff.mp h).1
  · cases h

theorem only_jobs_of_own {requestId : RequestId} {row : JobRow}
    (hrow : db.jobs requestId = some row) (hown : row.operationId = o) :
    (db.only o).jobs requestId = some row := by
  simp [only, hrow, Option.filter_some, hown]

theorem only_jobs_of_other {requestId : RequestId}
    (h : ∀ row, db.jobs requestId = some row → row.operationId ≠ o) :
    (db.only o).jobs requestId = none := by
  cases hrow : db.jobs requestId with
  | none => simp [only, hrow]
  | some row => simp [only, hrow, Option.filter_some, h row hrow]

theorem only_held_of_own {requestId : RequestId} {row : JobRow}
    (hrow : db.jobs requestId = some row) (hown : row.operationId = o) :
    (db.only o).held requestId = db.held requestId := by
  simp [only, hrow, hown]

/-- A record of the operation's own is written in the part as in the whole. -/
theorem only_setRecord {row : RecordRow} (hcreated : row.createdAt = o.startedAt) :
    (db.setRecord o.scope (some row)).only o = (db.only o).setRecord o.scope (some row) := by
  ext1
  · rfl
  · funext scope
    by_cases hscope : scope = o.scope
    · subst hscope
      simp [only, Option.filter_some, hcreated]
    · simp [only, setRecord_records, hscope]
  · rfl
  · rfl

/-- A job that is inserted for the operation is inserted in the part, when no audio is held under
its request id. -/
theorem only_setJob_insert {requestId : RequestId} {row : JobRow} (hown : row.operationId = o)
    (hheld : db.held requestId = none) :
    (db.setJob requestId (some row)).only o = (db.only o).setJob requestId (some row) := by
  ext1
  · rfl
  · rfl
  · funext other
    by_cases hid : other = requestId
    · subst hid
      simp [only, Option.filter_some, hown]
    · simp [only, setJob_jobs, hid]
  · funext other
    by_cases hid : other = requestId
    · subst hid
      simp [only, hheld]
    · simp [only, setJob_jobs, hid]

/-- Rewriting a job without changing its operation does the same in the part. -/
theorem only_setJob_map (db : Db) (o : OperationId) (requestId : RequestId)
    (change : JobRow → JobRow)
    (hchange : ∀ row, (change row).operationId = row.operationId) :
    (db.setJob requestId ((db.jobs requestId).map change)).only o =
      (db.only o).setJob requestId (((db.only o).jobs requestId).map change) := by
  ext1
  · rfl
  · rfl
  · funext other
    by_cases hid : other = requestId
    · subst hid
      cases hrow : db.jobs other with
      | none => simp [only, hrow]
      | some row =>
          by_cases hown : row.operationId = o <;>
            simp [only, hrow, Option.filter_some, hchange, hown]
    · simp [only, setJob_jobs, hid]
  · funext other
    by_cases hid : other = requestId
    · subst hid
      cases hrow : db.jobs other with
      | none => simp [only, hrow]
      | some row => simp [only, hrow, hchange]
    · simp [only, setJob_jobs, hid]

/-- Audio that is held under the request id of a job of the operation is held in the part. -/
theorem only_setHeld {requestId : RequestId} {job : JobRow} (row : Option HeldRow)
    (hjob : db.jobs requestId = some job) (hown : job.operationId = o) :
    (db.setHeld requestId row).only o = (db.only o).setHeld requestId row := by
  ext1
  · rfl
  · rfl
  · rfl
  · funext other
    by_cases hid : other = requestId
    · subst hid
      simp [only, hjob, hown]
    · simp [only, setHeld_held, hid]

end Db

/-! ## The operation's own steps -/

/-- The result of a transaction, seen in the part of the store. -/
def onlyResult (o : OperationId) (result : Outcome × Db) : Outcome × Db :=
  (result.1, result.2.only o)

section OwnSteps

variable {settings : IdempotencySettings} {now : Readings} {db : Db} {o : OperationId}

/-- A lease that is held in the part is held in the whole. -/
theorem HoldsLease.of_only {scope : IdempotencyScope} {leaseId : IdempotencyLeaseId}
    (h : HoldsLease (db.only o) scope leaseId) : HoldsLease db scope leaseId := by
  obtain ⟨stored, hstored, htoken⟩ := h
  exact ⟨stored, Db.only_records_some hstored, htoken⟩

/-- The record that this lease holds, if any, is the operation's own. -/
def LeaseOfOwn (db : Db) (o : OperationId) (leaseId : IdempotencyLeaseId) : Prop :=
  ∀ stored, db.records o.scope = some stored → stored.state.leaseToken = some leaseId →
    stored.createdAt = o.startedAt

/-- A claim that finds no record, or one that can be purged, inserts its own. -/
theorem claimInner_of_gone {claim : IdempotencyClaim}
    (hlease : claim.leaseDuration = settings.lease)
    (hplane : db.planes claim.scope.planeId = true)
    (hgone : ∀ stored, db.records claim.scope = some stored →
      recordIsPurgeable stored now.locked = true) :
    claimInner settings now claim db =
      .ok (.acquired ⟨claim.leaseId, now.written + claim.leaseDuration⟩ claim.requestId
          now.written,
        db.setRecord claim.scope (some (freshRecord settings now claim))) := by
  have hplane' : lockPlane db claim.scope.planeId = .ok () := lockPlane_ok.mpr hplane
  unfold claimInner
  simp only [bind, Except.bind, hlease, IdempotencySettings.postgresInterval_lease,
    IdempotencySettings.postgresInterval_ttl, hplane']
  rw [← hlease]
  cases hrecord : db.records claim.scope with
  | none => exact claimByInsert_of_none hrecord
  | some stored =>
      have hempty : (deleteLockedClaim db claim.scope).records claim.scope = none := by
        simp [deleteLockedClaim]
      simp only [hgone stored hrecord, if_true]
      rw [claimByInsert_of_none hempty]
      simp [deleteLockedClaim, Db.setRecord]

/-- The start time of the operation that a claim works on. -/
def claimedStart (db : Db) (now : Readings) (claim : IdempotencyClaim) : Nat :=
  match db.records claim.scope with
  | none => now.written
  | some stored => if recordIsPurgeable stored now.locked then now.written else stored.createdAt

theorem execute_only_claim {claim : IdempotencyClaim} (hscope : claim.scope = o.scope)
    (hstart : claimedStart db now claim = o.startedAt)
    (hlease : claim.leaseDuration = settings.lease) :
    execute settings now (db.only o) (.claim claim) =
      onlyResult o (execute settings now db (.claim claim)) := by
  by_cases hplane : db.planes claim.scope.planeId = true
  swap
  · -- In a plane that is not live both claims fail.
    have hfail : ∀ db' : Db, db'.planes = db.planes →
        execute settings now db' (.claim claim) = (.failed .leaseLost, db') := by
      intro db' hplanes
      simp [execute, claimInner, hlease, lockPlane, hplanes, hplane, bind, Except.bind,
        Except.map, commit]
    rw [hfail db rfl, hfail (db.only o) rfl]
    rfl
  · by_cases hgone : ∀ stored, db.records claim.scope = some stored →
        recordIsPurgeable stored now.locked = true
    · have hstart' : now.written = o.startedAt := by
        unfold claimedStart at hstart
        cases hrecord : db.records claim.scope with
        | none => simpa [hrecord] using hstart
        | some stored => simpa [hrecord, hgone stored hrecord] using hstart
      have hgone' : ∀ stored, (db.only o).records claim.scope = some stored →
          recordIsPurgeable stored now.locked = true :=
        fun stored hstored => hgone stored (Db.only_records_some hstored)
      have hcreated : (freshRecord settings now claim).createdAt = o.startedAt := hstart'
      have hplane' : (db.only o).planes claim.scope.planeId = true := hplane
      simp only [execute, claimInner_of_gone hlease hplane hgone,
        claimInner_of_gone hlease hplane' hgone', Except.map, commit, onlyResult]
      rw [hscope, Db.only_setRecord hcreated]
    · -- The record stays, so it is the operation's own and decides both claims.
      simp only [not_forall, Bool.not_eq_true] at hgone
      obtain ⟨stored, hstored, hlive⟩ := hgone
      have hcreated : stored.createdAt = o.startedAt := by
        simpa [claimedStart, hstored, hlive] using hstart
      have hstored' : (db.only o).records claim.scope = some stored := by
        rw [hscope] at hstored ⊢
        exact Db.only_records_of_own hstored hcreated
      have hplane' : (db.only o).planes claim.scope.planeId = true := hplane
      simp only [execute, claimInner_of_stored hlease hplane hstored hlive,
        claimInner_of_stored hlease hplane' hstored' hlive]
      unfold decideStored
      by_cases hdigest : stored.requestDigest = claim.digest
      · cases hstate : stored.state with
        | completed responseBody =>
            cases hdecode : decodeResponse responseBody with
            | error error =>
                simp [hdigest, hdecode, bind, Except.bind, Except.map, commit, onlyResult]
            | ok response =>
                by_cases hcheck : response.operation ≠ claim.scope.operation ∨
                    response.requestId ≠ stored.requestId
                · simp only [hdigest, hdecode, hcheck, bind, Except.bind, Except.map, commit,
                    onlyResult, ne_eq, not_true, if_false, if_true]
                · simp only [hdigest, hdecode, hcheck, bind, Except.bind, Except.map, commit,
                    onlyResult, ne_eq, not_true, if_false]
        | pending token leaseExpiresAt =>
            by_cases hexpired : leaseExpiresAt ≤ now.locked
            · have hwritten : leaseExpiresAt ≤ now.written :=
                Nat.le_trans hexpired now.locked_le_written
              simp only [if_neg (not_not_intro hdigest), hexpired, hwritten, reclaimClaim, hstate,
                bind, Except.bind, Except.map, commit, onlyResult, if_true]
              have hown : (reclaimedRecord now claim stored).createdAt = o.startedAt := hcreated
              rw [hscope]
              exact congrArg (Prod.mk _) (Db.only_setRecord hown).symm
            · simp [hdigest, hexpired, Except.map, commit, onlyResult]
      · simp [hdigest, Except.map, commit, onlyResult]

theorem execute_only_startJob {job : SpeechJobStart} (hscope : job.scope = o.scope)
    (hlease : LeaseOfOwn db o job.leaseId)
    (hrows : ∀ stored leaseExpiresAt, db.records job.scope = some stored →
      stored.state = .pending job.leaseId leaseExpiresAt → now.locked < leaseExpiresAt →
      (startedJob stored job).storable = true →
      ∀ row, db.jobs stored.requestId = some row → row.operationId = o)
    (hheld : ∀ requestId row, db.held requestId = some row → ∃ job, db.jobs requestId = some job) :
    execute settings now (db.only o) (.startJob job) =
      onlyResult o (execute settings now db (.startJob job)) := by
  by_cases hholds : HoldsLease db job.scope job.leaseId
  swap
  · have hholds' : ¬ HoldsLease (db.only o) job.scope job.leaseId :=
      fun h => hholds h.of_only
    simp [execute, startJobInner_of_not_holdsLease now hholds,
      startJobInner_of_not_holdsLease now hholds', Except.map, commit, onlyResult]
  obtain ⟨stored, hstored, htoken⟩ := hholds
  have hcreated : stored.createdAt = o.startedAt :=
    hlease stored (by rw [← hscope, hstored]) htoken
  have hstored' : (db.only o).records job.scope = some stored := by
    rw [hscope] at hstored ⊢
    exact Db.only_records_of_own hstored hcreated
  have hown : (startedJob stored job).operationId = o := by
    rw [startedJob_operationId, hscope, hcreated]
  cases hstate : stored.state with
  | completed body =>
      rw [hstate] at htoken
      cases htoken
  | pending token leaseExpiresAt =>
      rw [hstate] at htoken
      cases htoken
      have hcheck : ensureCurrentLease stored job.leaseId none = .ok () :=
        ensureCurrentLease_ok.mpr ⟨⟨leaseExpiresAt, hstate⟩, fun _ h => by cases h⟩
      have hlock : lockPlane (db.only o) job.scope.planeId = lockPlane db job.scope.planeId := rfl
      simp only [execute, startJobInner, hlock, loadClaimOrLost_ok.mpr hstored,
        loadClaimOrLost_ok.mpr hstored']
      -- From here on both sides meet the same checks in the same order.
      cases hplane : lockPlane db job.scope.planeId with
      | error error => rfl
      | ok u =>
          by_cases hexpired : leaseExpiresAt ≤ now.locked
          · simp [hcheck, hstate, RecordState.leaseExpiresAt, hexpired, bind, Except.bind,
              Except.map, commit, onlyResult]
          by_cases hstorable : (startedJob stored job).storable = true
          swap
          · simp [hcheck, hstate, RecordState.leaseExpiresAt, hexpired, hstorable, bind,
              Except.bind, Except.map, commit, onlyResult]
          have hrow := hrows stored leaseExpiresAt hstored hstate (by omega) hstorable
          simp only [hcheck, hstate, RecordState.leaseExpiresAt, Option.all_some, hexpired,
            decide_false, Bool.false_eq_true, if_false, hstorable, Bool.not_true, bind,
            Except.bind]
          cases hjob : db.jobs stored.requestId with
          | none =>
              have hjob' : (db.only o).jobs stored.requestId = none :=
                Db.only_jobs_of_other fun row h => by rw [hjob] at h; cases h
              -- Without a job there is no held row.
              have hnone : db.held stored.requestId = none := by
                cases hkept : db.held stored.requestId with
                | none => rfl
                | some row =>
                    obtain ⟨other, hother⟩ := hheld _ _ hkept
                    rw [hjob] at hother
                    cases hother
              simp only [upsertJob, hjob, hjob', Except.map, commit, onlyResult, ne_eq, not_true,
                if_false]
              rw [Db.only_setJob_insert hown hnone]
          | some row =>
              have hjob' : (db.only o).jobs stored.requestId = some row :=
                Db.only_jobs_of_own hjob (hrow row hjob)
              by_cases haccept : row.acceptsRestart (startedJob stored job) = true
              · have hset := Db.only_setJob_map db o stored.requestId
                  (fun row => row.restarted (startedJob stored job)) fun _ => rfl
                rw [hjob, hjob'] at hset
                simp only [upsertJob, hjob, hjob', haccept, Except.map, commit, onlyResult, ne_eq,
                  not_true, if_false, if_true]
                simpa using hset.symm
              · simp [upsertJob, hjob, hjob', haccept, Except.map, commit, onlyResult]

/-- What `complete_inner` answers before it looks into the store does not depend on the store. -/
theorem completeInner_of_not_encodable (settings : IdempotencySettings) (now : Readings)
    {completion : IdempotencyCompletion}
    (h : ¬ IdempotencyCompletionEncodable completion) :
    ∃ error, ∀ db, completeInner settings now completion db = .error error := by
  by_cases hop : completion.response.operation = completion.scope.operation
  · cases hencode : encodeResponse completion.response with
    | ok response => exact absurd ⟨hop, response, hencode⟩ h
    | error error =>
        refine ⟨error, fun db => ?_⟩
        simp [completeInner, hop, hencode, bind, Except.bind]
  · exact ⟨.invalidRecord, fun db => by simp [completeInner, hop]⟩

/-- A completion whose job is missing, or held by another lease, fails. -/
theorem finishCompletedJob_of_not_held (db : Db) {completion : IdempotencyCompletion}
    (finishedAt : Nat)
    (h : ∀ row, db.jobs completion.response.requestId = some row →
      row.leaseToken ≠ some completion.leaseId) :
    finishCompletedJob db completion finishedAt = .error .invalidRecord := by
  unfold finishCompletedJob
  split
  · rfl
  · cases hjob : db.jobs completion.response.requestId with
    | none => rfl
    | some row => simp [h row hjob]

theorem execute_only_complete {completion : IdempotencyCompletion}
    (hscope : completion.scope = o.scope) (hlease : LeaseOfOwn db o completion.leaseId)
    (hrows : ∀ requestId row, db.jobs requestId = some row →
      row.leaseToken = some completion.leaseId → row.operationId = o) :
    execute settings now (db.only o) (.complete completion) =
      onlyResult o (execute settings now db (.complete completion)) := by
  by_cases hencodable : IdempotencyCompletionEncodable completion
  swap
  · obtain ⟨error, herror⟩ :=
      completeInner_of_not_encodable settings now hencodable
    simp [execute, herror, Except.map, commit, onlyResult]
  by_cases hholds : HoldsLease db completion.scope completion.leaseId
  swap
  · have hholds' : ¬ HoldsLease (db.only o) completion.scope completion.leaseId :=
      fun h => hholds h.of_only
    simp [execute, completeInner_of_not_holdsLease settings now hencodable hholds,
      completeInner_of_not_holdsLease settings now hencodable hholds', Except.map, commit,
      onlyResult]
  obtain ⟨stored, hstored, htoken⟩ := hholds
  obtain ⟨hop, response, hencode⟩ := hencodable
  have hcreated : stored.createdAt = o.startedAt :=
    hlease stored (by rw [← hscope, hstored]) htoken
  have hstored' : (db.only o).records completion.scope = some stored := by
    rw [hscope] at hstored ⊢
    exact Db.only_records_of_own hstored hcreated
  simp only [execute, completeInner, hop, ne_eq, not_true, if_false, hencode,
    IdempotencySettings.postgresInterval_ttl, loadClaimOrLost_ok.mpr hstored,
    loadClaimOrLost_ok.mpr hstored', bind, Except.bind]
  cases hcheck : ensureCurrentLease stored completion.leaseId
      (some completion.response.requestId) with
  | error error => rfl
  | ok u =>
      by_cases hstorable : response.storable = true
      swap
      · simp [hstorable, Except.map, commit, onlyResult]
      have hown : (completedRecord settings now stored response).createdAt = o.startedAt :=
        hcreated
      simp only [hstorable, Bool.not_true, Bool.false_eq_true, if_false, hscope]
      by_cases hheldJob : ∃ row, db.jobs completion.response.requestId = some row ∧
          row.leaseToken = some completion.leaseId
      · obtain ⟨row, hjob, hjobtoken⟩ := hheldJob
        have hjobown : row.operationId = o := hrows _ row hjob hjobtoken
        have hjob' : (db.only o).jobs completion.response.requestId = some row :=
          Db.only_jobs_of_own hjob hjobown
        -- The job is the operation's own, so its rows alone show it finished too.
        have hset := Db.only_setJob_map
          (db.setRecord o.scope (some (completedRecord settings now stored response))) o
          completion.response.requestId
          (fun row => row.finished completion.response now.written) fun _ => rfl
        rw [Db.only_setRecord hown, Db.setRecord_jobs, Db.setRecord_jobs, hjob, hjob'] at hset
        by_cases hfits : durationFits completion.response = true
        · simp only [finishCompletedJob, hfits, Db.setRecord_jobs, hjob, hjob', hjobtoken,
            Bool.not_true, Bool.false_eq_true, if_false, if_true, Except.map, commit, onlyResult]
          simpa using hset.symm
        · simp [finishCompletedJob, hfits, Except.map, commit, onlyResult]
      · -- Without a job of this lease the completion fails in both.
        have hnone : ∀ row, db.jobs completion.response.requestId = some row →
            row.leaseToken ≠ some completion.leaseId :=
          fun row hjob htoken => hheldJob ⟨row, hjob, htoken⟩
        have hnone' : ∀ row, (db.only o).jobs completion.response.requestId = some row →
            row.leaseToken ≠ some completion.leaseId :=
          fun row hjob => hnone row (Option.filter_eq_some_iff.mp hjob).1
        rw [finishCompletedJob_of_not_held ((db.only o).setRecord _ _) now.written hnone',
          finishCompletedJob_of_not_held (db.setRecord _ _) now.written hnone]
        rfl

theorem execute_only_release {release : IdempotencyRelease} (hscope : release.scope = o.scope)
    (hlease : LeaseOfOwn db o release.leaseId) :
    execute settings now (db.only o) (.release release) =
      onlyResult o (execute settings now db (.release release)) := by
  by_cases hholds : HoldsLease db release.scope release.leaseId
  swap
  · have hholds' : ¬ HoldsLease (db.only o) release.scope release.leaseId :=
      fun h => hholds h.of_only
    simp [execute, releaseInner_of_not_holdsLease now hholds,
      releaseInner_of_not_holdsLease now hholds', Except.map, commit, onlyResult]
  obtain ⟨stored, hstored, htoken⟩ := hholds
  have hcreated : stored.createdAt = o.startedAt :=
    hlease stored (by rw [← hscope, hstored]) htoken
  have hstored' : (db.only o).records release.scope = some stored := by
    rw [hscope] at hstored ⊢
    exact Db.only_records_of_own hstored hcreated
  have hown : (releasedRecord now release.leaseId stored).createdAt = o.startedAt := hcreated
  simp only [execute, releaseInner, loadClaimOrLost_ok.mpr hstored,
    loadClaimOrLost_ok.mpr hstored', bind, Except.bind]
  cases hcheck : ensureCurrentLease stored release.leaseId none with
  | error error => rfl
  | ok u =>
      have hset := Db.only_setJob_map
        (db.setRecord o.scope (some (releasedRecord now release.leaseId stored))) o
        stored.requestId (fun row => row.released release now)
        fun row => row.released_operationId release now
      rw [Db.only_setRecord hown] at hset
      simp only [Except.map, commit, onlyResult, hscope]
      exact congrArg (Prod.mk _) hset.symm

theorem execute_only_hold {attempt : IdempotencyLeaseId} {audio : HeldAudio} {job : JobRow}
    (hjob : db.jobs audio.requestId = some job) (hown : job.operationId = o) :
    execute settings now (db.only o) (.hold attempt audio) =
      onlyResult o (execute settings now db (.hold attempt audio)) := by
  simp only [execute, hold, Db.only_held_of_own hjob hown]
  cases hrow : db.held audio.requestId with
  | none => simp only [onlyResult, Db.only_setHeld _ hjob hown]
  | some row =>
      by_cases howner : row.storageActorId = audio.owner
      · simp only [howner, if_true, onlyResult, Db.only_setHeld _ hjob hown]
      · simp [howner, onlyResult]

/-! ## Maintenance -/

theorem execute_only_recoverExpiredJobs :
    execute settings now (db.only o) .recoverExpiredJobs =
      onlyResult o (execute settings now db .recoverExpiredJobs) := by
  have hdb : recoverExpiredJobs now (db.only o) = (recoverExpiredJobs now db).only o := by
    ext1
    · rfl
    · rfl
    · funext requestId
      cases hrow : db.jobs requestId with
      | none => simp [recoverExpiredJobs, Db.only, hrow]
      | some row =>
          by_cases hown : row.operationId = o <;>
            simp [recoverExpiredJobs, Db.only, hrow, hown, Option.filter_some]
    · funext requestId
      cases hrow : db.jobs requestId with
      | none => simp [recoverExpiredJobs, Db.only, hrow]
      | some row => simp [recoverExpiredJobs, Db.only, hrow]
  simp only [execute, hdb, onlyResult]

theorem execute_only_deleteExpiredRecords (selected : List IdempotencyScope) :
    execute settings now (db.only o) (.deleteExpiredRecords selected) =
      onlyResult o (execute settings now db (.deleteExpiredRecords selected)) := by
  have hdb : deleteExpiredRecords now selected (db.only o) =
      (deleteExpiredRecords now selected db).only o := by
    ext1
    · rfl
    · funext scope
      by_cases hscope : scope = o.scope
      · simp only [deleteExpiredRecords, Db.only, hscope, if_true, Option.filter_filter,
          Bool.and_comm]
      · simp [deleteExpiredRecords, Db.only, hscope]
    · rfl
    · rfl
  simp only [execute, hdb, onlyResult]

theorem execute_only_deleteExpiredAudio (selected : List RequestId) :
    execute settings now (db.only o) (.deleteExpiredAudio selected) =
      onlyResult o (execute settings now db (.deleteExpiredAudio selected)) := by
  have hdb : deleteExpiredAudio now selected (db.only o) =
      (deleteExpiredAudio now selected db).only o := by
    ext1
    · rfl
    · rfl
    · rfl
    · funext requestId
      cases hrow : db.jobs requestId with
      | none => simp [deleteExpiredAudio, Db.only, hrow]
      | some row =>
          by_cases hown : row.operationId = o <;> simp [deleteExpiredAudio, Db.only, hrow, hown]
  simp only [execute, hdb, onlyResult]

end OwnSteps

end Waveform.Store
