import Mathlib.Algebra.Group.Nat.Defs
import Waveform.Library.Outcome
import Waveform.Store.ResponseCodec

/-!
# The idempotency store

The operations of `PostgresIdempotencyStore`. Each is one database transaction that locks the
record row of its scope first, so it is a function of the database state and of the clock readings
it takes; an error rolls the transaction back and leaves the database as it was.

For each operation that changes the database a specification lemma says everything a successful
call does: `claimInner_ok`, `startJobInner_ok`, `completeInner_ok`, `releaseInner_ok`. The proofs
about runs use these and never unfold an operation.
-/

set_option autoImplicit false

namespace Waveform.Store

open Waveform.Domain

/-! ## Settings and clock readings -/

/-- Idempotency lifecycle settings, as the configuration loader accepts them. -/
structure IdempotencySettings where
  ttl : Nat
  lease : Nat
  retryAfter : Nat
  operationTimeout : Nat
  retryAfter_lt_lease : retryAfter < lease
  lease_lt_ttl : lease < ttl
  le_ttl : 86400 * microsPerSecond ≤ ttl
  ttl_le : ttl ≤ 604800 * microsPerSecond
  operationTimeout_le : operationTimeout ≤ 300 * microsPerSecond

/-- The readings of the database clock that one operation takes, in the order it takes them: at its
first statement, once the row is locked, and at its last write. -/
structure Readings where
  begun : Nat
  locked : Nat
  written : Nat
  begun_le_locked : begun ≤ locked
  locked_le_written : locked ≤ written

/-- Intervals that PostgreSQL can hold: positive, and at most `i64::MAX` microseconds. -/
def postgresInterval (duration : Nat) : Except IdempotencyStoreError Nat :=
  if duration = 0 then .error .invalidRecord
  else if duration < 2 ^ 63 then .ok duration
  else .error .invalidRecord

theorem postgresInterval_ok {duration interval : Nat}
    (h : postgresInterval duration = .ok interval) : interval = duration ∧ 0 < duration := by
  unfold postgresInterval at h
  split at h
  · cases h
  · split at h
    · cases h
      exact ⟨rfl, by omega⟩
    · cases h

theorem postgresInterval_of_bounds {duration : Nat} (h₀ : 0 < duration)
    (h₁ : duration < 2 ^ 63) : postgresInterval duration = .ok duration := by
  unfold postgresInterval
  rw [if_neg (by omega), if_pos h₁]

namespace IdempotencySettings

variable (settings : IdempotencySettings)

theorem lease_pos : 0 < settings.lease := by
  have := settings.retryAfter_lt_lease
  omega

/-- An operation that is not cut off takes less than a record's lifetime. -/
theorem operationTimeout_lt_ttl : settings.operationTimeout < settings.ttl := by
  have h₁ := settings.operationTimeout_le
  have h₂ := settings.le_ttl
  simp only [microsPerSecond] at h₁ h₂
  omega

@[simp] theorem postgresInterval_ttl : postgresInterval settings.ttl = .ok settings.ttl := by
  have h₁ := settings.lease_lt_ttl
  have h₂ := settings.ttl_le
  exact postgresInterval_of_bounds (by omega) (by simp only [microsPerSecond] at h₂; omega)

@[simp] theorem postgresInterval_lease : postgresInterval settings.lease = .ok settings.lease := by
  have h₁ := settings.lease_lt_ttl
  have h₂ := settings.ttl_le
  exact postgresInterval_of_bounds settings.lease_pos
    (by simp only [microsPerSecond] at h₂; omega)

end IdempotencySettings

/-! ## Shared checks -/

/-- `lock_plane`: the plane row must be live. -/
def lockPlane (db : Db) (plane : Uuid) : Except IdempotencyStoreError Unit :=
  if db.planes plane then .ok () else .error .leaseLost

theorem lockPlane_ok {db : Db} {plane : Uuid} :
    lockPlane db plane = .ok () ↔ db.planes plane = true := by
  unfold lockPlane
  split <;> simp_all

/-- `load_claim(..)?.ok_or(LeaseLost)?`. -/
def loadClaimOrLost (db : Db) (scope : IdempotencyScope) :
    Except IdempotencyStoreError RecordRow :=
  match db.records scope with
  | some stored => .ok stored
  | none => .error .leaseLost

theorem loadClaimOrLost_ok {db : Db} {scope : IdempotencyScope} {stored : RecordRow} :
    loadClaimOrLost db scope = .ok stored ↔ db.records scope = some stored := by
  unfold loadClaimOrLost
  split <;> simp_all

/-- Whether the record may be deleted: expired, and not under an unexpired lease. -/
def recordIsPurgeable (stored : RecordRow) (databaseNow : Nat) : Bool :=
  if stored.expiresAt > databaseNow then false
  else match stored.state with
    | .completed _ => true
    | .pending _ leaseExpiresAt => leaseExpiresAt ≤ databaseNow

/-- The caller must hold the record's current lease; expiry alone does not take it away. -/
def ensureCurrentLease (stored : RecordRow) (expectedLeaseId : IdempotencyLeaseId)
    (expectedRequestId : Option RequestId) : Except IdempotencyStoreError Unit :=
  match stored.state with
  | .completed _ => .error .leaseLost
  | .pending leaseToken _ =>
      if leaseToken ≠ expectedLeaseId || expectedRequestId.any (· ≠ stored.requestId) then
        .error .leaseLost
      else .ok ()

theorem ensureCurrentLease_ok {stored : RecordRow} {leaseId : IdempotencyLeaseId}
    {expected : Option RequestId} :
    ensureCurrentLease stored leaseId expected = .ok () ↔
      (∃ leaseExpiresAt, stored.state = .pending leaseId leaseExpiresAt) ∧
        ∀ requestId, expected = some requestId → requestId = stored.requestId := by
  unfold ensureCurrentLease
  cases hs : stored.state with
  | completed body => simp
  | pending token leaseExpiresAt =>
      cases expected with
      | none => by_cases ht : token = leaseId <;> simp [ht]
      | some requestId =>
          by_cases ht : token = leaseId <;> by_cases hr : requestId = stored.requestId <;>
            simp [ht, hr]

/-- The only refusal of the check is `LeaseLost`. -/
theorem ensureCurrentLease_error {stored : RecordRow} {leaseId : IdempotencyLeaseId}
    {expected : Option RequestId} (h : stored.state.leaseToken ≠ some leaseId) :
    ensureCurrentLease stored leaseId expected = .error .leaseLost := by
  unfold ensureCurrentLease
  cases hs : stored.state with
  | completed body => rfl
  | pending token leaseExpiresAt =>
      have ht : token ≠ leaseId := by
        intro heq
        exact h (by rw [hs, heq]; rfl)
      simp [ht]

/-! ## Claim -/

/-- `insert_claim`: nothing when the scope already has a record. -/
def insertClaim (db : Db) (claim : IdempotencyClaim) (now leaseDuration recordTtl : Nat) :
    Option Db :=
  match db.records claim.scope with
  | some _ => none
  | none => some <| db.setRecord claim.scope <| some
      { requestDigest := claim.digest
        requestId := claim.requestId
        state := .pending claim.leaseId (now + leaseDuration)
        createdAt := now
        updatedAt := now
        expiresAt := now + recordTtl }

/-- `initialize_inserted_claim`: a fresh reading for every lifecycle timestamp. -/
def initializeInsertedClaim (db : Db) (claim : IdempotencyClaim)
    (now leaseDuration recordTtl : Nat) : Except IdempotencyStoreError (RecordRow × Db) :=
  match db.records claim.scope with
  | none => .error .invalidRecord
  | some row =>
      if row.state.leaseToken = some claim.leaseId then
        let row := { row with
          state := .pending claim.leaseId (now + leaseDuration)
          createdAt := now
          updatedAt := now
          expiresAt := now + recordTtl }
        .ok (row, db.setRecord claim.scope (some row))
      else .error .invalidRecord

/-- `delete_locked_claim`. -/
def deleteLockedClaim (db : Db) (scope : IdempotencyScope) : Db :=
  db.setRecord scope none

/-- `reclaim_claim`: the record passes to the caller's token. -/
def reclaimClaim (db : Db) (claim : IdempotencyClaim) (stored : RecordRow)
    (now leaseDuration : Nat) : Except IdempotencyStoreError (Nat × Db) :=
  match stored.state with
  | .completed _ => .error .leaseLost
  | .pending _ leaseExpiresAt =>
      if leaseExpiresAt ≤ now then
        .ok (now + leaseDuration, db.setRecord claim.scope <| some
          { stored with
            state := .pending claim.leaseId (now + leaseDuration)
            updatedAt := now })
      else .error .leaseLost

/-- The iteration of the claim loop in which the insert succeeds. -/
def claimByInsert (now : Readings) (claim : IdempotencyClaim)
    (leaseDuration recordTtl : Nat) (db : Db) :
    Except IdempotencyStoreError (IdempotencyDecision × Db) := do
  match insertClaim db claim now.begun leaseDuration recordTtl with
  | none => .error .invalidRecord
  | some inserted =>
      let (row, db') ←
        initializeInsertedClaim inserted claim now.written leaseDuration recordTtl
      .ok (.acquired ⟨claim.leaseId, now.written + leaseDuration⟩ claim.requestId row.createdAt,
        db')

/-- Seconds left on a lease, rounded up from whole milliseconds, at least one. -/
def remainingSeconds (leaseExpiresAt databaseNow : Nat) : Nat :=
  max (((leaseExpiresAt - databaseNow) / 1000 + 999) / 1000) 1

/-- The decision on a record that stays: what `claim_inner` does after its loop. -/
def decideStored (settings : IdempotencySettings) (now : Readings) (claim : IdempotencyClaim)
    (leaseDuration : Nat) (stored : RecordRow) (db : Db) :
    Except IdempotencyStoreError (IdempotencyDecision × Db) := do
  if stored.requestDigest ≠ claim.digest then
    .ok (.keyReused, db)
  else match stored.state with
    | .completed responseBody =>
        let response ← decodeResponse responseBody
        if response.operation ≠ claim.scope.operation ∨ response.requestId ≠ stored.requestId then
          .error .invalidRecord
        else .ok (.replay response, db)
    | .pending _ leaseExpiresAt =>
        if leaseExpiresAt ≤ now.locked then do
          let (expiresAt, db') ← reclaimClaim db claim stored now.written leaseDuration
          .ok (.acquired ⟨claim.leaseId, expiresAt⟩ stored.requestId stored.createdAt, db')
        else
          .ok (.inProgress (min settings.retryAfter
            (remainingSeconds leaseExpiresAt now.locked * microsPerSecond)), db)

/-- `claim_inner`. The loop of the source is unrolled: inside one transaction the insert conflicts
only with a row that the locking read then returns, and once that row is deleted the next insert
succeeds. -/
def claimInner (settings : IdempotencySettings) (now : Readings) (claim : IdempotencyClaim)
    (db : Db) : Except IdempotencyStoreError (IdempotencyDecision × Db) := do
  let leaseDuration ← postgresInterval claim.leaseDuration
  let recordTtl ← postgresInterval settings.ttl
  lockPlane db claim.scope.planeId
  match db.records claim.scope with
  | none => claimByInsert now claim leaseDuration recordTtl db
  | some stored =>
      if recordIsPurgeable stored now.locked then
        claimByInsert now claim leaseDuration recordTtl (deleteLockedClaim db claim.scope)
      else decideStored settings now claim leaseDuration stored db

/-- The row a successful insert leaves. -/
def freshRecord (settings : IdempotencySettings) (now : Readings) (claim : IdempotencyClaim) :
    RecordRow where
  requestDigest := claim.digest
  requestId := claim.requestId
  state := .pending claim.leaseId (now.written + claim.leaseDuration)
  createdAt := now.written
  updatedAt := now.written
  expiresAt := now.written + settings.ttl

/-- The row a reclaim leaves. -/
def reclaimedRecord (now : Readings) (claim : IdempotencyClaim) (stored : RecordRow) :
    RecordRow :=
  { stored with
    state := .pending claim.leaseId (now.written + claim.leaseDuration)
    updatedAt := now.written }

/-- Everything a claim that returns a decision can have done. -/
inductive ClaimResult (settings : IdempotencySettings) (now : Readings) (claim : IdempotencyClaim)
    (db : Db) : IdempotencyDecision → Db → Prop where
  /-- The scope had no record, or one that could be purged. -/
  | inserted (hgone : ∀ stored, db.records claim.scope = some stored →
        recordIsPurgeable stored now.locked = true) :
      ClaimResult settings now claim db
        (.acquired ⟨claim.leaseId, now.written + claim.leaseDuration⟩ claim.requestId now.written)
        (db.setRecord claim.scope (some (freshRecord settings now claim)))
  | keyReused {stored : RecordRow} (hstored : db.records claim.scope = some stored)
      (hlive : recordIsPurgeable stored now.locked = false)
      (hdigest : stored.requestDigest ≠ claim.digest) :
      ClaimResult settings now claim db .keyReused db
  | replayed {stored : RecordRow} {responseBody : StoredResponse}
      {response : CompletedSpeechOperation} (hstored : db.records claim.scope = some stored)
      (hlive : recordIsPurgeable stored now.locked = false)
      (hdigest : stored.requestDigest = claim.digest)
      (hstate : stored.state = .completed responseBody)
      (hdecode : decodeResponse responseBody = .ok response)
      (hop : response.operation = claim.scope.operation)
      (hid : response.requestId = stored.requestId) :
      ClaimResult settings now claim db (.replay response) db
  | reclaimed {stored : RecordRow} {token : IdempotencyLeaseId} {leaseExpiresAt : Nat}
      (hstored : db.records claim.scope = some stored)
      (hlive : recordIsPurgeable stored now.locked = false)
      (hdigest : stored.requestDigest = claim.digest)
      (hstate : stored.state = .pending token leaseExpiresAt)
      (hexpired : leaseExpiresAt ≤ now.locked) :
      ClaimResult settings now claim db
        (.acquired ⟨claim.leaseId, now.written + claim.leaseDuration⟩ stored.requestId
          stored.createdAt)
        (db.setRecord claim.scope (some (reclaimedRecord now claim stored)))
  | inProgress {stored : RecordRow} {token : IdempotencyLeaseId} {leaseExpiresAt : Nat}
      (hstored : db.records claim.scope = some stored)
      (hlive : recordIsPurgeable stored now.locked = false)
      (hdigest : stored.requestDigest = claim.digest)
      (hstate : stored.state = .pending token leaseExpiresAt)
      (hunexpired : now.locked < leaseExpiresAt) :
      ClaimResult settings now claim db
        (.inProgress (min settings.retryAfter
          (remainingSeconds leaseExpiresAt now.locked * microsPerSecond))) db

/-- An insert into a scope without a record always succeeds. -/
theorem claimByInsert_of_none {settings : IdempotencySettings} {now : Readings}
    {claim : IdempotencyClaim} {db : Db} (h : db.records claim.scope = none) :
    claimByInsert now claim claim.leaseDuration settings.ttl db =
      .ok (.acquired ⟨claim.leaseId, now.written + claim.leaseDuration⟩ claim.requestId
          now.written,
        db.setRecord claim.scope (some (freshRecord settings now claim))) := by
  unfold claimByInsert insertClaim initializeInsertedClaim
  simp [h, RecordState.leaseToken, freshRecord, Db.setRecord, bind, Except.bind]

theorem decideStored_ok {settings : IdempotencySettings} {now : Readings}
    {claim : IdempotencyClaim} {stored : RecordRow} {db db' : Db}
    {decision : IdempotencyDecision} (hstored : db.records claim.scope = some stored)
    (hlive : recordIsPurgeable stored now.locked = false)
    (h : decideStored settings now claim claim.leaseDuration stored db = .ok (decision, db')) :
    ClaimResult settings now claim db decision db' := by
  unfold decideStored at h
  by_cases hdigest : stored.requestDigest = claim.digest
  · rw [if_neg (by simp [hdigest])] at h
    cases hstate : stored.state with
    | completed responseBody =>
        simp only [hstate] at h
        obtain ⟨response, hdecode, h⟩ := Except.bind_eq_ok.mp h
        split at h
        · cases h
        · rename_i hcheck
          simp only [ne_eq, not_or, not_not] at hcheck
          cases h
          exact .replayed hstored hlive hdigest hstate hdecode hcheck.1 hcheck.2
    | pending token leaseExpiresAt =>
        simp only [hstate] at h
        by_cases hexpired : leaseExpiresAt ≤ now.locked
        · rw [if_pos hexpired] at h
          have hwritten : leaseExpiresAt ≤ now.written := 
            Nat.le_trans hexpired now.locked_le_written
          have hreclaim : reclaimClaim db claim stored now.written claim.leaseDuration =
              .ok (now.written + claim.leaseDuration,
                db.setRecord claim.scope (some (reclaimedRecord now claim stored))) := by
            simp [reclaimClaim, hstate, hwritten, reclaimedRecord]
          rw [hreclaim] at h
          cases h
          exact .reclaimed hstored hlive hdigest hstate hexpired
        · rw [if_neg hexpired] at h
          cases h
          exact .inProgress hstored hlive hdigest hstate (by omega)
  · rw [if_pos hdigest] at h
    cases h
    exact .keyReused hstored hlive hdigest

/-- **What a claim that returns a decision did.** -/
theorem claimInner_ok {settings : IdempotencySettings} {now : Readings}
    {claim : IdempotencyClaim} {db db' : Db} {decision : IdempotencyDecision}
    (h : claimInner settings now claim db = .ok (decision, db')) :
    db.planes claim.scope.planeId = true ∧ ClaimResult settings now claim db decision db' := by
  unfold claimInner at h
  obtain ⟨leaseDuration, hlease, h⟩ := Except.bind_eq_ok.mp h
  obtain ⟨rfl, _⟩ := postgresInterval_ok hlease
  obtain ⟨recordTtl, httl, h⟩ := Except.bind_eq_ok.mp h
  obtain ⟨rfl, _⟩ := postgresInterval_ok httl
  obtain ⟨u, hplane, h⟩ := Except.bind_eq_ok.mp h
  refine ⟨lockPlane_ok.mp hplane, ?_⟩
  cases hrecord : db.records claim.scope with
  | none =>
      simp only [hrecord] at h
      rw [claimByInsert_of_none hrecord] at h
      cases h
      exact .inserted (fun stored hs => by rw [hrecord] at hs; cases hs)
  | some stored =>
      simp only [hrecord] at h
      by_cases hpurge : recordIsPurgeable stored now.locked = true
      · rw [if_pos hpurge, claimByInsert_of_none (by simp [deleteLockedClaim])] at h
        cases h
        have hset : (deleteLockedClaim db claim.scope).setRecord claim.scope
            (some (freshRecord settings now claim)) =
              db.setRecord claim.scope (some (freshRecord settings now claim)) := by
          simp [deleteLockedClaim, Db.setRecord]
        rw [hset]
        exact .inserted (fun other hs => by rw [hrecord] at hs; cases hs; exact hpurge)
      · rw [if_neg hpurge] at h
        exact decideStored_ok hrecord (by simpa using hpurge) h

/-- A claim on a record that stays is decided by that record. -/
theorem claimInner_of_stored {settings : IdempotencySettings} {now : Readings}
    {claim : IdempotencyClaim} {db : Db} {stored : RecordRow}
    (hlease : claim.leaseDuration = settings.lease)
    (hplane : db.planes claim.scope.planeId = true)
    (hstored : db.records claim.scope = some stored)
    (hlive : recordIsPurgeable stored now.locked = false) :
    claimInner settings now claim db =
      decideStored settings now claim claim.leaseDuration stored db := by
  unfold claimInner
  simp [hlease, lockPlane, hplane, hstored, hlive, bind, Except.bind]

/-! ## Starting a job -/

/-- The row that `start_job_inner` inserts. -/
def startedJob (stored : RecordRow) (job : SpeechJobStart) : JobRow where
  planeId := job.scope.planeId
  orgId := accountScope
  actorId := job.scope.actor.id
  actorKind := job.scope.actor.kind
  operation := job.scope.operation
  status := .running
  firstLine := takeChars maxFirstLineChars job.firstLine
  durationMs := none
  provider := none
  requestDigest := stored.requestDigest
  -- The same key may start a new operation after idempotency retention.
  idempotencyKeyHash := ⟨job.scope.operation, job.scope.key, stored.requestId⟩
  createdAt := stored.createdAt
  leaseToken := some job.leaseId
  leaseExpiresAt := stored.state.leaseExpiresAt
  voiceProfile := job.voiceProfile
  issuingApp := job.issuingApp

/-- The WHERE clause of the upsert: only an unfinished row of the same operation is taken over. -/
def JobRow.acceptsRestart (row excluded : JobRow) : Bool :=
  row.planeId == excluded.planeId && row.orgId == excluded.orgId &&
    row.actorId == excluded.actorId && row.actorKind == excluded.actorKind &&
    row.operation == excluded.operation && !row.status.isCompleted &&
    row.requestDigest == excluded.requestDigest &&
    row.idempotencyKeyHash == excluded.idempotencyKeyHash

/-- The SET clause of the upsert. -/
def JobRow.restarted (row excluded : JobRow) : JobRow :=
  { row with
    status := .running
    voiceProfile := excluded.voiceProfile
    firstLine := excluded.firstLine
    durationMs := none
    provider := none
    leaseToken := excluded.leaseToken
    leaseExpiresAt := excluded.leaseExpiresAt }

/-- Whether the free strings of the row can be stored. -/
def JobRow.storable (row : JobRow) : Bool :=
  storableText row.firstLine && row.voiceProfile.all fun profile => storableText profile.id

/-- The upsert of `start_job_inner`; the result is the number of rows it affected. The other unique
key of the table contains the hash of the request id, so it conflicts with no other row. -/
def upsertJob (db : Db) (requestId : RequestId) (excluded : JobRow) : Nat × Db :=
  match db.jobs requestId with
  | none => (1, db.setJob requestId (some excluded))
  | some row =>
      if row.acceptsRestart excluded then (1, db.setJob requestId (some (row.restarted excluded)))
      else (0, db)

/-- `start_job_inner`. -/
def startJobInner (now : Readings) (job : SpeechJobStart) (db : Db) :
    Except IdempotencyStoreError Db := do
  lockPlane db job.scope.planeId
  let stored ← loadClaimOrLost db job.scope
  ensureCurrentLease stored job.leaseId none
  if stored.state.leaseExpiresAt.all (· ≤ now.locked) then
    .error .leaseLost
  else if !(startedJob stored job).storable then
    .error .unavailable
  else
    let (updated, db') := upsertJob db stored.requestId (startedJob stored job)
    if updated ≠ 1 then .error .leaseLost else .ok db'

/-- The job row that a successful start leaves. -/
def upsertedJob (stored : RecordRow) (job : SpeechJobStart) : Option JobRow → JobRow
  | none => startedJob stored job
  | some row => row.restarted (startedJob stored job)

/-- **What a successful `start_job` did.** -/
theorem startJobInner_ok {now : Readings} {job : SpeechJobStart} {db db' : Db} :
    startJobInner now job db = .ok db' ↔
      db.planes job.scope.planeId = true ∧
      ∃ stored leaseExpiresAt, db.records job.scope = some stored ∧
        stored.state = .pending job.leaseId leaseExpiresAt ∧ now.locked < leaseExpiresAt ∧
        (startedJob stored job).storable = true ∧
        (∀ row, db.jobs stored.requestId = some row →
          row.acceptsRestart (startedJob stored job) = true) ∧
        db' = db.setJob stored.requestId
          (some (upsertedJob stored job (db.jobs stored.requestId))) := by
  unfold startJobInner
  constructor
  · intro h
    obtain ⟨_, hplane, h⟩ := Except.bind_eq_ok.mp h
    obtain ⟨stored, hload, h⟩ := Except.bind_eq_ok.mp h
    obtain ⟨_, hlease, h⟩ := Except.bind_eq_ok.mp h
    obtain ⟨⟨leaseExpiresAt, hstate⟩, _⟩ := ensureCurrentLease_ok.mp hlease
    refine ⟨lockPlane_ok.mp hplane, stored, leaseExpiresAt, loadClaimOrLost_ok.mp hload, hstate,
      ?_⟩
    split at h
    · cases h
    · rename_i hexpiry
      split at h
      · cases h
      · rename_i hstorable
        refine ⟨by simpa [hstate, RecordState.leaseExpiresAt] using hexpiry,
          by simpa using hstorable, ?_⟩
        unfold upsertJob at h
        cases hrow : db.jobs stored.requestId with
        | none =>
            simp only [hrow] at h
            cases h
            exact ⟨fun row hr => (nomatch hr), rfl⟩
        | some row =>
            simp only [hrow] at h
            by_cases haccept : row.acceptsRestart (startedJob stored job) = true
            · rw [if_pos haccept] at h
              cases h
              exact ⟨fun other hr => by cases hr; exact haccept, rfl⟩
            · rw [if_neg haccept] at h
              cases h
  · rintro ⟨hplane, stored, leaseExpiresAt, hload, hstate, hexpiry, hstorable, haccept, rfl⟩
    rw [lockPlane_ok.mpr hplane, loadClaimOrLost_ok.mpr hload]
    have hlease : ensureCurrentLease stored job.leaseId none = .ok () :=
      ensureCurrentLease_ok.mpr ⟨⟨leaseExpiresAt, hstate⟩, fun _ h => (nomatch h)⟩
    have hnot : ¬ leaseExpiresAt ≤ now.locked := by omega
    simp only [bind, Except.bind, hlease, hstate, RecordState.leaseExpiresAt, Option.all_some,
      decide_eq_true_eq, hnot, if_false, hstorable, Bool.not_true, Bool.false_eq_true]
    unfold upsertJob
    cases hrow : db.jobs stored.requestId with
    | none => simp [upsertedJob]
    | some row => simp [haccept row hrow, upsertedJob]

/-! ## Completing -/

/-- The first line, duration and provider that a completion writes to the job. -/
def completedJobColumns :
    CompletedSpeechOperation → Option String × Option MediaDuration × ProviderName
  | .tts result => (none, some result.duration, result.provider)
  | .stt result =>
      (some (takeChars maxFirstLineChars (firstLineOf result.transcript.asStr)), result.duration,
        result.provider)

/-- The SET clause of `finish_completed_job`. -/
def JobRow.finished (row : JobRow) (response : CompletedSpeechOperation) (finishedAt : Nat) :
    JobRow :=
  let (firstLine, duration, provider) := completedJobColumns response
  { row with
    status := .completed finishedAt
    firstLine := firstLine.getD row.firstLine
    durationMs := duration.map MediaDuration.asMillis
    provider := some provider
    leaseToken := none
    leaseExpiresAt := none }

/-- Whether the duration fits the `bigint` column. -/
def durationFits (response : CompletedSpeechOperation) : Bool :=
  (completedJobColumns response).2.1.all fun duration => duration.asMillis < 2 ^ 63

/-- `finish_completed_job`: the job must carry the completing lease token. -/
def finishCompletedJob (db : Db) (completion : IdempotencyCompletion) (finishedAt : Nat) :
    Except IdempotencyStoreError Db :=
  if !durationFits completion.response then .error .invalidRecord
  else match db.jobs completion.response.requestId with
    | none => .error .invalidRecord
    | some row =>
        if row.leaseToken = some completion.leaseId then
          .ok (db.setJob completion.response.requestId
            (some (row.finished completion.response finishedAt)))
        else .error .invalidRecord

/-- The record that a completion leaves. -/
def completedRecord (settings : IdempotencySettings) (now : Readings) (stored : RecordRow)
    (response : StoredResponse) : RecordRow :=
  { stored with
    state := .completed response
    updatedAt := now.locked
    expiresAt := now.locked + settings.ttl }

/-- `complete_inner`. After the lease check the WHERE clause of the update matches the locked
row. -/
def completeInner (settings : IdempotencySettings) (now : Readings)
    (completion : IdempotencyCompletion) (db : Db) : Except IdempotencyStoreError Db := do
  if completion.response.operation ≠ completion.scope.operation then
    .error .invalidRecord
  else
    let response ← encodeResponse completion.response
    let _recordTtl ← postgresInterval settings.ttl
    let stored ← loadClaimOrLost db completion.scope
    ensureCurrentLease stored completion.leaseId (some completion.response.requestId)
    if !response.storable then
      .error .unavailable
    else
      finishCompletedJob
        (db.setRecord completion.scope (some (completedRecord settings now stored response)))
        completion now.written

/-- **What a successful `complete` did.** -/
theorem completeInner_ok {settings : IdempotencySettings} {now : Readings}
    {completion : IdempotencyCompletion} {db db' : Db} :
    completeInner settings now completion db = .ok db' ↔
      ∃ response stored leaseExpiresAt row,
        completion.response.operation = completion.scope.operation ∧
        encodeResponse completion.response = .ok response ∧ response.storable = true ∧
        durationFits completion.response = true ∧
        db.records completion.scope = some stored ∧
        stored.state = .pending completion.leaseId leaseExpiresAt ∧
        completion.response.requestId = stored.requestId ∧
        db.jobs stored.requestId = some row ∧ row.leaseToken = some completion.leaseId ∧
        db' = (db.setRecord completion.scope
            (some (completedRecord settings now stored response))).setJob stored.requestId
              (some (row.finished completion.response now.written)) := by
  unfold completeInner
  constructor
  · intro h
    split at h
    · cases h
    · rename_i hop
      obtain ⟨response, hencode, h⟩ := Except.bind_eq_ok.mp h
      obtain ⟨_, _, h⟩ := Except.bind_eq_ok.mp h
      obtain ⟨stored, hload, h⟩ := Except.bind_eq_ok.mp h
      obtain ⟨_, hlease, h⟩ := Except.bind_eq_ok.mp h
      obtain ⟨⟨leaseExpiresAt, hstate⟩, hid⟩ := ensureCurrentLease_ok.mp hlease
      have hid : completion.response.requestId = stored.requestId := hid _ rfl
      split at h
      · cases h
      · rename_i hstorable
        unfold finishCompletedJob at h
        split at h
        · cases h
        · rename_i hfits
          simp only [Db.setRecord_jobs, hid] at h
          split at h
          · cases h
          · rename_i row hrow
            split at h
            · rename_i htoken
              cases h
              exact ⟨response, stored, leaseExpiresAt, row, by simpa using hop, hencode,
                by simpa using hstorable, by simpa using hfits, loadClaimOrLost_ok.mp hload,
                hstate, hid, hrow, htoken, rfl⟩
            · cases h
  · rintro ⟨response, stored, leaseExpiresAt, row, hop, hencode, hstorable, hfits, hload, hstate,
      hid, hrow, htoken, rfl⟩
    have hlease : ensureCurrentLease stored completion.leaseId
        (some completion.response.requestId) = .ok () :=
      ensureCurrentLease_ok.mpr ⟨⟨leaseExpiresAt, hstate⟩, fun _ h => by cases h; exact hid⟩
    rw [if_neg (by simp [hop])]
    simp only [bind, Except.bind, hencode, IdempotencySettings.postgresInterval_ttl,
      loadClaimOrLost_ok.mpr hload, hlease, hstorable, Bool.not_true, Bool.false_eq_true, if_false]
    simp [finishCompletedJob, hfits, hid, hrow, htoken]

/-! ## Releasing -/

/-- The record that a release leaves: its lease ends now. -/
def releasedRecord (now : Readings) (leaseId : IdempotencyLeaseId) (stored : RecordRow) :
    RecordRow :=
  { stored with
    state := .pending leaseId now.locked
    updatedAt := now.locked }

/-- The update of the job in `release_inner`: only the running job of this lease fails. -/
def JobRow.released (row : JobRow) (release : IdempotencyRelease) (now : Readings) : JobRow :=
  if row.leaseToken = some release.leaseId ∧ row.status = .running then
    { row with
      status := .failed ((release.failureCode.map ErrorCode.asStr).getD "request_interrupted")
        now.written
      leaseExpiresAt := some now.locked }
  else row

/-- `release_inner`. -/
def releaseInner (now : Readings) (release : IdempotencyRelease) (db : Db) :
    Except IdempotencyStoreError Db := do
  let stored ← loadClaimOrLost db release.scope
  ensureCurrentLease stored release.leaseId none
  let db := db.setRecord release.scope (some (releasedRecord now release.leaseId stored))
  .ok (db.setJob stored.requestId
    ((db.jobs stored.requestId).map fun row => row.released release now))

/-- **What a successful `release` did.** -/
theorem releaseInner_ok {now : Readings} {release : IdempotencyRelease} {db db' : Db} :
    releaseInner now release db = .ok db' ↔
      ∃ stored leaseExpiresAt, db.records release.scope = some stored ∧
        stored.state = .pending release.leaseId leaseExpiresAt ∧
        db' = (db.setRecord release.scope
            (some (releasedRecord now release.leaseId stored))).setJob stored.requestId
              ((db.jobs stored.requestId).map fun row => row.released release now) := by
  unfold releaseInner
  constructor
  · intro h
    obtain ⟨stored, hload, h⟩ := Except.bind_eq_ok.mp h
    obtain ⟨_, hlease, h⟩ := Except.bind_eq_ok.mp h
    obtain ⟨⟨leaseExpiresAt, hstate⟩, _⟩ := ensureCurrentLease_ok.mp hlease
    cases h
    exact ⟨stored, leaseExpiresAt, loadClaimOrLost_ok.mp hload, hstate, rfl⟩
  · rintro ⟨stored, leaseExpiresAt, hload, hstate, rfl⟩
    have hlease : ensureCurrentLease stored release.leaseId none = .ok () :=
      ensureCurrentLease_ok.mpr ⟨⟨leaseExpiresAt, hstate⟩, fun _ h => (nomatch h)⟩
    simp [bind, Except.bind, loadClaimOrLost_ok.mpr hload, hlease]

/-! ## A lost lease -/

section LeaseLost

variable {db : Db} {scope : IdempotencyScope} {leaseId : IdempotencyLeaseId}

/-- The record of the scope is there and pending under this lease token. -/
def HoldsLease (db : Db) (scope : IdempotencyScope) (leaseId : IdempotencyLeaseId) : Prop :=
  ∃ stored, db.records scope = some stored ∧ stored.state.leaseToken = some leaseId

/-- Without the lease the lease check answers `LeaseLost`, whatever request id is expected. -/
theorem leaseCheck_of_not_holdsLease {α : Type} (h : ¬ HoldsLease db scope leaseId)
    (expected : Option RequestId) (next : RecordRow → Except IdempotencyStoreError α) :
    (do let stored ← loadClaimOrLost db scope
        ensureCurrentLease stored leaseId expected
        next stored) = .error .leaseLost := by
  unfold loadClaimOrLost
  cases hrecord : db.records scope with
  | none => rfl
  | some stored =>
      have htoken : stored.state.leaseToken ≠ some leaseId := fun ht => h ⟨stored, hrecord, ht⟩
      simp only [bind, Except.bind, ensureCurrentLease_error htoken]

theorem startJobInner_of_not_holdsLease {job : SpeechJobStart} (now : Readings)
    (h : ¬ HoldsLease db job.scope job.leaseId) :
    startJobInner now job db = .error .leaseLost := by
  unfold startJobInner lockPlane
  by_cases hplane : db.planes job.scope.planeId = true
  · rw [if_pos hplane]
    exact leaseCheck_of_not_holdsLease h none _
  · rw [if_neg hplane]
    rfl

theorem releaseInner_of_not_holdsLease {release : IdempotencyRelease} (now : Readings)
    (h : ¬ HoldsLease db release.scope release.leaseId) :
    releaseInner now release db = .error .leaseLost := by
  unfold releaseInner
  exact leaseCheck_of_not_holdsLease h none _

/-- What `complete_inner` checks about the completion alone, before it opens a transaction. -/
def IdempotencyCompletionEncodable (completion : IdempotencyCompletion) : Prop :=
  completion.response.operation = completion.scope.operation ∧
    ∃ response, encodeResponse completion.response = .ok response

theorem completeInner_of_not_holdsLease {completion : IdempotencyCompletion}
    (settings : IdempotencySettings) (now : Readings)
    (hencodable : IdempotencyCompletionEncodable completion)
    (h : ¬ HoldsLease db completion.scope completion.leaseId) :
    completeInner settings now completion db = .error .leaseLost := by
  obtain ⟨hop, response, hencode⟩ := hencodable
  unfold completeInner
  rw [if_neg (by simp [hop])]
  simp only [hencode, IdempotencySettings.postgresInterval_ttl]
  exact leaseCheck_of_not_holdsLease h _ _

end LeaseLost

/-! ## Maintenance -/

/-- Microseconds in a day. -/
def microsPerDay : Nat := 86400 * microsPerSecond

/-- One row under `recover_expired_jobs`. -/
def JobRow.recovered (row : JobRow) (now : Readings) : JobRow :=
  if row.status = .running ∧ (row.leaseExpiresAt.any (· ≤ now.locked) ∨
      (row.leaseToken = none ∧ row.createdAt + microsPerDay < now.locked)) then
    { row with status := .failed "request_interrupted" now.written }
  else row

/-- `recover_expired_jobs`: crashed attempts are marked failed. -/
def recoverExpiredJobs (now : Readings) (db : Db) : Db :=
  { db with jobs := fun requestId => (db.jobs requestId).map fun row => row.recovered now }

/-- The deletion of `delete_expired`; the scopes are those that the bounded, lock-skipping
selection picked, and only purgeable records among them go. -/
def deleteExpiredRecords (now : Readings) (selected : List IdempotencyScope) (db : Db) : Db :=
  { db with records := fun scope =>
      (db.records scope).filter fun row =>
        !(selected.contains scope && recordIsPurgeable row now.locked) }

end Waveform.Store
