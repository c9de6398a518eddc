import Waveform.Store.RecordHistory

/-!
# Single completion under leases

What the lease protocol of the idempotency store guarantees in every run, however the operations of
any number of attempts interleave:

- `completes_unless_endsLife`: a second completion in a scope means that the record was purged in
  between.
- `leaseLost_after_leaseEnds`: once a lease has ended, `start_job`, `complete` and `release` under
  it answer `LeaseLost` and change nothing.
- `record_kept_until_expiry` and `claim_replays`: until its expiry a completed record stays as it
  is, and a claim with its digest replays its response; `claim_keyReused`: a claim with another
  digest is refused.
- `grant_after_grant`: while a lease is unexpired and not released, no claim is granted another.
-/

set_option autoImplicit false

namespace Waveform.Store

open Waveform.Domain LabelledRun

/-- A transition of the speech stores. -/
abbrev StoreTransition := Transition World StoreEvent

/-- The answer of a transition's operation. -/
def StoreTransition.outcome (settings : IdempotencySettings) (t : StoreTransition) : Outcome :=
  t.pre.outcome settings t.label

section Kinds

variable (settings : IdempotencySettings) (scope : IdempotencyScope)

/-- A completion of the scope that was stored. -/
def CompletesAt (completion : IdempotencyCompletion) (t : StoreTransition) : Prop :=
  t.label.op = .complete completion ∧ completion.scope = scope ∧
    StoreTransition.outcome settings t = .done

/-- A release of a lease of the scope that was stored. -/
def ReleasesAt (leaseId : IdempotencyLeaseId) (t : StoreTransition) : Prop :=
  ∃ release, t.label.op = .release release ∧ release.scope = scope ∧ release.leaseId = leaseId ∧
    StoreTransition.outcome settings t = .done

/-- A claim of the scope that was granted this lease. -/
def GrantsAt (claim : IdempotencyClaim) (lease : IdempotencyLease) (t : StoreTransition) : Prop :=
  t.label.op = .claim claim ∧ claim.scope = scope ∧ ∃ requestId startedAt,
    StoreTransition.outcome settings t = .decided (.acquired lease requestId startedAt)

/-- The record of the scope is purged, by a cleaner or by a claim that then inserts its own. -/
def EndsLife (t : StoreTransition) : Prop :=
  (∃ stored, t.pre.db.records scope = some stored ∧
      recordIsPurgeable stored t.label.now.locked = true) ∧
    (t.post.db.records scope = none ∨ ∃ claim lease, GrantsAt settings scope claim lease t)

/-- The lease is the record's before the step and no longer after it. -/
def LeaseEnds (leaseId : IdempotencyLeaseId) (t : StoreTransition) : Prop :=
  HoldsLease t.pre.db scope leaseId ∧ ¬ HoldsLease t.post.db scope leaseId

/-- An operation that must hold the lease: start, complete (with a response the store can encode)
or release. -/
def UsesLease (leaseId : IdempotencyLeaseId) (op : StoreOp) : Prop :=
  (∃ job, op = .startJob job ∧ job.scope = scope ∧ job.leaseId = leaseId) ∨
    (∃ completion, op = .complete completion ∧ completion.scope = scope ∧
      completion.leaseId = leaseId ∧ IdempotencyCompletionEncodable completion) ∨
    ∃ release, op = .release release ∧ release.scope = scope ∧ release.leaseId = leaseId

end Kinds

variable {settings : IdempotencySettings} {scope : IdempotencyScope}

/-! ## One completion in the life of a record -/

/-- A completed record stays as it is until it is purged. -/
theorem completedRow_step {row : RecordRow} {body : StoredResponse}
    (hbody : row.state = .completed body) {w w' : World} {e : StoreEvent}
    (hrow : w.db.records scope = some row) (hstep : Step settings w e w') :
    w'.db.records scope = some row ∨
      (w.db.records scope = some row ∧ EndsLife settings scope ⟨w, e, w'⟩) := by
  obtain ⟨_, _, _, rfl⟩ := hstep
  -- A step that needs a pending record found this one, which is not.
  have absurd_pending : ∀ {stored : RecordRow} {token : IdempotencyLeaseId} {expiry : Nat},
      w.db.records scope = some stored → stored.state = .pending token expiry → False := by
    intro stored token expiry hstored hstate
    rw [hrow] at hstored
    cases hstored
    rw [hbody] at hstate
    cases hstate
  have hchange := next_recordChange settings w e scope
  generalize hnew : (w.next settings e).db.records scope = new at hchange
  cases hchange with
  | kept => exact .inl hrow
  | inserted hop hscope hgone _ hout =>
      exact .inr ⟨hrow, ⟨row, hrow, hgone row hrow⟩, .inr ⟨_, _, hop, hscope, _, _, hout⟩⟩
  | reclaimed _ _ hstored _ hstate _ _ _ => exact (absurd_pending hstored hstate).elim
  | completed _ _ hstored hstate _ _ _ _ => exact (absurd_pending hstored hstate).elim
  | released _ _ hstored hstate _ => exact (absurd_pending hstored hstate).elim
  | purged _ hstored hpurgeable => exact .inr ⟨hrow, ⟨_, hstored, hpurgeable⟩, .inl hnew⟩

/-- Along a run a completed record stays as it is, or is purged on the way. -/
theorem completedRow_run {row : RecordRow} {body : StoredResponse}
    (hbody : row.state = .completed body) {w w' : World} {mid : List StoreTransition}
    (hrow : w.db.records scope = some row) (hrun : Run (Step settings) w mid w') :
    w'.db.records scope = some row ∨
      ∃ t ∈ mid, t.pre.db.records scope = some row ∧ EndsLife settings scope t :=
  hrun.stable_unless (fun w => w.db.records scope = some row)
    (fun t => t.pre.db.records scope = some row ∧ EndsLife settings scope t)
    (fun _ _ _ hrow hstep => completedRow_step hbody hrow hstep) hrow

/-- What a stored completion found and left. -/
theorem CompletesAt.spec {completion : IdempotencyCompletion} {t : StoreTransition}
    (h : CompletesAt settings scope completion t)
    (hstep : Step settings t.pre t.label t.post) :
    ∃ stored leaseExpiresAt response, t.pre.db.records scope = some stored ∧
      stored.state = .pending completion.leaseId leaseExpiresAt ∧
      encodeResponse completion.response = .ok response ∧
      completion.response.operation = scope.operation ∧
      completion.response.requestId = stored.requestId ∧
      t.post.db.records scope =
        some (completedRecord settings t.label.now stored response) := by
  obtain ⟨hop, hscope, hout⟩ := h
  subst hscope
  obtain ⟨_, _, _, hpost⟩ := hstep
  rcases execute_complete settings t.label.now t.pre.db completion with
    ⟨error, hexec⟩ | ⟨db', hexec, hok⟩
  · simp [StoreTransition.outcome, World.outcome, hop, hexec] at hout
  · obtain ⟨response, stored, leaseExpiresAt, row, hoperation, hencode, _, _, hstored, hstate,
      hid, _, _, rfl⟩ := completeInner_ok.mp hok
    refine ⟨stored, leaseExpiresAt, response, hstored, hstate, hencode, hoperation, hid, ?_⟩
    rw [hpost]
    simp [World.next, hop, hexec]

/-- Two completions of a scope have a purge of its record between them. -/
theorem completes_unless_endsLife {c₁ c₂ : IdempotencyCompletion} {t₁ t₂ : StoreTransition}
    {mid : List StoreTransition} (h₁ : CompletesAt settings scope c₁ t₁)
    (hstep₁ : Step settings t₁.pre t₁.label t₁.post)
    (hmid : Run (Step settings) t₁.post mid t₂.pre)
    (h₂ : CompletesAt settings scope c₂ t₂) (hstep₂ : Step settings t₂.pre t₂.label t₂.post) :
    ∃ t ∈ mid, EndsLife settings scope t := by
  obtain ⟨stored₁, _, response, _, _, _, _, _, hpost⟩ := h₁.spec hstep₁
  rcases completedRow_run rfl hpost hmid with hrow | ⟨t, ht, _, hends⟩
  · obtain ⟨stored₂, _, _, hstored, hstate, _⟩ := h₂.spec hstep₂
    rw [hrow] at hstored
    cases hstored
    cases hstate
  · exact ⟨t, ht, hends⟩

/-! ## A lease that has ended -/

/-- The lease was granted and is no longer the record's. -/
def LeaseGone (w : World) (scope : IdempotencyScope) (leaseId : IdempotencyLeaseId) : Prop :=
  w.attempts leaseId ≠ none ∧ ¬ HoldsLease w.db scope leaseId

/-- A lease that has ended never comes back: no later claim is granted the same token. -/
theorem leaseGone_step {leaseId : IdempotencyLeaseId} {w w' : World} {e : StoreEvent}
    (hgone : LeaseGone w scope leaseId) (hstep : Step settings w e w') :
    LeaseGone w' scope leaseId := by
  obtain ⟨hgranted, hlost⟩ := hgone
  obtain ⟨_, _, hfresh, rfl⟩ := hstep
  obtain ⟨a, ha⟩ := Option.ne_none_iff_exists'.mp hgranted
  refine ⟨?_, ?_⟩
  · obtain ⟨b, hb, _⟩ := next_attempts_of_some hfresh ha
    rw [hb]
    simp
  · rintro ⟨row, hrow, htoken⟩
    have hchange := next_recordChange settings w e scope
    rw [hrow] at hchange
    generalize hnew : some row = new at hchange
    cases hchange with
    | kept => exact hlost ⟨row, hnew.symm, htoken⟩
    | inserted hop _ _ _ _ =>
        cases hnew
        cases htoken
        rw [hop] at hfresh
        exact hgranted hfresh.1
    | reclaimed hop _ _ _ _ _ _ _ =>
        cases hnew
        cases htoken
        rw [hop] at hfresh
        exact hgranted hfresh.1
    | completed _ _ _ _ _ _ _ _ =>
        cases hnew
        cases htoken
    | released _ _ hstored hstate _ =>
        cases hnew
        cases htoken
        exact hlost ⟨_, hstored, by rw [hstate]; rfl⟩
    | purged _ _ _ => cases hnew

/-- An operation under a lease that the record does not carry answers `LeaseLost` and changes
nothing. -/
theorem usesLease_of_not_holdsLease {leaseId : IdempotencyLeaseId} {w : World} {e : StoreEvent}
    (huses : UsesLease scope leaseId e.op) (hlost : ¬ HoldsLease w.db scope leaseId) :
    w.outcome settings e = .failed .leaseLost ∧ (w.next settings e).db = w.db := by
  unfold World.outcome World.next
  rcases huses with ⟨job, hop, rfl, rfl⟩ | ⟨completion, hop, rfl, rfl, hencodable⟩ |
    ⟨release, hop, rfl, rfl⟩
  · have hresult := startJobInner_of_not_holdsLease e.now hlost
    simp [hop, execute, hresult, commit, Except.map]
  · have hresult := completeInner_of_not_holdsLease settings e.now hencodable hlost
    simp [hop, execute, hresult, commit, Except.map]
  · have hresult := releaseInner_of_not_holdsLease e.now hlost
    simp [hop, execute, hresult, commit, Except.map]

/-- After a lease has ended every operation under it answers `LeaseLost` and changes nothing. -/
theorem leaseLost_after_leaseEnds {leaseId : IdempotencyLeaseId} {t₁ t₂ : StoreTransition}
    {mid : List StoreTransition} (hpre : Coherent t₁.pre)
    (hstep₁ : Step settings t₁.pre t₁.label t₁.post) (hends : LeaseEnds scope leaseId t₁)
    (hmid : Run (Step settings) t₁.post mid t₂.pre)
    (hstep₂ : Step settings t₂.pre t₂.label t₂.post) (huses : UsesLease scope leaseId t₂.label.op) :
    StoreTransition.outcome settings t₂ = .failed .leaseLost ∧ t₂.post.db = t₂.pre.db := by
  obtain ⟨⟨stored, hstored, htoken⟩, hlost⟩ := hends
  obtain ⟨leaseExpiresAt, hstate⟩ : ∃ expiry, stored.state = .pending leaseId expiry := by
    cases hs : stored.state with
    | completed body => rw [hs] at htoken; cases htoken
    | pending token expiry => rw [hs] at htoken; cases htoken; exact ⟨expiry, rfl⟩
  obtain ⟨a, ha, _⟩ := hpre.pending scope stored leaseId leaseExpiresAt hstored hstate
  have hgranted : t₁.post.attempts leaseId ≠ none := by
    obtain ⟨_, _, hfresh, hpost⟩ := hstep₁
    obtain ⟨b, hb, _⟩ := next_attempts_of_some hfresh ha
    rw [hpost, hb]
    simp
  have hgone : LeaseGone t₂.pre scope leaseId :=
    hmid.invariant (fun w => LeaseGone w scope leaseId) (fun _ _ _ => leaseGone_step)
      ⟨hgranted, hlost⟩
  obtain ⟨_, _, _, hpost⟩ := hstep₂
  rw [hpost]
  exact usesLease_of_not_holdsLease huses hgone.2

/-! ## The stored response until its expiry -/

/-- A run never moves the clock back, and its readings are up to its final clock. -/
theorem clock_le_of_run {w w' : World} {mid : List StoreTransition}
    (hrun : Run (Step settings) w mid w') :
    w.clock ≤ w'.clock ∧ ∀ t ∈ mid, t.label.now.locked ≤ w'.clock := by
  induction hrun with
  | nil w => exact ⟨Nat.le_refl _, fun t ht => by cases ht⟩
  | cons hstep _ ih =>
      obtain ⟨hlocked, hwritten, hclock⟩ := hstep.clock_le
      obtain ⟨hmono, hreadings⟩ := ih
      refine ⟨by omega, fun t ht => ?_⟩
      rcases List.mem_cons.mp ht with rfl | ht
      · show _ ≤ _
        simp only
        omega
      · exact hreadings t ht

theorem expiresAt_le_of_recordIsPurgeable {row : RecordRow} {now : Nat}
    (h : recordIsPurgeable row now = true) : row.expiresAt ≤ now := by
  unfold recordIsPurgeable at h
  split at h
  · cases h
  · omega

theorem not_recordIsPurgeable_of_lt {row : RecordRow} {now : Nat} (h : now < row.expiresAt) :
    recordIsPurgeable row now = false := by
  unfold recordIsPurgeable
  rw [if_pos h]

/-- Until its expiry a completed record stays as it is. -/
theorem record_kept_until_expiry {row : RecordRow} {body : StoredResponse}
    (hbody : row.state = .completed body) {w w' : World} {mid : List StoreTransition}
    (hrow : w.db.records scope = some row) (hrun : Run (Step settings) w mid w')
    (hbefore : ∀ t ∈ mid, t.label.now.locked < row.expiresAt) :
    w'.db.records scope = some row := by
  rcases completedRow_run hbody hrow hrun with hkept | ⟨t, ht, hpre, ⟨stored, hstored, hpurge⟩, _⟩
  · exact hkept
  · rw [hpre] at hstored
    cases hstored
    have hexpired := expiresAt_le_of_recordIsPurgeable hpurge
    have hlt := hbefore t ht
    omega

section Claims

variable {w : World} {e : StoreEvent} {claim : IdempotencyClaim} {row : RecordRow}

/-- A claim on a live record is decided by the record. -/
theorem outcome_of_stored (hop : e.op = .claim claim) (hfresh : e.op.freshLease settings w)
    (hplane : w.db.planes claim.scope.planeId = true)
    (hrow : w.db.records claim.scope = some row)
    (hlive : recordIsPurgeable row e.now.locked = false) {decision : IdempotencyDecision} {db : Db}
    (hdecide : decideStored settings e.now claim claim.leaseDuration row w.db =
      .ok (decision, db)) :
    w.outcome settings e = .decided decision ∧ (w.next settings e).db = db := by
  have hlease : claim.leaseDuration = settings.lease := by
    rw [hop] at hfresh
    exact hfresh.2
  have hclaim := claimInner_of_stored hlease hplane hrow hlive
  rw [hdecide] at hclaim
  simp [World.outcome, World.next, hop, execute, hclaim, commit, Except.map]

/-- A claim with the digest of an unexpired completed record replays its response. -/
theorem claim_replays {response : CompletedSpeechOperation} {body : StoredResponse}
    (hop : e.op = .claim claim) (hfresh : e.op.freshLease settings w)
    (hplane : w.db.planes claim.scope.planeId = true)
    (hrow : w.db.records claim.scope = some row) (hbody : row.state = .completed body)
    (hencode : encodeResponse response = .ok body)
    (hoperation : response.operation = claim.scope.operation)
    (hid : response.requestId = row.requestId) (hdigest : claim.digest = row.requestDigest)
    (hbefore : e.now.locked < row.expiresAt) :
    w.outcome settings e = .decided (.replay (replayedResponse response)) ∧
      (w.next settings e).db = w.db := by
  refine outcome_of_stored hop hfresh hplane hrow (not_recordIsPurgeable_of_lt hbefore) ?_
  unfold decideStored
  rw [if_neg (by simp [hdigest])]
  simp [hbody, decodeResponse_encodeResponse hencode, bind, Except.bind, hoperation, hid]

/-- A claim with another digest than a live record's is refused and changes nothing. -/
theorem claim_keyReused (hop : e.op = .claim claim) (hfresh : e.op.freshLease settings w)
    (hplane : w.db.planes claim.scope.planeId = true)
    (hrow : w.db.records claim.scope = some row)
    (hlive : recordIsPurgeable row e.now.locked = false)
    (hdigest : claim.digest ≠ row.requestDigest) :
    w.outcome settings e = .decided .keyReused ∧ (w.next settings e).db = w.db := by
  refine outcome_of_stored hop hfresh hplane hrow hlive ?_
  unfold decideStored
  rw [if_pos (Ne.symm hdigest)]

end Claims

/-! ## One unexpired lease at a time -/

/-- Until the instant `expiry` the scope cannot be granted again: its record is pending under this
lease until then, or completed and kept at least until then. -/
def LeaseHeldUntil (settings : IdempotencySettings) (scope : IdempotencyScope)
    (leaseId : IdempotencyLeaseId) (expiry : Nat) (w : World) : Prop :=
  expiry ≤ w.clock ∨
    (expiry ≤ w.clock + settings.lease ∧ ∃ row, w.db.records scope = some row ∧
      (row.state = .pending leaseId expiry ∨
        ((∃ body, row.state = .completed body) ∧ expiry ≤ row.expiresAt)))

/-- What a granted claim found and left. -/
theorem GrantsAt.spec {claim : IdempotencyClaim} {lease : IdempotencyLease} {t : StoreTransition}
    (h : GrantsAt settings scope claim lease t) (hstep : Step settings t.pre t.label t.post) :
    lease = ⟨claim.leaseId, t.label.now.written + settings.lease⟩ ∧
    (∃ row, t.post.db.records scope = some row ∧ row.state = .pending lease.id lease.expiresAt) ∧
    ∀ stored, t.pre.db.records scope = some stored →
      recordIsPurgeable stored t.label.now.locked = true ∨
        ∃ token expiry, stored.state = .pending token expiry ∧ expiry ≤ t.label.now.locked := by
  obtain ⟨hop, rfl, requestId, startedAt, hout⟩ := h
  obtain ⟨_, _, hfresh, hpost⟩ := hstep
  rw [hop] at hfresh
  rcases execute_claim settings t.label.now t.pre.db claim with
    ⟨error, hexec⟩ | ⟨decision, db', hexec, _, hresult⟩
  · simp [StoreTransition.outcome, World.outcome, hop, hexec] at hout
  · have hdecision : decision = .acquired lease requestId startedAt := by
      simpa [StoreTransition.outcome, World.outcome, hop, hexec] using hout
    have hdb : t.post.db = db' := by simp [hpost, World.next, hop, hexec]
    rw [hdb]
    cases hresult with
    | inserted hgone =>
        cases hdecision
        refine ⟨by rw [hfresh.2], ⟨_, Db.setRecord_records_self .., rfl⟩, ?_⟩
        exact fun stored hstored => .inl (hgone stored hstored)
    | reclaimed hstored _ _ hstate hexpired =>
        cases hdecision
        refine ⟨by rw [hfresh.2], ⟨_, Db.setRecord_records_self .., rfl⟩, ?_⟩
        intro other hother
        rw [hstored] at hother
        cases hother
        exact .inr ⟨_, _, hstate, hexpired⟩
    | keyReused _ _ _ => cases hdecision
    | replayed _ _ _ _ _ _ _ => cases hdecision
    | inProgress _ _ _ _ _ => cases hdecision

theorem leaseExpiresAt_le_of_recordIsPurgeable {row : RecordRow} {now expiry : Nat}
    {token : IdempotencyLeaseId} (h : recordIsPurgeable row now = true)
    (hstate : row.state = .pending token expiry) : expiry ≤ now := by
  unfold recordIsPurgeable at h
  split at h
  · cases h
  · simpa [hstate] using h

/-- A record that is purged or granted again at a reading has nothing to wait for any more. -/
theorem LeaseHeldUntil.expired {leaseId : IdempotencyLeaseId} {expiry now : Nat} {w : World}
    (hheld : LeaseHeldUntil settings scope leaseId expiry w) (hclock : w.clock ≤ now)
    (hfree : ∀ stored, w.db.records scope = some stored →
      recordIsPurgeable stored now = true ∨
        ∃ token expiry, stored.state = .pending token expiry ∧ expiry ≤ now) :
    expiry ≤ now := by
  rcases hheld with hpast | ⟨_, row, hrow, hpending | ⟨⟨body, hbody⟩, hkept⟩⟩
  · omega
  · rcases hfree row hrow with hpurge | ⟨token, other, hstate, hexpired⟩
    · exact leaseExpiresAt_le_of_recordIsPurgeable hpurge hpending
    · rw [hpending] at hstate
      cases hstate
      exact hexpired
  · rcases hfree row hrow with hpurge | ⟨token, other, hstate, hexpired⟩
    · have := expiresAt_le_of_recordIsPurgeable hpurge
      omega
    · rw [hbody] at hstate
      cases hstate

/-- Each step keeps the lease held until its expiry, unless it releases that very lease. -/
theorem leaseHeldUntil_step {leaseId : IdempotencyLeaseId} {expiry : Nat} {w w' : World}
    {e : StoreEvent} (hheld : LeaseHeldUntil settings scope leaseId expiry w)
    (hstep : Step settings w e w') :
    LeaseHeldUntil settings scope leaseId expiry w' ∨
      ReleasesAt settings scope leaseId ⟨w, e, w'⟩ := by
  obtain ⟨hlocked, hwritten, hclock⟩ := hstep.clock_le
  -- Once the scope is free again at the step's reading, the expiry lies behind the new clock.
  have passed : (∀ stored, w.db.records scope = some stored →
      recordIsPurgeable stored e.now.locked = true ∨
        ∃ token expiry, stored.state = .pending token expiry ∧ expiry ≤ e.now.locked) →
      LeaseHeldUntil settings scope leaseId expiry w' := by
    intro hfree
    have := hheld.expired hlocked hfree
    exact .inl (by omega)
  rcases hheld with hpast | ⟨hbound, row, hrow, hcase⟩
  · exact .inl (.inl (by omega))
  · obtain ⟨_, _, _, rfl⟩ := hstep
    have hchange := next_recordChange settings w e scope
    generalize hnew : (w.next settings e).db.records scope = new at hchange
    cases hchange with
    | kept => exact .inl (.inr ⟨by omega, row, by rw [hnew, hrow], hcase⟩)
    | inserted _ _ hgone _ _ =>
        exact .inl (passed fun stored hstored => .inl (hgone stored hstored))
    | reclaimed _ _ hstored _ hstate hexpired _ _ =>
        refine .inl (passed fun stored hs => .inr ?_)
        rw [hstored] at hs
        cases hs
        exact ⟨_, _, hstate, hexpired⟩
    | completed _ _ _ _ _ _ _ _ =>
        refine .inl (.inr ⟨by omega, _, hnew, .inr ⟨⟨_, rfl⟩, ?_⟩⟩)
        have := settings.lease_lt_ttl
        show expiry ≤ e.now.locked + settings.ttl
        omega
    | released hop hscope hstored hstate hout =>
        rw [hrow] at hstored
        cases hstored
        rcases hcase with hpending | ⟨⟨body, hbody⟩, _⟩
        · rw [hpending] at hstate
          cases hstate
          exact .inr ⟨_, hop, hscope, rfl, hout⟩
        · rw [hbody] at hstate
          cases hstate
    | purged _ hstored hpurgeable =>
        refine .inl (passed fun stored hs => .inl ?_)
        rw [hstored] at hs
        cases hs
        exact hpurgeable

/-- A second grant in a scope comes after the first lease expired, or after it was released. -/
theorem grant_after_grant {c₁ c₂ : IdempotencyClaim} {lease₁ lease₂ : IdempotencyLease}
    {t₁ t₂ : StoreTransition} {mid : List StoreTransition}
    (h₁ : GrantsAt settings scope c₁ lease₁ t₁) (hstep₁ : Step settings t₁.pre t₁.label t₁.post)
    (hmid : Run (Step settings) t₁.post mid t₂.pre) (h₂ : GrantsAt settings scope c₂ lease₂ t₂)
    (hstep₂ : Step settings t₂.pre t₂.label t₂.post) :
    lease₁.expiresAt ≤ t₂.label.now.locked ∨ ∃ t ∈ mid, ReleasesAt settings scope lease₁.id t := by
  obtain ⟨hlease, ⟨row, hrow, hstate⟩, _⟩ := h₁.spec hstep₁
  obtain ⟨_, _, hclock⟩ := hstep₁.clock_le
  have hheld : LeaseHeldUntil settings scope lease₁.id lease₁.expiresAt t₁.post :=
    .inr ⟨by simp only [hlease]; omega, row, hrow, .inl hstate⟩
  rcases hmid.stable_unless (LeaseHeldUntil settings scope lease₁.id lease₁.expiresAt)
    (ReleasesAt settings scope lease₁.id) (fun _ _ _ => leaseHeldUntil_step) hheld with
    hheld | hreleased
  · obtain ⟨_, _, hfree⟩ := h₂.spec hstep₂
    exact .inl (hheld.expired hstep₂.clock_le.1 hfree)
  · exact .inr hreleased

/-! ## The guarantees of a run -/

/-- The guarantees of the lease protocol in a run that ends in `w`. -/
structure LeaseGuarantees (settings : IdempotencySettings) (tr : List StoreTransition) (w : World) :
    Prop where
  /-- Two completions of a scope have the end of a record's life between them. -/
  completedOnce : ∀ scope c₁ c₂ t₁ mid t₂, InOrder tr t₁ mid t₂ →
    CompletesAt settings scope c₁ t₁ → CompletesAt settings scope c₂ t₂ →
    ∃ t ∈ mid, EndsLife settings scope t
  /-- After a lease has ended, every operation under it answers `LeaseLost` and changes nothing. -/
  leaseLost : ∀ scope leaseId t₁ mid t₂, InOrder tr t₁ mid t₂ → LeaseEnds scope leaseId t₁ →
    UsesLease scope leaseId t₂.label.op →
    StoreTransition.outcome settings t₂ = .failed .leaseLost ∧ t₂.post.db = t₂.pre.db
  /-- Until its expiry a completed record keeps its response and its digest. -/
  responseKept : ∀ scope completion before t₁ mid row, tr = before ++ t₁ :: mid →
    CompletesAt settings scope completion t₁ → t₁.post.db.records scope = some row →
    (∀ t ∈ mid, t.label.now.locked < row.expiresAt) → w.db.records scope = some row
  /-- Until that expiry a claim with that digest replays the response, and changes nothing. -/
  replayed : ∀ scope completion t₁ mid t₂ row claim, InOrder tr t₁ mid t₂ →
    CompletesAt settings scope completion t₁ → t₁.post.db.records scope = some row →
    t₂.label.now.locked < row.expiresAt → t₂.label.op = .claim claim → claim.scope = scope →
    claim.digest = row.requestDigest →
    StoreTransition.outcome settings t₂ =
        .decided (.replay (replayedResponse completion.response)) ∧
      t₂.post.db = t₂.pre.db
  /-- A claim with another digest than a live record's is refused and changes nothing. -/
  keyReused : ∀ t claim row, t ∈ tr → t.label.op = .claim claim →
    t.pre.db.records claim.scope = some row →
    recordIsPurgeable row t.label.now.locked = false → claim.digest ≠ row.requestDigest →
    StoreTransition.outcome settings t = .decided .keyReused ∧ t.post.db = t.pre.db
  /-- A second grant comes after the first lease's expiry or after its release. -/
  grantedOnce : ∀ scope c₁ c₂ lease₁ lease₂ t₁ mid t₂, InOrder tr t₁ mid t₂ →
    GrantsAt settings scope c₁ lease₁ t₁ → GrantsAt settings scope c₂ lease₂ t₂ →
    lease₁.expiresAt ≤ t₂.label.now.locked ∨ ∃ t ∈ mid, ReleasesAt settings scope lease₁.id t

/-- **Single completion under leases**, in every run of the stores from an empty database. -/
theorem run_leaseGuarantees {w₀ w : World} {tr : List StoreTransition} (hinit : w₀.Initial)
    (hrun : Run (Step settings) w₀ tr w) : LeaseGuarantees settings tr w := by
  have hcoherent : ∀ {mid : List StoreTransition} {w : World}, Run (Step settings) w₀ mid w →
      Coherent w := fun hrun =>
    hrun.invariant Coherent (fun _ _ _ => Coherent.step) (Coherent.initial hinit)
  refine ⟨?_, ?_, ?_, ?_, ?_, ?_⟩
  · intro scope c₁ c₂ t₁ mid t₂ horder h₁ h₂
    obtain ⟨_, hstep₁, hmid, hstep₂⟩ := hrun.inOrder horder
    exact completes_unless_endsLife h₁ hstep₁ hmid h₂ hstep₂
  · intro scope leaseId t₁ mid t₂ horder hends huses
    obtain ⟨⟨_, hbefore⟩, hstep₁, hmid, hstep₂⟩ := hrun.inOrder horder
    exact leaseLost_after_leaseEnds (hcoherent hbefore) hstep₁ hends hmid hstep₂ huses
  · rintro scope completion before t₁ mid row rfl hcompletes hrow hbefore
    obtain ⟨_, hstep₁, hrest⟩ := hrun.split_mem
    obtain ⟨stored, _, response, _, _, _, _, _, hpost⟩ := hcompletes.spec hstep₁
    rw [hrow] at hpost
    cases hpost
    exact record_kept_until_expiry rfl hrow hrest hbefore
  · rintro scope completion t₁ mid t₂ row claim horder hcompletes hrow hexpiry hop rfl hdigest
    obtain ⟨⟨_, hbefore⟩, hstep₁, hmid, hstep₂⟩ := hrun.inOrder horder
    obtain ⟨stored, _, response, hstored, _, hencode, hoperation, hid, hpost⟩ :=
      hcompletes.spec hstep₁
    rw [hrow] at hpost
    cases hpost
    have hclock := hstep₂.clock_le.1
    have hkept : t₂.pre.db.records claim.scope =
        some (completedRecord settings t₁.label.now stored response) := by
      refine record_kept_until_expiry rfl hrow hmid fun t ht => ?_
      exact Nat.lt_of_le_of_lt (Nat.le_trans ((clock_le_of_run hmid).2 t ht) hclock) hexpiry
    have hcoherent₂ : Coherent t₂.pre :=
      hmid.invariant Coherent (fun _ _ _ => Coherent.step) ((hcoherent hbefore).step hstep₁)
    have hplane := hcoherent₂.plane _ _ hkept
    rw [hstep₂.eq_next]
    exact claim_replays hop hstep₂.fresh hplane hkept rfl hencode hoperation hid hdigest hexpiry
  · intro t claim row ht hop hrow hlive hdigest
    obtain ⟨hpre, hstep, _⟩ :=
      hrun.invariant_mem Coherent (fun _ _ _ => Coherent.step) (Coherent.initial hinit) ht
    rw [hstep.eq_next]
    exact claim_keyReused hop hstep.fresh (hpre.plane _ _ hrow) hrow hlive hdigest
  · intro scope c₁ c₂ lease₁ lease₂ t₁ mid t₂ horder h₁ h₂
    obtain ⟨_, hstep₁, hmid, hstep₂⟩ := hrun.inOrder horder
    exact grant_after_grant h₁ hstep₁ hmid h₂ hstep₂

/-- An attempt that completes, a claim that replays it, and a release that comes too late. -/
def sampleEvents : List StoreEvent :=
  [⟨.claim (sampleClaim sampleScope 0), .at 10⟩,
    ⟨.startJob (sampleJob sampleScope 0), .at 20⟩,
    ⟨.complete ⟨sampleScope, sampleLease 0, .tts sampleResult⟩, .at 30⟩,
    ⟨.claim (sampleClaim sampleScope 1), .at 40⟩,
    ⟨.release ⟨none, sampleScope, sampleLease 0⟩, .at 50⟩]

theorem run_leaseGuarantees_sampleEvents :
    LeaseGuarantees sampleSettings (transitions sampleSettings sampleWorld sampleEvents)
        (sampleWorld.after sampleSettings sampleEvents) ∧
      (transitions sampleSettings sampleWorld sampleEvents).map
          (StoreTransition.outcome sampleSettings) =
        [.decided (.acquired ⟨sampleLease 0, 600000010⟩ sampleRequestId 10), .done, .done,
          .decided (.replay (.tts sampleResult)), .failed .leaseLost] :=
  ⟨run_leaseGuarantees sampleWorld_initial
    (run_of_protocolRun (protocolRun_transitions (by decide))), by decide⟩

end Waveform.Store
