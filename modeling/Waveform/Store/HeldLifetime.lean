import Waveform.Store.SingleCompletion

/-!
# The lifetime of held audio

A record that completes with a held result keeps the result for the configured retention from its
completion. The audio row keeps the expiry of the first hold of the request, which is the retention
from that hold. The two lifetimes agree exactly when the row was created for this account at the
very instant that the completion takes as its time (`heldLifetime_iff`).

- `HeldChange` and `next_heldChange`: what one step does to a held row.
- `heldRow_run`: a held row keeps its owner and both its stamps until it expires.
- `earlierHold_replay_not_found`: an ordinary run in which a replay is answered while its audio is
  gone.
-/

set_option autoImplicit false

namespace Waveform.Store

open Waveform.Domain LabelledRun

/-! ## What a step does to a held row -/

/-- How a step with this event can change the held row of a request. -/
inductive HeldChange (settings : IdempotencySettings) (w : World) (e : StoreEvent)
    (requestId : RequestId) : Option HeldRow → Prop where
  | kept : HeldChange settings w e requestId (w.db.held requestId)
  | inserted {attempt : IdempotencyLeaseId} {audio : HeldAudio} (hop : e.op = .hold attempt audio)
      (hid : audio.requestId = requestId) (hnone : w.db.held requestId = none)
      (houtcome : w.outcome settings e = .held (e.now.begun + settings.ttl)) :
      HeldChange settings w e requestId (some (heldRow settings.ttl e.now audio))
  | replaced {attempt : IdempotencyLeaseId} {audio : HeldAudio} {row : HeldRow}
      (hop : e.op = .hold attempt audio) (hid : audio.requestId = requestId)
      (hrow : w.db.held requestId = some row) (howner : row.storageActorId = audio.owner)
      (houtcome : w.outcome settings e = .held row.expiresAt) :
      HeldChange settings w e requestId (some (row.replaced audio))
  | expired {selected : List RequestId} {row : HeldRow}
      (hop : e.op = .deleteExpiredAudio selected) (hrow : w.db.held requestId = some row)
      (hexpired : row.expiresAt ≤ e.now.begun) : HeldChange settings w e requestId none

/-- **Every step changes the held row of a request in one of the listed ways.** -/
theorem next_heldChange (settings : IdempotencySettings) (w : World) (e : StoreEvent)
    (requestId : RequestId) :
    HeldChange settings w e requestId ((w.next settings e).db.held requestId) := by
  have hkept : (w.next settings e).db.held requestId = w.db.held requestId →
      HeldChange settings w e requestId ((w.next settings e).db.held requestId) := by
    intro heq
    rw [heq]
    exact .kept
  cases hop : e.op with
  | claim claim =>
      rcases execute_claim settings e.now w.db claim with
        ⟨error, hexec⟩ | ⟨decision, db', hexec, _, hresult⟩
      · exact hkept (by simp [World.next, hop, hexec])
      · cases hresult <;> exact hkept (by simp [World.next, hop, hexec])
  | startJob job =>
      rcases execute_startJob settings e.now w.db job with ⟨error, hexec⟩ | ⟨db', hexec, hok⟩
      · exact hkept (by simp [World.next, hop, hexec])
      · obtain ⟨_, _, _, _, _, _, _, _, rfl⟩ := startJobInner_ok.mp hok
        exact hkept (by simp [World.next, hop, hexec])
  | complete completion =>
      rcases execute_complete settings e.now w.db completion with
        ⟨error, hexec⟩ | ⟨db', hexec, hok⟩
      · exact hkept (by simp [World.next, hop, hexec])
      · obtain ⟨_, _, _, _, _, _, _, _, _, _, _, _, _, rfl⟩ := completeInner_ok.mp hok
        exact hkept (by simp [World.next, hop, hexec])
  | release release =>
      rcases execute_release settings e.now w.db release with ⟨error, hexec⟩ | ⟨db', hexec, hok⟩
      · exact hkept (by simp [World.next, hop, hexec])
      · obtain ⟨_, _, _, _, rfl⟩ := releaseInner_ok.mp hok
        exact hkept (by simp [World.next, hop, hexec])
  | hold attempt audio =>
      rcases execute_hold settings e.now w.db attempt audio with hexec |
        ⟨expiresAt, db', hexec, hok⟩
      · exact hkept (by simp [World.next, hop, hexec])
      · obtain ⟨howner, hexpires, hdb⟩ := hold_eq_some.mp hok
        have hout : w.outcome settings e = .held expiresAt := by simp [World.outcome, hop, hexec]
        have hheld : (w.next settings e).db.held = db'.held := by simp [World.next, hop, hexec]
        by_cases hid : requestId = audio.requestId
        · subst hid
          rw [hheld, hdb, Db.setHeld_held_self]
          -- A row that is there is replaced for its own owner only.
          cases hrow : w.db.held audio.requestId with
          | none =>
              rw [hrow] at hexpires
              subst hexpires
              exact .inserted hop rfl hrow hout
          | some row =>
              rw [hrow] at hexpires
              subst hexpires
              exact .replaced hop rfl hrow (howner row hrow) hout
        · exact hkept (by rw [hheld, hdb, Db.setHeld_held, if_neg hid])
  | recoverExpiredJobs => exact hkept (by simp [World.next, hop, execute, Store.recoverExpiredJobs])
  | deleteExpiredRecords selected =>
      exact hkept (by simp [World.next, hop, execute, Store.deleteExpiredRecords])
  | deleteExpiredAudio selected =>
      have hnew : (w.next settings e).db.held requestId =
          (w.db.held requestId).filter fun row =>
            !(selected.contains requestId && decide (row.expiresAt ≤ e.now.begun)) := by
        simp [World.next, hop, execute, Store.deleteExpiredAudio]
      cases hrow : w.db.held requestId with
      | none => exact hkept (by rw [hnew, hrow]; rfl)
      | some row =>
          -- A selected row is deleted only if it has expired.
          by_cases hpick :
              (selected.contains requestId && decide (row.expiresAt ≤ e.now.begun)) = true
          · rw [hnew, hrow, Option.filter_some, hpick]
            simp only [Bool.and_eq_true, decide_eq_true_eq] at hpick
            exact .expired hop hrow hpick.2
          · exact hkept (by rw [hnew, hrow, Option.filter_some, Bool.eq_false_iff.mpr hpick]; rfl)

/-! ## A held row keeps its stamps -/

/-- Two held rows have the same owner and the same stamps; bytes and reason may differ. -/
def HeldRow.SameHold (row other : HeldRow) : Prop :=
  other.storageActorId = row.storageActorId ∧ other.createdAt = row.createdAt ∧
    other.expiresAt = row.expiresAt

/-- Until its expiry the row is there, with its owner and stamps. -/
def HeldUntilExpiry (requestId : RequestId) (row : HeldRow) (w : World) : Prop :=
  row.expiresAt ≤ w.clock ∨ ∃ other, w.db.held requestId = some other ∧ row.SameHold other

theorem heldUntilExpiry_step {settings : IdempotencySettings} {requestId : RequestId}
    {row : HeldRow} {w w' : World} {e : StoreEvent} (h : HeldUntilExpiry requestId row w)
    (hstep : Step settings w e w') : HeldUntilExpiry requestId row w' := by
  have hbegun := hstep.clock_le_begun
  have hlocked := e.now.begun_le_locked
  obtain ⟨_, hwritten, hclock⟩ := hstep.clock_le
  rcases h with hpast | ⟨other, hother, hsame⟩
  · exact .inl (by omega)
  · obtain ⟨howner, hcreated, hexpires⟩ := hsame
    have hchange := next_heldChange settings w e requestId
    rw [← hstep.eq_next] at hchange
    generalize hnew : w'.db.held requestId = new at hchange
    cases hchange with
    | kept => exact .inr ⟨other, by rw [hnew, hother], howner, hcreated, hexpires⟩
    | inserted _ _ hnone _ =>
        rw [hother] at hnone
        cases hnone
    | replaced _ _ hrow _ _ =>
        rw [hother] at hrow
        cases hrow
        exact .inr ⟨_, hnew, howner, hcreated, hexpires⟩
    | expired _ hrow hexpired =>
        rw [hother] at hrow
        cases hrow
        exact .inl (by omega)

/-- Along every run a held row keeps its owner and its stamps until it expires. -/
theorem heldRow_run {settings : IdempotencySettings} {requestId : RequestId} {row : HeldRow}
    {w w' : World} {mid : List StoreTransition} (hrow : w.db.held requestId = some row)
    (hrun : Run (Step settings) w mid w') (hbefore : w'.clock < row.expiresAt) :
    ∃ other, w'.db.held requestId = some other ∧ row.SameHold other := by
  have hheld : HeldUntilExpiry requestId row w' :=
    hrun.invariant (HeldUntilExpiry requestId row) (fun _ _ _ => heldUntilExpiry_step)
      (.inr ⟨row, hrow, rfl, rfl, rfl⟩)
  rcases hheld with hpast | hkept
  · omega
  · exact hkept

/-- The stamps of held rows and of the history lie behind the clock, and each row expires one
retention after it was created. -/
structure HeldStamps (settings : IdempotencySettings) (w : World) : Prop where
  row : ∀ requestId row, w.db.held requestId = some row →
    row.createdAt ≤ w.clock ∧ row.expiresAt = row.createdAt + settings.ttl
  attempt : ∀ leaseId a kept, w.attempts leaseId = some a → a.held = some kept →
    kept.heldAt ≤ w.clock

theorem HeldStamps.initial {settings : IdempotencySettings} {w : World} (h : w.Initial) :
    HeldStamps settings w where
  row requestId row hrow := by
    rw [h.2.2.1 requestId] at hrow
    cases hrow
  attempt leaseId a kept ha := by
    rw [h.2.2.2 leaseId] at ha
    cases ha

theorem HeldStamps.step {settings : IdempotencySettings} {w w' : World} {e : StoreEvent}
    (h : HeldStamps settings w) (hstep : Step settings w e w') : HeldStamps settings w' := by
  have hbegun := hstep.clock_le_begun
  have hlocked := e.now.begun_le_locked
  obtain ⟨_, hwritten, hclock⟩ := hstep.clock_le
  refine ⟨?_, ?_⟩
  · intro requestId row hrow
    have hchange := next_heldChange settings w e requestId
    rw [← hstep.eq_next, hrow] at hchange
    generalize hnew : some row = new at hchange
    cases hchange with
    | kept =>
        obtain ⟨hcreated, hexpires⟩ := h.row requestId row hnew.symm
        exact ⟨by omega, hexpires⟩
    | inserted _ _ _ _ =>
        cases hnew
        exact ⟨by simp only [heldRow]; omega, rfl⟩
    | replaced _ _ hother _ _ =>
        cases hnew
        obtain ⟨hcreated, hexpires⟩ := h.row requestId _ hother
        exact ⟨by simp only [HeldRow.replaced]; omega, hexpires⟩
    | expired _ _ _ => cases hnew
  · intro leaseId a kept ha hkept
    have hchange := next_attemptChange settings w e leaseId
    rw [← hstep.eq_next, ha] at hchange
    generalize hnew : some a = new at hchange
    cases hchange with
    | kept =>
        have := h.attempt leaseId a kept hnew.symm hkept
        omega
    | granted _ _ _ =>
        cases hnew
        cases hkept
    | held _ _ _ =>
        cases hnew
        cases hkept
        show e.now.begun ≤ w'.clock
        omega
    | started hb _ _ _ =>
        cases hnew
        have := h.attempt leaseId _ kept hb hkept
        omega
    | completed hb _ _ _ =>
        cases hnew
        have := h.attempt leaseId _ kept hb hkept
        omega

/-! ## The two lifetimes -/

/-- A stored completion whose result reports held audio. -/
def CompletesHeldAt (settings : IdempotencySettings) (scope : IdempotencyScope)
    (completion : IdempotencyCompletion) (t : StoreTransition) : Prop :=
  CompletesAt settings scope completion t ∧ ∃ result reason audioUrl expiresAt,
    completion.response = .tts result ∧ result.storage = .held reason audioUrl expiresAt

/-- In the speech service the attempt that completes with held audio has held it, and its result
records the duration of what it held. -/
theorem CompletesHeldAt.kept {settings : IdempotencySettings} {scope : IdempotencyScope}
    {completion : IdempotencyCompletion} {t : StoreTransition}
    (h : CompletesHeldAt settings scope completion t)
    (hstep : ProtocolStep settings t.pre t.label t.post) :
    ∃ a kept, t.pre.attempts completion.leaseId = some a ∧ a.held = some kept ∧
      a.scope = scope ∧ completion.response.requestId = a.requestId ∧
      ∀ result, completion.response = .tts result →
        kept.audio.audio.duration = result.duration := by
  obtain ⟨⟨hop, hscope, _⟩, result, reason, audioUrl, expiresAt, hresponse, hstorage⟩ := h
  have hprotocol := hstep.inProtocol
  rw [hop] at hprotocol
  obtain ⟨a, ha, hascope, _, hid, hreports⟩ := hprotocol
  cases hkept : a.held with
  | none => simp [Attempt.reports, hresponse, hstorage, hkept] at hreports
  | some kept =>
      refine ⟨a, kept, ha, hkept, hascope.trans hscope, hid, ?_⟩
      intro other hother
      rw [hresponse] at hother
      cases hother
      simp only [Attempt.reports, hresponse, hstorage, hkept, Bool.and_eq_true,
        beq_iff_eq] at hreports
      exact hreports.2

/-- The lifetime promised of what an attempt held, judged in a later world at an instant: the owner
can fetch it for the retention counted from the attempt's own hold, and it is there as long as the
record replays the result. -/
def HeldLifetime (settings : IdempotencySettings) (scope : IdempotencyScope) (kept : HeldAttempt)
    (completion : IdempotencyCompletion) (t : StoreTransition) (w : World) (now : Nat) : Prop :=
  (now < kept.heldAt + settings.ttl →
    (fetch w.db completion.response.requestId scope.actor.id now).isSome = true) ∧
  ∀ row, t.post.db.records scope = some row → w.db.records scope = some row →
    now < row.expiresAt → isHeld w.db completion.response.requestId scope.actor.id now = true

/-- The condition under which the lifetimes agree: the audio row is this account's and was created
at the instant that the completion takes as its time. -/
def HeldAtCompletion (scope : IdempotencyScope) (completion : IdempotencyCompletion)
    (t : StoreTransition) : Prop :=
  ∃ row, t.pre.db.held completion.response.requestId = some row ∧
    row.storageActorId = scope.actor.id ∧ row.createdAt = t.label.now.locked

section Lifetime

variable {settings : IdempotencySettings} {scope : IdempotencyScope}
  {completion : IdempotencyCompletion} {t : StoreTransition}

/-- A completion leaves the held audio alone. -/
theorem CompletesAt.held_eq (h : CompletesAt settings scope completion t)
    (hstep : Step settings t.pre t.label t.post) : t.post.db.held = t.pre.db.held := by
  obtain ⟨hop, _, _⟩ := h
  funext requestId
  have hchange := next_heldChange settings t.pre t.label requestId
  rw [← hstep.eq_next] at hchange
  generalize t.post.db.held requestId = new at hchange ⊢
  cases hchange with
  | kept => rfl
  | inserted hop' _ _ _ =>
      rw [hop] at hop'
      cases hop'
  | replaced hop' _ _ _ _ =>
      rw [hop] at hop'
      cases hop'
  | expired hop' _ _ =>
      rw [hop] at hop'
      cases hop'

/-- A completed record expires one retention after the completion's time. -/
theorem CompletesAt.expiresAt (h : CompletesAt settings scope completion t)
    (hstep : Step settings t.pre t.label t.post) :
    ∃ row, t.post.db.records scope = some row ∧
      row.expiresAt = t.label.now.locked + settings.ttl := by
  obtain ⟨stored, _, response, _, _, _, _, _, hpost⟩ := h.spec hstep
  exact ⟨_, hpost, rfl⟩

/-- When the row was created at the completion's time, both lifetimes are kept in every later
world. -/
theorem heldLifetime_of_heldAtCompletion {kept : HeldAttempt} {w : World}
    {mid : List StoreTransition} {now : Nat} (hstamps : HeldStamps settings t.pre)
    (hkept : kept.heldAt ≤ t.pre.clock) (hcompletes : CompletesAt settings scope completion t)
    (hstep : Step settings t.pre t.label t.post) (h : HeldAtCompletion scope completion t)
    (hmid : Run (Step settings) t.post mid w) (hnow : w.clock ≤ now) :
    HeldLifetime settings scope kept completion t w now := by
  obtain ⟨row, hrow, howner, hcreated⟩ := h
  obtain ⟨_, hexpires⟩ := hstamps.row _ row hrow
  have hlocked := hstep.clock_le.1
  have hpost : t.post.db.held completion.response.requestId = some row := by
    rw [hcompletes.held_eq hstep, hrow]
  -- The row outlives every instant before one retention from the completion.
  have hfetch : now < t.label.now.locked + settings.ttl →
      (fetch w.db completion.response.requestId scope.actor.id now).isSome = true := by
    intro hbefore
    obtain ⟨other, hother, hsameOwner, _, hsameExpiry⟩ :=
      heldRow_run hpost hmid (by omega)
    have hfound : fetch w.db completion.response.requestId scope.actor.id now = some other :=
      fetch_eq_some.mpr ⟨hother, by rw [hsameOwner, howner], by omega⟩
    rw [hfound]
    rfl
  refine ⟨?_, ?_⟩
  · intro hbefore
    exact hfetch (by omega)
  · intro record hrecord _ hbefore
    obtain ⟨record', hrecord', hexpiry⟩ := hcompletes.expiresAt hstep
    rw [hrecord'] at hrecord
    cases hrecord
    exact hfetch (by omega)

/-- When it was not, there is an instant right after the completion, before the record expires, at
which the audio is gone. -/
theorem heldAtCompletion_of_heldLifetime {kept : HeldAttempt}
    (hstamps : HeldStamps settings t.pre) (hcompletes : CompletesAt settings scope completion t)
    (hstep : Step settings t.pre t.label t.post)
    (h : ∀ now, t.post.clock ≤ now → HeldLifetime settings scope kept completion t t.post now) :
    HeldAtCompletion scope completion t := by
  obtain ⟨record, hrecord, hexpiry⟩ := hcompletes.expiresAt hstep
  obtain ⟨hlocked, hwritten, hclock⟩ := hstep.clock_le
  have hontime := hstep.onTime
  have hbegun := t.label.now.begun_le_locked
  have hshort := settings.operationTimeout_lt_ttl
  -- The replay check succeeds at every instant from the commit to the record's expiry.
  have hfound : ∀ now, t.post.clock ≤ now → now < t.label.now.locked + settings.ttl →
      ∃ row, t.pre.db.held completion.response.requestId = some row ∧
        row.storageActorId = scope.actor.id ∧ now < row.expiresAt := by
    intro now hnow hbefore
    have hheld := (h now hnow).2 record hrecord hrecord (by omega)
    obtain ⟨row, hrow⟩ := Option.isSome_iff_exists.mp hheld
    obtain ⟨hrow, howner, hunexpired⟩ := fetch_eq_some.mp hrow
    rw [hcompletes.held_eq hstep] at hrow
    exact ⟨row, hrow, howner, hunexpired⟩
  -- Take the last such instant.
  obtain ⟨row, hrow, howner, hunexpired⟩ :=
    hfound (t.label.now.locked + settings.ttl - 1) (by omega) (by omega)
  obtain ⟨hcreated, hexpires⟩ := hstamps.row _ row hrow
  exact ⟨row, hrow, howner, by omega⟩

end Lifetime

/-- **The lifetimes of a held result agree exactly when its audio row was created at the
completion's own time.** -/
theorem heldLifetime_iff {settings : IdempotencySettings} {scope : IdempotencyScope} {w₀ : World}
    {before : List StoreTransition} {t : StoreTransition} {completion : IdempotencyCompletion}
    (hinit : w₀.Initial) (hrun : Run (ProtocolStep settings) w₀ before t.pre)
    (hstep : ProtocolStep settings t.pre t.label t.post)
    (hcompletes : CompletesHeldAt settings scope completion t) :
    ∃ a kept, t.pre.attempts completion.leaseId = some a ∧ a.held = some kept ∧
      ((∀ mid w now, Run (ProtocolStep settings) t.post mid w → w.clock ≤ now →
        HeldLifetime settings scope kept completion t w now) ↔
        HeldAtCompletion scope completion t) := by
  have hstamps : HeldStamps settings t.pre :=
    (run_of_protocolRun hrun).invariant (HeldStamps settings) (fun _ _ _ => HeldStamps.step)
      (HeldStamps.initial hinit)
  obtain ⟨a, kept, ha, hkept, _⟩ := hcompletes.kept hstep
  refine ⟨a, kept, ha, hkept, ?_⟩
  constructor
  · intro h
    exact heldAtCompletion_of_heldLifetime hstamps hcompletes.1 hstep.toStep
      (fun now hnow => h [] t.post now (.nil _) hnow)
  · intro h mid w now hmid hnow
    exact heldLifetime_of_heldAtCompletion hstamps (hstamps.attempt _ a kept ha hkept)
      hcompletes.1 hstep.toStep h (run_of_protocolRun hmid) hnow

/-- The completion of an attempt that held its audio at 30. -/
def sampleHeldCompletion : IdempotencyCompletion where
  scope := sampleScope
  leaseId := sampleLease 0
  response := .tts (sampleHeldResult (30 + sampleSettings.ttl))

/-- The events of that attempt up to its hold. -/
def heldEvents : List StoreEvent :=
  [⟨.claim (sampleClaim sampleScope 0), .at 10⟩, ⟨.startJob (sampleJob sampleScope 0), .at 20⟩,
    ⟨.hold (sampleLease 0) (sampleAudio sampleScope 1), .at 30⟩]

/-- The world in which it is about to complete. -/
def heldWorld : World := sampleWorld.after sampleSettings heldEvents

/-- The transition in which it completes. -/
def heldTransition (completedAt : Nat) : StoreTransition :=
  let e : StoreEvent := ⟨.complete sampleHeldCompletion, .at completedAt⟩
  ⟨heldWorld, e, heldWorld.next sampleSettings e⟩

/-- The history entry of that attempt before it completes. -/
def heldEntry : Attempt where
  scope := sampleScope
  requestId := sampleRequestId
  operationStartedAt := 10
  started := true
  held := some ⟨sampleAudio sampleScope 1, 30, 30 + sampleSettings.ttl⟩
  completed := false

theorem heldEntry_eq : heldWorld.attempts (sampleLease 0) = some heldEntry := rfl

theorem heldTransition_step (completedAt : Nat) (hafter : 30 ≤ completedAt) :
    ProtocolStep sampleSettings (heldTransition completedAt).pre (heldTransition completedAt).label
      (heldTransition completedAt).post where
  clock_le_begun := hafter
  onTime := Nat.le_add_right _ _
  fresh := trivial
  eq_next := rfl
  inProtocol := ⟨heldEntry, rfl, rfl, rfl, rfl, rfl⟩

theorem heldTransition_completesHeldAt (completedAt : Nat)
    (hdone : StoreTransition.outcome sampleSettings (heldTransition completedAt) = .done) :
    CompletesHeldAt sampleSettings sampleScope sampleHeldCompletion
      (heldTransition completedAt) :=
  ⟨⟨rfl, rfl, hdone⟩, _, _, _, _, rfl, rfl⟩

/-- A completion at the instant of its hold keeps the whole lifetime. -/
theorem heldLifetime_iff_sample :
    ∃ kept, ∀ mid w now, Run (ProtocolStep sampleSettings) (heldTransition 30).post mid w →
      w.clock ≤ now → HeldLifetime sampleSettings sampleScope kept sampleHeldCompletion
        (heldTransition 30) w now := by
  obtain ⟨_, kept, _, _, hiff⟩ :=
    heldLifetime_iff sampleWorld_initial (protocolRun_transitions (by decide))
      (heldTransition_step 30 (Nat.le_refl 30)) (heldTransition_completesHeldAt 30 (by decide))
  exact ⟨kept, hiff.mpr
    ⟨heldRow sampleSettings.ttl (.at 30) (sampleAudio sampleScope 1), rfl, rfl, rfl⟩⟩

/-- **The lifetimes differ in an ordinary run.** An attempt that holds at 30 and completes at 40
leaves a record that replays its result for ten microseconds after the audio has expired. -/
theorem not_forall_heldLifetime :
    ¬ ∀ (settings : IdempotencySettings) (scope : IdempotencyScope) (w₀ : World)
      (before : List StoreTransition) (t : StoreTransition) (completion : IdempotencyCompletion)
      (a : Attempt) (kept : HeldAttempt), w₀.Initial →
      Run (ProtocolStep settings) w₀ before t.pre →
      ProtocolStep settings t.pre t.label t.post →
      CompletesHeldAt settings scope completion t →
      t.pre.attempts completion.leaseId = some a → a.held = some kept →
      ∀ mid w now, Run (ProtocolStep settings) t.post mid w → w.clock ≤ now →
        HeldLifetime settings scope kept completion t w now := by
  intro h
  have hstep := heldTransition_step 40 (by decide)
  have hcompletes := heldTransition_completesHeldAt 40 (by decide)
  have hlifetime := h _ _ _ _ _ _ _ _ sampleWorld_initial (protocolRun_transitions (by decide))
    hstep hcompletes heldEntry_eq rfl [] _ (30 + sampleSettings.ttl) (.nil _) (by decide)
  obtain ⟨row, hrow, hexpiry⟩ := hcompletes.1.expiresAt hstep.toStep
  have hheld := hlifetime.2 row hrow hrow (by rw [hexpiry]; decide)
  exact absurd hheld (by decide)

end Waveform.Store
