import Waveform.Store.HeldLifetime

/-!
# The bytes of held audio

Holding audio is not fenced by the lease: an attempt that lost its lease can still replace the
bytes of the row that the winner of the request held and described. In every run in which no hold
does that (`SparesOwners`), the bytes served for a completed held result are, until its expiry, the
bytes that the completing attempt held (`heldBytes_of_completion`).
-/

set_option autoImplicit false

namespace Waveform.Store

open Waveform.Domain LabelledRun

variable {settings : IdempotencySettings}

/-- The attempt owns the audio of its request: it has completed the record, or it still holds the
record's lease. -/
def OwnsAudio (w : World) (leaseId : IdempotencyLeaseId) (a : Attempt) : Prop :=
  a.completed = true ∨ HoldsLease w.db a.scope leaseId

/-- The event does not replace audio that another attempt holds unexpired and owns, unless by the
same bytes. -/
def SparesOwners (w : World) (e : StoreEvent) : Prop :=
  ∀ attempt audio, e.op = .hold attempt audio → ∀ other a kept, other ≠ attempt →
    w.attempts other = some a → a.held = some kept → OwnsAudio w other a →
    kept.audio.requestId = audio.requestId → kept.audio.owner = audio.owner →
    e.now.begun < kept.expiresAt → audio.audio.bytes = kept.audio.audio.bytes

/-- What an attempt holds lies under its grant, and what an owner holds is served unexpired. -/
structure OwnedAudio (w : World) : Prop where
  grant : ∀ leaseId a kept, w.attempts leaseId = some a → a.held = some kept →
    kept.audio.requestId = a.requestId ∧ kept.audio.owner = a.scope.actor.id
  served : ∀ leaseId a kept, w.attempts leaseId = some a → a.held = some kept →
    OwnsAudio w leaseId a → w.clock < kept.expiresAt →
      ∃ row, w.db.held kept.audio.requestId = some row ∧
        row.storageActorId = kept.audio.owner ∧ row.expiresAt = kept.expiresAt ∧
        row.audio = kept.audio.audio.bytes

theorem OwnedAudio.initial {w : World} (h : w.Initial) : OwnedAudio w where
  grant leaseId a kept ha := by
    rw [h.2.2.2 leaseId] at ha
    cases ha
  served leaseId a kept ha := by
    rw [h.2.2.2 leaseId] at ha
    cases ha

/-- A hold that is answered leaves the held bytes under the owner and the answered expiry. -/
theorem held_of_hold_outcome {w : World} {e : StoreEvent} {attempt : IdempotencyLeaseId}
    {audio : HeldAudio} {expiresAt : Nat} (hop : e.op = .hold attempt audio)
    (hout : w.outcome settings e = .held expiresAt) :
    ∃ row, (w.next settings e).db.held audio.requestId = some row ∧
      row.storageActorId = audio.owner ∧ row.expiresAt = expiresAt ∧
      row.audio = audio.audio.bytes := by
  rcases execute_hold settings e.now w.db attempt audio with hexec | ⟨expiry, db', hexec, hok⟩
  · simp [World.outcome, hop, hexec] at hout
  · obtain ⟨howner, hexpires, hdb⟩ := hold_eq_some.mp hok
    have hexpiry : expiry = expiresAt := by simpa [World.outcome, hop, hexec] using hout
    refine ⟨heldAfter settings.ttl e.now audio (w.db.held audio.requestId), ?_, ?_, ?_, ?_⟩
    · simp [World.next, hop, hexec, hdb]
    · cases hrow : w.db.held audio.requestId with
      | none => rfl
      | some row => exact howner row hrow
    · rw [← hexpires, hexpiry]
    · cases w.db.held audio.requestId <;> rfl

/-- An attempt that owns its audio after a step that does not touch its history entry owned it
before. -/
theorem ownsAudio_before {w w' : World} {e : StoreEvent} {leaseId : IdempotencyLeaseId}
    {a : Attempt} (hstep : Step settings w e w') (ha : w.attempts leaseId = some a)
    (howns : OwnsAudio w' leaseId a) : OwnsAudio w leaseId a := by
  rcases howns with hcompleted | hlease
  · exact .inl hcompleted
  · by_contra hnot
    have hlost : ¬ HoldsLease w.db a.scope leaseId := fun h => hnot (.inr h)
    have hgone : LeaseGone w' a.scope leaseId :=
      leaseGone_step ⟨by rw [ha]; simp, hlost⟩ hstep
    exact hgone.2 hlease

namespace OwnedAudio

variable {w w' : World} {e : StoreEvent} {leaseId : IdempotencyLeaseId} {a b : Attempt}
  {kept : HeldAttempt}

/-- Audio that was served before a step is served after it, when no other attempt replaces it. -/
theorem carry (h : OwnedAudio w) (hstep : ProtocolStep settings w e w') (hspare : SparesOwners w e)
    (ha : w.attempts leaseId = some a) (hkept : a.held = some kept) (howns : OwnsAudio w leaseId a)
    (hbefore : w'.clock < kept.expiresAt) :
    ∃ row, w'.db.held kept.audio.requestId = some row ∧
      row.storageActorId = kept.audio.owner ∧ row.expiresAt = kept.expiresAt ∧
      row.audio = kept.audio.audio.bytes := by
  have hbegun := e.now.begun_le_locked
  obtain ⟨hlocked, hwritten, hclock⟩ := hstep.toStep.clock_le
  obtain ⟨row, hrow, howner, hexpires, hbytes⟩ :=
    h.served leaseId a kept ha hkept howns (by omega)
  have hchange := next_heldChange settings w e kept.audio.requestId
  rw [← hstep.eq_next] at hchange
  generalize hnew : w'.db.held kept.audio.requestId = new at hchange ⊢
  cases hchange with
  | kept => exact ⟨row, hrow, howner, hexpires, hbytes⟩
  | inserted _ _ hnone _ =>
      rw [hrow] at hnone
      cases hnone
  | replaced hop hid hother howner' _ =>
      rw [hrow] at hother
      cases hother
      have hprotocol := hstep.inProtocol
      rw [hop] at hprotocol
      obtain ⟨b, hb, hnotHeld, _⟩ := hprotocol
      -- An attempt holds once, so this hold is another attempt's.
      have hne : ∀ attempt, w.attempts attempt = some b → leaseId ≠ attempt := by
        rintro attempt hb rfl
        rw [ha] at hb
        cases hb
        rw [hkept] at hnotHeld
        cases hnotHeld
      have hsame := hspare _ _ hop leaseId a kept (hne _ hb) ha hkept howns hid.symm
        (by rw [← howner, howner']) (by omega)
      exact ⟨_, rfl, howner, hexpires, hsame⟩
  | expired _ hother hexpired =>
      rw [hrow] at hother
      cases hother
      omega

/-- What an attempt holds after a step lies under its grant. -/
theorem grant_step (h : OwnedAudio w) (hstep : ProtocolStep settings w e w')
    (hb : w'.attempts leaseId = some b) (hkept : b.held = some kept) :
    kept.audio.requestId = b.requestId ∧ kept.audio.owner = b.scope.actor.id := by
  have hchange := next_attemptChange settings w e leaseId
  rw [← hstep.eq_next, hb] at hchange
  generalize hnew : some b = new at hchange
  cases hchange with
  | kept => exact h.grant leaseId b kept hnew.symm hkept
  | granted _ _ _ =>
      cases hnew
      cases hkept
  | held ha hop _ =>
      cases hnew
      cases hkept
      have hprotocol := hstep.inProtocol
      rw [hop] at hprotocol
      obtain ⟨a, ha', _, _, _, hid, howner⟩ := hprotocol
      rw [Option.mem_def, ha] at ha'
      cases ha'
      exact ⟨hid, howner⟩
  | started ha _ _ _ =>
      cases hnew
      have hgrant := h.grant leaseId _ kept ha hkept
      exact hgrant
  | completed ha _ _ _ =>
      cases hnew
      have hgrant := h.grant leaseId _ kept ha hkept
      exact hgrant

/-- What an owner holds after a step is served: it held and owned it before, or holds it now. -/
theorem served_step (h : OwnedAudio w) (hstep : ProtocolStep settings w e w')
    (hspare : SparesOwners w e) (hb : w'.attempts leaseId = some b) (hkept : b.held = some kept)
    (howns : OwnsAudio w' leaseId b) (hbefore : w'.clock < kept.expiresAt) :
    ∃ row, w'.db.held kept.audio.requestId = some row ∧
      row.storageActorId = kept.audio.owner ∧ row.expiresAt = kept.expiresAt ∧
      row.audio = kept.audio.audio.bytes := by
  have hchange := next_attemptChange settings w e leaseId
  rw [← hstep.eq_next, hb] at hchange
  generalize hnew : some b = new at hchange
  cases hchange with
  | kept =>
      have howned : OwnsAudio w leaseId b := ownsAudio_before hstep.toStep hnew.symm howns
      exact h.carry hstep hspare hnew.symm hkept howned hbefore
  | granted _ _ _ =>
      cases hnew
      cases hkept
  | held _ hop hout =>
      cases hnew
      cases hkept
      rw [hstep.eq_next]
      exact held_of_hold_outcome hop hout
  | @started a _ ha _ _ _ =>
      cases hnew
      have howned : OwnsAudio w leaseId a := ownsAudio_before hstep.toStep ha howns
      exact h.carry hstep hspare ha hkept howned hbefore
  | @completed a _ ha hop hlease hout =>
      cases hnew
      have hprotocol := hstep.inProtocol
      rw [hop] at hprotocol
      obtain ⟨a', ha', hscope, _⟩ := hprotocol
      rw [hlease, Option.mem_def, ha] at ha'
      cases ha'
      -- The attempt held the lease when it completed.
      have hcompletes : CompletesAt settings a.scope _ ⟨w, e, w'⟩ := ⟨hop, hscope.symm, hout⟩
      obtain ⟨stored, _, _, hstored, hstate, _⟩ := hcompletes.spec hstep.toStep
      have howned : OwnsAudio w leaseId a :=
        .inr ⟨stored, hstored, by rw [hstate, hlease]; rfl⟩
      exact h.carry hstep hspare ha hkept howned hbefore

/-- **Every step of the service that spares the owners keeps the invariant.** -/
theorem step (h : OwnedAudio w) (hstep : ProtocolStep settings w e w')
    (hspare : SparesOwners w e) : OwnedAudio w' where
  grant _ _ _ hb hkept := h.grant_step hstep hb hkept
  served _ _ _ hb hkept howns hbefore := h.served_step hstep hspare hb hkept howns hbefore

end OwnedAudio

/-- The attempt has completed after holding this. -/
def HasCompleted (leaseId : IdempotencyLeaseId) (a : Attempt) (kept : HeldAttempt) (w : World) :
    Prop :=
  ∃ b, w.attempts leaseId = some b ∧ a.SameGrant b ∧ b.held = some kept ∧ b.completed = true

/-- An attempt that has completed holds nothing more. -/
theorem hasCompleted_step {leaseId : IdempotencyLeaseId} {a : Attempt} {kept : HeldAttempt}
    {w w' : World} {e : StoreEvent} (h : HasCompleted leaseId a kept w)
    (hstep : ProtocolStep settings w e w') : HasCompleted leaseId a kept w' := by
  obtain ⟨b, hb, hsame, hkept, hcompleted⟩ := h
  have hchange := next_attemptChange settings w e leaseId
  rw [← hstep.eq_next] at hchange
  generalize hnew : w'.attempts leaseId = new at hchange
  cases hchange with
  | kept => exact ⟨b, by rw [hnew, hb], hsame, hkept, hcompleted⟩
  | granted hop hlease _ =>
      have hfresh := hstep.fresh
      rw [hop] at hfresh
      have hnone := hfresh.1
      rw [hlease, hb] at hnone
      cases hnone
  | started hother _ _ _ =>
      rw [hb] at hother
      cases hother
      exact ⟨_, hnew, hsame, hkept, hcompleted⟩
  | held hother hop _ =>
      have hprotocol := hstep.inProtocol
      rw [hop] at hprotocol
      obtain ⟨c, hc, hnotHeld, _⟩ := hprotocol
      rw [Option.mem_def, hb] at hc
      cases hc
      rw [hkept] at hnotHeld
      cases hnotHeld
  | completed hother _ _ _ =>
      rw [hb] at hother
      cases hother
      exact ⟨_, hnew, hsame, hkept, rfl⟩

/-- **The bytes served for a completed held result.** In a run of the service in which no hold
replaces audio that another attempt owns, the audio of a completed held result is served until its
expiry with the bytes that the completing attempt held, whose duration the result records. -/
theorem heldBytes_of_completion {scope : IdempotencyScope} {w₀ w : World}
    {before mid : List StoreTransition} {t : StoreTransition}
    {completion : IdempotencyCompletion} (hinit : w₀.Initial)
    (hrun : Run (ProtocolStep settings) w₀ (before ++ t :: mid) w)
    (hspare : ∀ t' ∈ before ++ t :: mid, SparesOwners t'.pre t'.label)
    (hcompletes : CompletesHeldAt settings scope completion t) :
    ∃ a kept, t.pre.attempts completion.leaseId = some a ∧ a.held = some kept ∧
      (∀ result, completion.response = .tts result →
        kept.audio.audio.duration = result.duration) ∧
      ∀ now, w.clock ≤ now → now < kept.expiresAt →
        ∃ row, fetch w.db completion.response.requestId scope.actor.id now = some row ∧
          row.audio = kept.audio.audio.bytes := by
  obtain ⟨_, hstep, hmid⟩ := hrun.split_mem
  have howned : OwnedAudio w :=
    (hrun.restrict (fun t' => SparesOwners t'.pre t'.label) hspare).invariant OwnedAudio
      (fun _ _ _ hinv hok => hinv.step hok.1 hok.2) (OwnedAudio.initial hinit)
  obtain ⟨a, kept, ha, hkept, hscope, hid, hduration⟩ := hcompletes.kept hstep
  refine ⟨a, kept, ha, hkept, hduration, ?_⟩
  intro now hnow hbefore
  obtain ⟨⟨hop, _, hout⟩, _⟩ := hcompletes
  have hpost : HasCompleted completion.leaseId a kept t.post := by
    have hout' : t.pre.outcome settings t.label = .done := hout
    refine ⟨{ a with completed := true }, ?_, ⟨rfl, rfl, rfl⟩, hkept, rfl⟩
    rw [hstep.eq_next]
    simp [World.next, recordAttempt, hop, hout', ha]
  obtain ⟨b, hb, ⟨hbscope, hbid, _⟩, hbkept, hbcompleted⟩ :=
    hmid.invariant (HasCompleted completion.leaseId a kept) (fun _ _ _ => hasCompleted_step) hpost
  obtain ⟨hkeptId, hkeptOwner⟩ := howned.grant _ b kept hb hbkept
  obtain ⟨row, hrow, howner, hexpires, hbytes⟩ :=
    howned.served _ b kept hb hbkept (.inl hbcompleted) (by omega)
  refine ⟨row, fetch_eq_some.mpr ⟨?_, ?_, ?_⟩, hbytes⟩
  · rw [hid, ← hrow, hkeptId, hbid]
  · rw [howner, hkeptOwner, hbscope, hscope]
  · omega

/-- An attempt holds its audio and outlives its lease; another one reclaims the record and holds
audio of its own. -/
def reclaimedEvents : List StoreEvent :=
  heldEvents ++
    [⟨.claim (sampleClaim sampleScope 1), .at 700000000⟩,
      ⟨.startJob (sampleJob sampleScope 1), .at 700000010⟩,
      ⟨.hold (sampleLease 1) (sampleAudio sampleScope 2), .at 700000020⟩]

/-- Its completion, with the expiry of the first attempt's row, which the second hold keeps. -/
def reclaimedCompletion : IdempotencyCompletion where
  scope := sampleScope
  leaseId := sampleLease 1
  response := .tts (sampleHeldResult (30 + sampleSettings.ttl))

/-- The transition in which it completes. -/
def reclaimedTransition : StoreTransition :=
  let w := sampleWorld.after sampleSettings reclaimedEvents
  let e : StoreEvent := ⟨.complete reclaimedCompletion, .at 700000030⟩
  ⟨w, e, w.next sampleSettings e⟩

/-- The winner's hold replaces the bytes of an attempt that has lost its lease, and of no owner. -/
theorem heldBytes_of_completion_sample :
    ∃ a kept, reclaimedTransition.pre.attempts (sampleLease 1) = some a ∧ a.held = some kept ∧
      (∀ result, reclaimedCompletion.response = .tts result →
        kept.audio.audio.duration = result.duration) ∧
      ∀ now, reclaimedTransition.post.clock ≤ now → now < kept.expiresAt →
        ∃ row, fetch reclaimedTransition.post.db reclaimedCompletion.response.requestId
            sampleScope.actor.id now = some row ∧ row.audio = kept.audio.audio.bytes := by
  have hrun : Run (ProtocolStep sampleSettings) sampleWorld
      (transitions sampleSettings sampleWorld reclaimedEvents ++ reclaimedTransition :: [])
      reclaimedTransition.post :=
    (protocolRun_transitions (by decide)).append
      (.single ⟨⟨by decide, by decide, trivial, rfl⟩, by decide⟩)
  refine heldBytes_of_completion sampleWorld_initial hrun ?_
    ⟨⟨rfl, rfl, by decide⟩, _, _, _, _, rfl, rfl⟩
  intro t ht attempt audio hop other a kept hne ha hkept howns
  simp only [transitions, reclaimedEvents, heldEvents, play, List.cons_append, List.nil_append,
    List.mem_cons, List.not_mem_nil, or_false] at ht
  rcases ht with rfl | rfl | rfl | rfl | rfl | rfl | rfl
  · cases hop
  · cases hop
  · cases hop
    -- Only one lease has been granted when the first attempt holds.
    have hnone : Function.update (Function.update sampleWorld.attempts (sampleLease 0) _)
        (sampleLease 0) _ other = some a := ha
    rw [Function.update_of_ne hne, Function.update_of_ne hne] at hnone
    cases hnone
  · cases hop
  · cases hop
  · cases hop
    by_cases hfirst : other = sampleLease 0
    · -- The first attempt has not completed, and the record is under the second lease.
      subst hfirst
      obtain rfl : heldEntry = a := Option.some.inj ha
      rcases howns with hcompleted | ⟨row, hrow, htoken⟩
      · cases hcompleted
      · obtain rfl := Option.some.inj hrow
        exact absurd htoken (by decide)
    · have hnone : Function.update (Function.update (Function.update (Function.update
          (Function.update sampleWorld.attempts (sampleLease 0) _) (sampleLease 0) _)
          (sampleLease 0) _) (sampleLease 1) _) (sampleLease 1) _ other = some a := ha
      rw [Function.update_of_ne hne, Function.update_of_ne hne, Function.update_of_ne hfirst,
        Function.update_of_ne hfirst, Function.update_of_ne hfirst] at hnone
      cases hnone
  · cases hop

/-- An attempt outlives its lease, another one reclaims the record, holds its own audio and
completes, and then the first one holds. -/
def staleEvents : List StoreEvent :=
  [⟨.claim (sampleClaim sampleScope 0), .at 10⟩,
    ⟨.startJob (sampleJob sampleScope 0), .at 20⟩,
    ⟨.claim (sampleClaim sampleScope 1), .at 700000000⟩,
    ⟨.startJob (sampleJob sampleScope 1), .at 700000010⟩,
    ⟨.hold (sampleLease 1) (sampleAudio sampleScope 2), .at 700000020⟩]

/-- The completion of the second attempt. -/
def staleCompletion : IdempotencyCompletion where
  scope := sampleScope
  leaseId := sampleLease 1
  response := .tts (sampleHeldResult (700000020 + sampleSettings.ttl))

/-- The transition in which the second attempt completes. -/
def staleTransition : StoreTransition :=
  let w := sampleWorld.after sampleSettings staleEvents
  let e : StoreEvent := ⟨.complete staleCompletion, .at 700000030⟩
  ⟨w, e, w.next sampleSettings e⟩

/-- The late hold of the first attempt. -/
def staleHold : StoreEvent := ⟨.hold (sampleLease 0) (sampleAudio sampleScope 1), .at 700000040⟩

/-- **A late hold replaces the winner's bytes.** -/
theorem not_forall_heldBytes :
    ¬ ∀ (settings : IdempotencySettings) (scope : IdempotencyScope) (w₀ w : World)
      (before mid : List StoreTransition) (t : StoreTransition)
      (completion : IdempotencyCompletion), w₀.Initial →
      Run (ProtocolStep settings) w₀ (before ++ t :: mid) w →
      CompletesHeldAt settings scope completion t →
      ∀ a kept, t.pre.attempts completion.leaseId = some a → a.held = some kept →
        ∀ now, w.clock ≤ now → now < kept.expiresAt →
          ∃ row, fetch w.db completion.response.requestId scope.actor.id now = some row ∧
            row.audio = kept.audio.audio.bytes := by
  intro h
  have hrun : Run (ProtocolStep sampleSettings) sampleWorld
      (transitions sampleSettings sampleWorld staleEvents ++ staleTransition ::
        transitions sampleSettings staleTransition.post [staleHold])
      (staleTransition.post.after sampleSettings [staleHold]) := by
    refine (protocolRun_transitions (by decide)).append (.cons ?_ ?_)
    · exact ⟨⟨by decide, by decide, trivial, rfl⟩, by decide⟩
    · exact protocolRun_transitions (by decide)
  have hcompletes : CompletesHeldAt sampleSettings sampleScope staleCompletion staleTransition :=
    ⟨⟨rfl, rfl, by decide⟩, _, _, _, _, rfl, rfl⟩
  obtain ⟨row, hrow, hbytes⟩ := h _ _ _ _ _ _ _ _ sampleWorld_initial hrun hcompletes
    ⟨sampleScope, sampleRequestId, 10, true,
      some ⟨sampleAudio sampleScope 2, 700000020, 700000020 + sampleSettings.ttl⟩, false⟩
    ⟨sampleAudio sampleScope 2, 700000020, 700000020 + sampleSettings.ttl⟩ rfl rfl 700000040
    (by decide) (by decide)
  have hserved : (fetch (staleTransition.post.after sampleSettings [staleHold]).db
      sampleRequestId sampleScope.actor.id 700000040).map HeldRow.audio = some [73, 68, 51, 1] := by
    decide
  have hserved' := (congrArg (Option.map HeldRow.audio) hrow).symm.trans hserved
  rw [Option.map_some, hbytes] at hserved'
  exact absurd hserved' (by decide)

end Waveform.Store
