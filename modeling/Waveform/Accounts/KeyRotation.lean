import Waveform.Accounts.SigningKeys
import Mathlib.Tactic.Convert

/-!
# Key rotation

Two timestamps decide between the held and a fresh key set. The fetch that the last forced one
started answers for every token that is refused without a fetch of its own: what it brought is no
older than its start, and its start is less than an interval back.

- `SigningKeys.Inv.step`: a call asks again only when a key set is held, so the limit on forced
  fetches applies to it.
- `SigningKeys.Timely.step`: unless the last forced fetch failed, the held key set has what was
  published when it started.
- `keys_rotate`: the guarantees of every run.
-/

set_option autoImplicit false

namespace Waveform.Accounts

open LabelledRun

/-- The client library does not call a key unknown that is in the set. -/
def KnownKeys (verify : Jwks → String → TokenResult) (tokenKid : String → Option String) : Prop :=
  ∀ keys token kid, tokenKid token = some kid → keys.has kid = true →
    verify keys token ≠ .unknownKey

/-! ## Key sets at hand -/

section JwksState

variable {state : JwksState} {now : ℚ} {unknownKid : Bool} {keys : Jwks}

theorem JwksState.readable_eq_some (h : state.readable now unknownKid = some keys) :
    state.keys = some keys ∧ unknownKid = false := by
  unfold readable at h
  split at h
  · rename_i held fetchedAt hkeys _
    split at h
    · rename_i hyoung
      have hknown := (Bool.and_eq_true_iff.mp hyoung).1
      exact ⟨by rw [hkeys, Option.some.inj h], by simpa using hknown⟩
    · cases h
  · cases h

theorem JwksState.usable_eq_some (h : state.usable now unknownKid = some keys) :
    state.keys = some keys ∧ (unknownKid = true → state.recentlyForced now = true) := by
  unfold usable at h
  split at h
  · rename_i held fetchedAt hkeys _
    split at h
    · rename_i huse
      refine ⟨by rw [hkeys, Option.some.inj h], ?_⟩
      intro hunknown
      simpa [hunknown] using huse
    · cases h
  · cases h

/-- A call that asks again fetches only when the last forced fetch is an interval back. -/
theorem JwksState.not_recentlyForced (h : state.usable now true = none)
    (hkeys : state.keys.isSome = true) (hfetched : state.fetchedAt.isSome = true) :
    state.recentlyForced now = false := by
  obtain ⟨held, hheld⟩ := Option.isSome_iff_exists.mp hkeys
  obtain ⟨fetchedAt, hat⟩ := Option.isSome_iff_exists.mp hfetched
  simp only [usable, hheld, hat] at h
  split at h
  · cases h
  · rename_i hnot
    simpa using hnot

end JwksState

section Verify

variable {verify : Jwks → String → TokenResult} {now took : ℚ} {unknownKid : Bool} {keys : Jwks}
  {token : String}

/-- Only a call that asked again is refused, then and there. -/
theorem afterKeys_eq_refused {moment took' : ℚ}
    (h : afterKeys verify now took unknownKid keys token = .refused moment took') :
    unknownKid = true ∧ verify keys token = .unknownKey ∧ moment = now ∧ took' = took := by
  unfold afterKeys at h
  split at h
  · rename_i hunknown
    cases unknownKid with
    | false => cases h
    | true =>
        cases h
        exact ⟨rfl, hunknown, rfl, rfl⟩
  · cases h

end Verify

namespace SigningKeys

variable {verify : Jwks → String → TokenResult} {s s' : SigningKeys} {a : KeyAction} {i : Nat}
  {call : VerifyCall}

/-! ## Steps -/

/-- What a step does. -/
theorem step_cases (h : Step verify s a s') :
    (∃ duration, a = .tick duration ∧ 0 ≤ duration ∧ s' = { s with now := s.now + duration }) ∨
    (∃ keys, a = .publish keys ∧
      s' = { s with published := keys, since := s.sinceAfter keys }) ∨
    (∃ token, a = .start token ∧ s' = { s with calls := s.calls ++ [⟨token, .reading false⟩] }) ∨
    (∃ i call unknownKid, a = .read i ∧ s.fetch = none ∧ s.calls[i]? = some call ∧
      call.phase = .reading unknownKid ∧ s' = s.readKeys verify i call unknownKid) ∨
    (∃ i call unknownKid, a = .lock i ∧ s.fetch = none ∧ s.calls[i]? = some call ∧
      call.phase = .waiting unknownKid ∧ s' = s.lockKeys verify i call unknownKid) ∨
    (∃ fetch, a = .serve ∧ s.fetch = some fetch ∧
      s' = { s with fetch := some { fetch with answer := some s.published } }) ∨
    (∃ fetch call keys, a = .receive ∧ s.fetch = some fetch ∧ s.calls[fetch.caller]? = some call ∧
      fetch.answer = some keys ∧ s' = s.receiveKeys verify fetch call keys) ∨
    (∃ fetch call, a = .fail ∧ s.fetch = some fetch ∧ s.calls[fetch.caller]? = some call ∧
      s' = s.failFetch verify fetch call) ∨
    ∃ i call, a = .drop i ∧ s.calls[i]? = some call ∧
      s' = { s.setPhase i call .dropped with
        fetch := s.fetch.filter fun fetch => decide (fetch.caller ≠ i) } := by
  obtain ⟨henabled, rfl⟩ := h
  cases a with
  | tick duration => exact .inl ⟨duration, rfl, henabled, rfl⟩
  | publish keys => exact .inr (.inl ⟨keys, rfl, rfl⟩)
  | start token => exact .inr (.inr (.inl ⟨token, rfl, rfl⟩))
  | read i =>
      obtain ⟨hfree, hcall⟩ := henabled
      obtain ⟨⟨token, phase⟩, hcall, hphase⟩ := (Option.any_eq_true _ _).mp hcall
      cases phase with
      | reading unknownKid =>
          refine .inr (.inr (.inr (.inl ⟨i, ⟨token, .reading unknownKid⟩, unknownKid, rfl,
            Option.isNone_iff_eq_none.mp hfree, hcall, rfl, ?_⟩)))
          simp only [next, hcall]
      | _ => cases hphase
  | lock i =>
      obtain ⟨hfree, hcall⟩ := henabled
      obtain ⟨⟨token, phase⟩, hcall, hphase⟩ := (Option.any_eq_true _ _).mp hcall
      cases phase with
      | waiting unknownKid =>
          refine .inr (.inr (.inr (.inr (.inl ⟨i, ⟨token, .waiting unknownKid⟩, unknownKid, rfl,
            Option.isNone_iff_eq_none.mp hfree, hcall, rfl, ?_⟩))))
          simp only [next, hcall]
      | _ => cases hphase
  | serve =>
      obtain ⟨fetch, hfetch⟩ := Option.isSome_iff_exists.mp henabled
      refine .inr (.inr (.inr (.inr (.inr (.inl ⟨fetch, rfl, hfetch, ?_⟩)))))
      simp only [next, hfetch]
  | receive =>
      obtain ⟨fetch, hfetch, hready⟩ := (Option.any_eq_true _ _).mp henabled
      obtain ⟨hanswer, hcall⟩ := Bool.and_eq_true_iff.mp hready
      obtain ⟨keys, hanswer⟩ := Option.isSome_iff_exists.mp hanswer
      obtain ⟨call, hcall⟩ := Option.isSome_iff_exists.mp hcall
      refine .inr (.inr (.inr (.inr (.inr (.inr (.inl
        ⟨fetch, call, keys, rfl, hfetch, hcall, hanswer, ?_⟩))))))
      simp only [next, hfetch, hanswer, hcall]
  | fail =>
      obtain ⟨fetch, hfetch, hcall⟩ := (Option.any_eq_true _ _).mp henabled
      obtain ⟨call, hcall⟩ := Option.isSome_iff_exists.mp hcall
      refine .inr (.inr (.inr (.inr (.inr (.inr (.inr (.inl
        ⟨fetch, call, rfl, hfetch, hcall, ?_⟩)))))))
      simp only [next, hfetch, hcall]
  | drop i =>
      obtain ⟨call, hcall, -⟩ := (Option.any_eq_true _ _).mp henabled
      refine .inr (.inr (.inr (.inr (.inr (.inr (.inr (.inr ⟨i, call, rfl, hcall, ?_⟩)))))))
      simp only [next, hcall]

/-- The clock does not go back. -/
theorem now_le_of_step (h : Step verify s a s') : s.now ≤ s'.now := by
  rcases step_cases h with ⟨duration, -, hnonneg, rfl⟩ | ⟨_, -, rfl⟩ | ⟨_, -, rfl⟩ |
    ⟨_, _, _, -, -, -, -, rfl⟩ | ⟨_, _, _, -, -, -, -, rfl⟩ | ⟨_, -, -, rfl⟩ |
    ⟨_, _, _, -, -, -, -, rfl⟩ | ⟨_, _, -, -, -, rfl⟩ | ⟨_, _, -, -, rfl⟩
  · exact le_add_of_nonneg_right hnonneg
  · exact le_rfl
  · exact le_rfl
  · unfold readKeys
    split <;> exact le_rfl
  · unfold lockKeys
    split <;> exact le_rfl
  · exact le_rfl
  · exact le_rfl
  · exact le_rfl
  · exact le_rfl

/-! ## Forced fetches -/

/-- A call asks again only when a key set is held. -/
structure Inv (s : SigningKeys) : Prop where
  loaded : s.jwks.keys.isSome = true → s.jwks.fetchedAt.isSome = true
  again : ∀ call ∈ s.calls, call.phase.again = true → s.jwks.keys.isSome = true
  fetching : ∀ fetch, s.fetch = some fetch → fetch.unknownKid = true → s.jwks.keys.isSome = true
  forced : ∀ moment, s.jwks.lastForced = some moment → moment ≤ s.now

theorem Init.inv (h : s.Init) : s.Inv where
  loaded := by simp [h.jwks]
  again := by simp [h.calls]
  fetching := by simp [h.fetch]
  forced := by simp [h.jwks]

theorem Inv.setPhase (h : s.Inv) {phase : VerifyPhase}
    (hagain : phase.again = true → s.jwks.keys.isSome = true) : (s.setPhase i call phase).Inv where
  loaded := h.loaded
  again other hother hphase := by
    rcases List.mem_or_eq_of_mem_set hother with hother | rfl
    · exact h.again other hother hphase
    · exact hagain hphase
  fetching := h.fetching
  forced := h.forced

/-- A phase that comes from a key set is right to ask again when the set is held. -/
theorem again_of_afterKeys {now took : ℚ} {unknownKid : Bool} {keys : Jwks} {token : String}
    (hkeys : s.jwks.keys = some keys) :
    (afterKeys verify now took unknownKid keys token).again = true → s.jwks.keys.isSome = true := by
  intro _
  rw [hkeys]
  rfl

theorem Inv.readKeys (h : s.Inv) {unknownKid : Bool} (hcall : s.calls[i]? = some call)
    (hphase : call.phase = .reading unknownKid) : (s.readKeys verify i call unknownKid).Inv := by
  unfold SigningKeys.readKeys
  split
  · rename_i keys hread
    exact h.setPhase (again_of_afterKeys (JwksState.readable_eq_some hread).1)
  · apply h.setPhase
    intro hagain
    apply h.again call (List.mem_of_getElem? hcall)
    rw [hphase]
    exact hagain

theorem Inv.lockKeys (h : s.Inv) {unknownKid : Bool} (hcall : s.calls[i]? = some call)
    (hphase : call.phase = .waiting unknownKid) : (s.lockKeys verify i call unknownKid).Inv := by
  unfold SigningKeys.lockKeys
  split
  · rename_i keys huse
    exact h.setPhase (again_of_afterKeys (JwksState.usable_eq_some huse).1)
  · have hmoved : (s.setPhase i call .fetching).Inv := h.setPhase nofun
    have hkeys : unknownKid = true → s.jwks.keys.isSome = true := by
      intro hunknown
      apply h.again call (List.mem_of_getElem? hcall)
      rw [hphase, hunknown]
      rfl
    cases unknownKid with
    | false =>
        refine ⟨hmoved.loaded, hmoved.again, ?_, hmoved.forced⟩
        rintro fetch ⟨⟩ hunknown
        cases hunknown
    | true =>
        refine ⟨hmoved.loaded, hmoved.again, ?_, ?_⟩
        · rintro fetch ⟨⟩ -
          exact hkeys rfl
        · rintro moment ⟨⟩
          exact le_refl s.now

theorem Inv.receiveKeys (h : s.Inv) (fetch : KeyFetch) (call : VerifyCall) (keys : Jwks) :
    (s.receiveKeys verify fetch call keys).Inv where
  loaded _ := rfl
  again _ _ _ := rfl
  fetching := nofun
  forced := h.forced

theorem Inv.failFetch (h : s.Inv) (fetch : KeyFetch) (call : VerifyCall) :
    (s.failFetch verify fetch call).Inv := by
  have hmoved : ∀ phase : VerifyPhase, (phase.again = true → s.jwks.keys.isSome = true) →
      ({ s.setPhase fetch.caller call phase with fetch := none } : SigningKeys).Inv := by
    intro phase hagain
    have hphase : (s.setPhase fetch.caller call phase).Inv := h.setPhase hagain
    exact ⟨hphase.loaded, hphase.again, nofun, hphase.forced⟩
  unfold SigningKeys.failFetch
  cases hkeys : s.jwks.keys with
  | some keys => exact hmoved _ (again_of_afterKeys hkeys)
  | none => exact hmoved _ nofun

/-- Each step keeps the invariant. -/
theorem Inv.step (h : s.Inv) (hstep : Step verify s a s') : s'.Inv := by
  rcases step_cases hstep with ⟨duration, -, hnonneg, rfl⟩ | ⟨_, -, rfl⟩ | ⟨_, -, rfl⟩ |
    ⟨i, call, unknownKid, -, -, hcall, hphase, rfl⟩ |
    ⟨i, call, unknownKid, -, -, hcall, hphase, rfl⟩ | ⟨fetch, -, hfetch, rfl⟩ |
    ⟨fetch, call, keys, -, -, -, -, rfl⟩ | ⟨fetch, call, -, -, -, rfl⟩ | ⟨i, call, -, -, rfl⟩
  · refine ⟨h.loaded, h.again, h.fetching, fun moment hmoment => ?_⟩
    exact (h.forced moment hmoment).trans (le_add_of_nonneg_right hnonneg)
  · exact ⟨h.loaded, h.again, h.fetching, h.forced⟩
  · refine ⟨h.loaded, fun call hcall hagain => ?_, h.fetching, h.forced⟩
    rcases List.mem_append.mp hcall with hcall | hcall
    · exact h.again call hcall hagain
    · obtain rfl := List.mem_singleton.mp hcall
      cases hagain
  · exact h.readKeys hcall hphase
  · exact h.lockKeys hcall hphase
  · refine ⟨h.loaded, h.again, ?_, h.forced⟩
    rintro answered ⟨⟩ hunknown
    exact h.fetching fetch hfetch hunknown
  · exact h.receiveKeys fetch call keys
  · exact h.failFetch fetch call
  · have hmoved : (s.setPhase i call .dropped).Inv := h.setPhase nofun
    refine ⟨hmoved.loaded, hmoved.again, fun fetch hfetch => ?_, hmoved.forced⟩
    exact h.fetching fetch (Option.filter_eq_some_iff.mp hfetch).1

/-- A step that starts a forced fetch finds the last one an interval back, and records its own. -/
theorem Inv.startsForced (h : s.Inv) (hstep : Step verify s a s')
    (hforced : StartsForced ⟨s, a, s'⟩) :
    s.jwks.recentlyForced s.now = false ∧ s'.jwks.lastForced = some s.now := by
  obtain ⟨j, started, hlabel, hfetch⟩ := hforced
  rcases step_cases hstep with ⟨_, rfl, -, -⟩ | ⟨_, rfl, -⟩ | ⟨_, rfl, -⟩ |
    ⟨_, _, _, rfl, -, -, -, -⟩ | ⟨i, call, unknownKid, rfl, hfree, hcall, hphase, rfl⟩ |
    ⟨_, rfl, -, -⟩ | ⟨_, _, _, rfl, -, -, -, -⟩ | ⟨_, _, rfl, -, -, -⟩ | ⟨_, _, rfl, -, -⟩
  case inr.inr.inr.inr.inl =>
    unfold SigningKeys.lockKeys at hfetch ⊢
    split at hfetch
    · rw [show (SigningKeys.setPhase s i call _).fetch = s.fetch from rfl, hfree] at hfetch
      cases hfetch
    · rename_i hnone
      cases hfetch
      have hkeys : s.jwks.keys.isSome = true := by
        apply h.again call (List.mem_of_getElem? hcall)
        rw [hphase]
        rfl
      exact ⟨JwksState.not_recentlyForced hnone hkeys (h.loaded hkeys), rfl⟩
  all_goals cases hlabel

/-- The last forced fetch started at a moment or after it. -/
def ForcedSince (moment : ℚ) (s : SigningKeys) : Prop :=
  s.Inv ∧ moment ≤ s.now ∧ ∃ last, s.jwks.lastForced = some last ∧ moment ≤ last

theorem ForcedSince.step {moment : ℚ} (h : ForcedSince moment s) (hstep : Step verify s a s') :
    ForcedSince moment s' := by
  obtain ⟨hinv, hnow, last, hlast, hmoment⟩ := h
  refine ⟨hinv.step hstep, hnow.trans (now_le_of_step hstep), ?_⟩
  rcases step_cases hstep with ⟨_, -, -, rfl⟩ | ⟨_, -, rfl⟩ | ⟨_, -, rfl⟩ |
    ⟨_, _, _, -, -, -, -, rfl⟩ | ⟨_, _, unknownKid, -, -, -, -, rfl⟩ | ⟨_, -, -, rfl⟩ |
    ⟨_, _, _, -, -, -, -, rfl⟩ | ⟨_, _, -, -, -, rfl⟩ | ⟨_, _, -, -, rfl⟩
  · exact ⟨last, hlast, hmoment⟩
  · exact ⟨last, hlast, hmoment⟩
  · exact ⟨last, hlast, hmoment⟩
  · unfold readKeys
    split <;> exact ⟨last, hlast, hmoment⟩
  · unfold lockKeys
    split
    · exact ⟨last, hlast, hmoment⟩
    · cases unknownKid with
      | false => exact ⟨last, hlast, hmoment⟩
      | true => exact ⟨s.now, rfl, hnow⟩
  · exact ⟨last, hlast, hmoment⟩
  · exact ⟨last, hlast, hmoment⟩
  · exact ⟨last, hlast, hmoment⟩
  · exact ⟨last, hlast, hmoment⟩

/-- Two forced fetches start an interval apart. -/
theorem Inv.apart {t : SigningKeys} {tr mid : KeyRun}
    {first second : Transition SigningKeys KeyAction} (h : s.Inv) (hrun : Run (Step verify) s tr t)
    (horder : InOrder tr first mid second) (hfirst : StartsForced first)
    (hsecond : StartsForced second) :
    first.pre.now + jwksRefetchInterval ≤ second.pre.now := by
  obtain ⟨⟨before, hbefore⟩, hstep₁, hmid, hstep₂⟩ := hrun.inOrder horder
  have hpre : first.pre.Inv := hbefore.invariant Inv (fun _ _ _ => Inv.step) h
  obtain ⟨-, hrecord⟩ := hpre.startsForced hstep₁ hfirst
  have hsince : ForcedSince first.pre.now first.post :=
    ⟨hpre.step hstep₁, now_le_of_step hstep₁, first.pre.now, hrecord, le_rfl⟩
  obtain ⟨hinv, -, last, hlast, hmoment⟩ :=
    hmid.invariant (ForcedSince first.pre.now) (fun _ _ _ => ForcedSince.step) hsince
  obtain ⟨hnot, -⟩ := hinv.startsForced hstep₂ hsecond
  rw [JwksState.recentlyForced, hlast, Option.any_some, decide_eq_false_iff_not, not_lt] at hnot
  linarith

/-- A fetch that fails leaves the key set, and its call goes on with the set that is held. -/
theorem kept_of_fail (hstep : Step verify s .fail s') :
    s'.jwks = s.jwks ∧ ∀ fetch call keys, s.fetch = some fetch →
      s.calls[fetch.caller]? = some call → s.jwks.keys = some keys →
      s'.calls[fetch.caller]? = some { call with
        phase := afterKeys verify s.now (s.now - fetch.started) fetch.unknownKid keys
          call.token } := by
  rcases step_cases hstep with ⟨_, h, -, -⟩ | ⟨_, h, -⟩ | ⟨_, h, -⟩ | ⟨_, _, _, h, -, -, -, -⟩ |
    ⟨_, _, _, h, -, -, -, -⟩ | ⟨_, h, -, -⟩ | ⟨_, _, _, h, -, -, -, -⟩ |
    ⟨fetch, call, -, hfetch, hcall, rfl⟩ | ⟨_, _, h, -, -⟩
  case inr.inr.inr.inr.inr.inr.inr.inl =>
    refine ⟨rfl, ?_⟩
    intro other otherCall keys hother hotherCall hkeys
    obtain rfl := Option.some.inj (hfetch.symm.trans hother)
    obtain rfl := Option.some.inj (hcall.symm.trans hotherCall)
    obtain ⟨hlt, -⟩ := List.getElem?_eq_some_iff.mp hcall
    simp only [failFetch, SigningKeys.setPhase, hkeys]
    exact List.getElem?_set_self hlt
  all_goals cases h

/-! ## Refusals -/

/-- The key set has every key that Accounts has published, without a break, since before a moment
that is past. -/
def AsOf (s : SigningKeys) (moment : ℚ) (keys : Jwks) : Prop :=
  moment ≤ s.now ∧ ∀ kid since, s.since kid = some since → since < moment → keys.has kid = true

/-- The published keys are those of this moment. -/
def DatesPublished (s : SigningKeys) : Prop :=
  ∀ kid since, s.since kid = some since → since ≤ s.now ∧ s.published.has kid = true

/-- A refusal at a moment was no longer after the publication of the token's key than an interval
and the time of its own fetch, unless a fetch had failed late. -/
def RefusedInTime (tokenKid : String → Option String) (failed : List FailedFetch) (s : SigningKeys)
    (token : String) (moment took : ℚ) : Prop :=
  moment ≤ s.now ∧ 0 ≤ took ∧ (NoLateFailure failed moment took →
    ∀ kid since, tokenKid token = some kid → s.since kid = some since →
      moment ≤ since + jwksRefetchInterval + took)

variable {tokenKid : String → Option String} {failed : List FailedFetch}

/-- Next to the fetches that failed: the fetch under way started after the last forced one and is
answered with keys of a moment after its start, and unless the last forced one is under way or
failed, the held keys are those of a moment after its start. -/
structure Timely (tokenKid : String → Option String) (failed : List FailedFetch) (s : SigningKeys) :
    Prop where
  inv : s.Inv
  dates : s.DatesPublished
  past : ∀ f ∈ failed, f.ended ≤ s.now
  started : ∀ fetch, s.fetch = some fetch → fetch.started ≤ s.now ∧
    ∀ forced, s.jwks.lastForced = some forced → forced ≤ fetch.started
  answered : ∀ fetch keys, s.fetch = some fetch → fetch.answer = some keys →
    ∃ moment, fetch.started ≤ moment ∧ s.AsOf moment keys
  held : ∀ forced keys, s.jwks.lastForced = some forced → s.jwks.keys = some keys →
    (∀ fetch, s.fetch = some fetch → fetch.started ≠ forced) → (∀ f ∈ failed, f.started ≠ forced) →
      ∃ moment, forced ≤ moment ∧ s.AsOf moment keys
  refused : ∀ call ∈ s.calls, ∀ moment took, call.phase = .refused moment took →
    RefusedInTime tokenKid failed s call.token moment took

theorem Init.timely (h : s.Init) : s.Timely tokenKid [] where
  inv := h.inv
  dates kid since hsince := by
    refine ⟨h.past kid since hsince, ?_⟩
    rw [← h.since kid, hsince]
    rfl
  past := nofun
  started := by simp [h.fetch]
  answered := by simp [h.fetch]
  held := by simp [h.jwks]
  refused := by simp [h.calls]

/-- What was published without a break stays so when time passes. -/
theorem AsOf.tick {moment duration : ℚ} {keys : Jwks} (h : s.AsOf moment keys)
    (hnonneg : 0 ≤ duration) :
    ({ s with now := s.now + duration } : SigningKeys).AsOf moment keys :=
  ⟨h.1.trans (le_add_of_nonneg_right hnonneg), h.2⟩

/-- A key id that is published after Accounts publishes a set was published before, or is new. -/
theorem sinceAfter_eq_some {keys : Jwks} {kid : String} {since : ℚ}
    (h : s.sinceAfter keys kid = some since) :
    keys.has kid = true ∧ (s.since kid = some since ∨ since = s.now) := by
  unfold sinceAfter at h
  split at h
  · rename_i hhas
    refine ⟨hhas, ?_⟩
    cases hbefore : s.since kid with
    | some before =>
        rw [hbefore] at h
        exact .inl h
    | none =>
        rw [hbefore] at h
        exact .inr (Option.some.inj h).symm
  · cases h

theorem AsOf.publish {moment : ℚ} {keys published : Jwks} (h : s.AsOf moment keys) :
    ({ s with published := published, since := s.sinceAfter published } : SigningKeys).AsOf moment
      keys := by
  refine ⟨h.1, fun kid since hsince hlt => ?_⟩
  rcases (sinceAfter_eq_some hsince).2 with hbefore | rfl
  · exact h.2 kid since hbefore hlt
  · exact absurd h.1 (not_le.mpr hlt)

/-- A key that a set of a moment lacks was not published before that moment. -/
theorem AsOf.le_since {moment since : ℚ} {keys : Jwks} {token kid : String}
    (h : s.AsOf moment keys) (hverify : KnownKeys verify tokenKid)
    (hunknown : verify keys token = .unknownKey) (hkid : tokenKid token = some kid)
    (hsince : s.since kid = some since) : moment ≤ since := by
  apply le_of_not_gt
  intro hlt
  exact hverify keys token kid hkid (h.2 kid since hsince hlt) hunknown

/-- A call goes on, or is refused in time. -/
theorem Timely.setPhase (h : s.Timely tokenKid failed) {phase : VerifyPhase}
    (hinv : (s.setPhase i call phase).Inv)
    (hrefused : ∀ moment took, phase = .refused moment took →
      RefusedInTime tokenKid failed s call.token moment took) :
    (s.setPhase i call phase).Timely tokenKid failed where
  inv := hinv
  dates := h.dates
  past := h.past
  started := h.started
  answered := h.answered
  held := h.held
  refused other hother moment took hphase := by
    rcases List.mem_or_eq_of_mem_set hother with hother | rfl
    · exact h.refused other hother moment took hphase
    · exact hrefused moment took hphase

theorem Timely.readKeys (h : s.Timely tokenKid failed) {unknownKid : Bool}
    (hcall : s.calls[i]? = some call) (hphase : call.phase = .reading unknownKid) :
    (s.readKeys verify i call unknownKid).Timely tokenKid failed := by
  have hinv : (s.readKeys verify i call unknownKid).Inv := h.inv.readKeys hcall hphase
  unfold SigningKeys.readKeys at hinv ⊢
  split at hinv
  · rename_i keys hread
    apply h.setPhase hinv
    intro moment took heq
    -- under the read lock only the first answer is given
    have hagain := (afterKeys_eq_refused heq).1
    rw [(JwksState.readable_eq_some hread).2] at hagain
    cases hagain
  · exact h.setPhase hinv nofun

theorem Timely.lockKeys (h : s.Timely tokenKid failed) (hverify : KnownKeys verify tokenKid)
    {unknownKid : Bool} (hfree : s.fetch = none) (hcall : s.calls[i]? = some call)
    (hphase : call.phase = .waiting unknownKid) :
    (s.lockKeys verify i call unknownKid).Timely tokenKid failed := by
  have hinv : (s.lockKeys verify i call unknownKid).Inv := h.inv.lockKeys hcall hphase
  unfold SigningKeys.lockKeys at hinv ⊢
  split at hinv
  · rename_i keys huse
    apply h.setPhase hinv
    intro moment took heq
    obtain ⟨hunknown, hnokey, rfl, rfl⟩ := afterKeys_eq_refused heq
    obtain ⟨hkeys, hrecent⟩ := JwksState.usable_eq_some huse
    obtain ⟨forced, hforced, hyoung⟩ := (Option.any_eq_true _ _).mp (hrecent hunknown)
    have hless := of_decide_eq_true hyoung
    refine ⟨le_rfl, le_rfl, fun hnofail kid since hkid hsince => ?_⟩
    -- the last forced fetch is recent, so it is none of those that failed
    have hothers : ∀ f ∈ failed, f.started ≠ forced := by
      rintro f hf rfl
      have hearly := hnofail f hf (h.past f hf)
      linarith
    obtain ⟨asOf, hafter, hasOf⟩ := h.held forced keys hforced hkeys (by simp [hfree]) hothers
    have hlate := hasOf.le_since hverify hnokey hkid hsince
    linarith
  · refine ⟨hinv, h.dates, h.past, ?_, ?_, ?_, ?_⟩
    · rintro fetch ⟨⟩
      refine ⟨le_refl s.now, fun forced hforced => ?_⟩
      cases unknownKid with
      | false => exact h.inv.forced forced hforced
      | true => exact le_of_eq (Option.some.inj hforced).symm
    · rintro fetch keys ⟨⟩ hanswer
      cases hanswer
    · intro forced keys hforced hkeys hunder hothers
      cases unknownKid with
      | false => exact h.held forced keys hforced hkeys (by simp [hfree]) hothers
      | true => exact absurd (Option.some.inj hforced) (hunder _ rfl)
    · intro other hother moment took heq
      rcases List.mem_or_eq_of_mem_set hother with hother | rfl
      · exact h.refused other hother moment took heq
      · cases heq

theorem Timely.receiveKeys (h : s.Timely tokenKid failed) (hverify : KnownKeys verify tokenKid)
    {fetch : KeyFetch} {keys : Jwks} (hfetch : s.fetch = some fetch)
    (hanswer : fetch.answer = some keys) :
    (s.receiveKeys verify fetch call keys).Timely tokenKid failed := by
  obtain ⟨hstarted, hforced⟩ := h.started fetch hfetch
  obtain ⟨asOf, hafter, hasOf⟩ := h.answered fetch keys hfetch hanswer
  refine ⟨h.inv.receiveKeys fetch call keys, h.dates, h.past, nofun, nofun, ?_, ?_⟩
  · rintro forced held hlast ⟨⟩ - -
    exact ⟨asOf, (hforced forced hlast).trans hafter, hasOf⟩
  · intro other hother moment took heq
    rcases List.mem_or_eq_of_mem_set hother with hother | rfl
    · exact h.refused other hother moment took heq
    · obtain ⟨-, hnokey, rfl, rfl⟩ := afterKeys_eq_refused heq
      refine ⟨le_refl s.now, sub_nonneg.mpr hstarted, fun _ kid since hkid hsince => ?_⟩
      have hlate := hasOf.le_since hverify hnokey hkid hsince
      have hinterval : (0 : ℚ) ≤ jwksRefetchInterval := by norm_num [jwksRefetchInterval]
      linarith

/-- Each step by which no fetch fails keeps what the refusals rest on. -/
theorem Timely.step_answered (h : s.Timely tokenKid failed) (hverify : KnownKeys verify tokenKid)
    (hstep : Step verify s a s') (hfail : a ≠ .fail) (hdrop : ∀ i, a ≠ .drop i) :
    s'.Timely tokenKid failed := by
  have hinv : s'.Inv := h.inv.step hstep
  rcases step_cases hstep with ⟨duration, -, hnonneg, rfl⟩ | ⟨published, -, rfl⟩ |
    ⟨token, -, rfl⟩ | ⟨i, call, unknownKid, -, -, hcall, hphase, rfl⟩ |
    ⟨i, call, unknownKid, -, hfree, hcall, hphase, rfl⟩ | ⟨fetch, -, hfetch, rfl⟩ |
    ⟨fetch, call, keys, -, hfetch, -, hanswer, rfl⟩ | ⟨_, _, rfl, -, -, -⟩ | ⟨i, call, rfl, -, rfl⟩
  · -- time passes
    have hlater : s.now ≤ s.now + duration := le_add_of_nonneg_right hnonneg
    refine ⟨hinv, ?_, fun f hf => (h.past f hf).trans hlater, ?_, ?_, ?_, ?_⟩
    · intro kid since hsince
      obtain ⟨hpast, hhas⟩ := h.dates kid since hsince
      exact ⟨hpast.trans hlater, hhas⟩
    · intro fetch hfetch
      obtain ⟨hstarted, hforced⟩ := h.started fetch hfetch
      exact ⟨hstarted.trans hlater, hforced⟩
    · intro fetch keys hfetch hanswer
      obtain ⟨moment, hafter, hasOf⟩ := h.answered fetch keys hfetch hanswer
      exact ⟨moment, hafter, hasOf.tick hnonneg⟩
    · intro forced keys hforced hkeys hunder hothers
      obtain ⟨moment, hafter, hasOf⟩ := h.held forced keys hforced hkeys hunder hothers
      exact ⟨moment, hafter, hasOf.tick hnonneg⟩
    · intro call hcall moment took heq
      obtain ⟨hpast, hrest⟩ := h.refused call hcall moment took heq
      exact ⟨hpast.trans hlater, hrest⟩
  · -- Accounts publishes another set
    refine ⟨hinv, ?_, h.past, h.started, ?_, ?_, ?_⟩
    · intro kid since hsince
      obtain ⟨hhas, hbefore | rfl⟩ := sinceAfter_eq_some hsince
      · exact ⟨(h.dates kid since hbefore).1, hhas⟩
      · exact ⟨le_refl s.now, hhas⟩
    · intro fetch keys hfetch hanswer
      obtain ⟨moment, hafter, hasOf⟩ := h.answered fetch keys hfetch hanswer
      exact ⟨moment, hafter, hasOf.publish⟩
    · intro forced keys hforced hkeys hunder hothers
      obtain ⟨moment, hafter, hasOf⟩ := h.held forced keys hforced hkeys hunder hothers
      exact ⟨moment, hafter, hasOf.publish⟩
    · intro call hcall moment took heq
      obtain ⟨hpast, htook, hrefused⟩ := h.refused call hcall moment took heq
      refine ⟨hpast, htook, fun hnofail kid since hkid hsince => ?_⟩
      rcases (sinceAfter_eq_some hsince).2 with hbefore | rfl
      · exact hrefused hnofail kid since hkid hbefore
      · have hinterval : (0 : ℚ) ≤ jwksRefetchInterval := by norm_num [jwksRefetchInterval]
        linarith
  · refine ⟨hinv, h.dates, h.past, h.started, h.answered, h.held, ?_⟩
    intro call hcall moment took heq
    rcases List.mem_append.mp hcall with hcall | hcall
    · exact h.refused call hcall moment took heq
    · obtain rfl := List.mem_singleton.mp hcall
      cases heq
  · exact h.readKeys hcall hphase
  · exact h.lockKeys hverify hfree hcall hphase
  · -- Accounts answers with what it publishes now
    refine ⟨hinv, h.dates, h.past, ?_, ?_, ?_, h.refused⟩
    · rintro answered ⟨⟩
      exact h.started fetch hfetch
    · rintro answered keys ⟨⟩ ⟨⟩
      refine ⟨s.now, (h.started fetch hfetch).1, le_refl s.now, fun kid since hsince _ => ?_⟩
      exact (h.dates kid since hsince).2
    · intro forced keys hforced hkeys hunder hothers
      refine h.held forced keys hforced hkeys ?_ hothers
      intro other hother
      obtain rfl := Option.some.inj (hfetch.symm.trans hother)
      exact hunder { fetch with answer := some s.published } rfl
  · exact h.receiveKeys hverify hfetch hanswer
  · exact absurd rfl hfail
  · exact absurd rfl (hdrop i)

/-- A fetch that ends without its answer leaves the held keys, and is one of those that failed. -/
theorem Timely.endFetch (h : s.Timely tokenKid failed) {fetch : KeyFetch}
    (hfetch : s.fetch = some fetch) :
    ({ s with fetch := none } : SigningKeys).Timely tokenKid
      (failed ++ [⟨fetch.started, s.now⟩]) := by
  refine ⟨⟨h.inv.loaded, h.inv.again, nofun, h.inv.forced⟩, h.dates, ?_, nofun, nofun, ?_, ?_⟩
  · intro f hf
    rcases List.mem_append.mp hf with hf | hf
    · exact h.past f hf
    · obtain rfl := List.mem_singleton.mp hf
      exact le_refl s.now
  · intro forced keys hforced hkeys _ hothers
    refine h.held forced keys hforced hkeys ?_ fun f hf => hothers f (List.mem_append_left _ hf)
    intro other hother
    obtain rfl := Option.some.inj (hfetch.symm.trans hother)
    exact hothers _ (List.mem_append_right _ List.mem_cons_self)
  · intro call hcall moment took heq
    obtain ⟨hpast, htook, hrefused⟩ := h.refused call hcall moment took heq
    exact ⟨hpast, htook, fun hnofail => hrefused fun f hf => hnofail f (List.mem_append_left _ hf)⟩

/-- A call that is refused after its own fetch failed is refused after a late failure. -/
theorem RefusedInTime.of_own_failure {fetch : KeyFetch} {token : String}
    (hstarted : fetch.started ≤ s.now) (hfailed : ⟨fetch.started, s.now⟩ ∈ failed) :
    RefusedInTime tokenKid failed s token s.now (s.now - fetch.started) := by
  refine ⟨le_rfl, sub_nonneg.mpr hstarted, fun hnofail => ?_⟩
  have hearly := hnofail _ hfailed le_rfl
  norm_num [jwksRefetchInterval] at hearly
  linarith

theorem Timely.failFetch (h : s.Timely tokenKid failed) {fetch : KeyFetch}
    (hfetch : s.fetch = some fetch) :
    (s.failFetch verify fetch call).Timely tokenKid (failed ++ [⟨fetch.started, s.now⟩]) := by
  have hinv : (s.failFetch verify fetch call).Inv := h.inv.failFetch fetch call
  refine (h.endFetch hfetch).setPhase hinv ?_
  intro moment took hphase
  have hown : ∀ keys,
      afterKeys verify s.now (s.now - fetch.started) fetch.unknownKid keys call.token =
        .refused moment took → moment = s.now ∧ took = s.now - fetch.started := by
    intro keys heq
    obtain ⟨-, -, hmoment, htook⟩ := afterKeys_eq_refused heq
    exact ⟨hmoment, htook⟩
  cases hkeys : s.jwks.keys with
  | none => simp [hkeys] at hphase
  | some keys =>
      simp only [hkeys] at hphase
      obtain ⟨rfl, rfl⟩ := hown keys hphase
      exact .of_own_failure (h.started fetch hfetch).1 (List.mem_append_right _ List.mem_cons_self)

theorem Timely.dropCall (h : s.Timely tokenKid failed) :
    ({ s.setPhase i call .dropped with
      fetch := s.fetch.filter fun fetch => decide (fetch.caller ≠ i) } :
        SigningKeys).Timely tokenKid
      (failed ++ (failureOf ⟨s, .drop i, s'⟩).toList) := by
  have hmoved : (s.setPhase i call .dropped).Timely tokenKid failed :=
    h.setPhase (h.inv.setPhase nofun) nofun
  cases hfetch : s.fetch with
  | none =>
      rw [failureOf, hfetch, Option.filter_none, Option.map_none, Option.toList_none,
        List.append_nil, Option.filter_none, ← hfetch]
      exact hmoved
  | some fetch =>
      by_cases hcaller : fetch.caller = i
      · simp only [failureOf, hfetch, hcaller, Option.filter_some, decide_true, ne_eq,
          not_true_eq_false, decide_false, if_true, Bool.false_eq_true, if_false, Option.map_some,
          Option.toList_some]
        exact hmoved.endFetch hfetch
      · simp only [failureOf, hfetch, hcaller, Option.filter_some, decide_false, ne_eq,
          not_false_eq_true, decide_true, if_true, Bool.false_eq_true, if_false, Option.map_none,
          Option.toList_none, List.append_nil]
        rw [← hfetch]
        exact hmoved

/-- **Each step keeps what the refusals rest on**, with the fetch that it ends without an answer. -/
theorem Timely.step (h : s.Timely tokenKid failed) (hverify : KnownKeys verify tokenKid)
    (hstep : Step verify s a s') :
    s'.Timely tokenKid (failed ++ (failureOf ⟨s, a, s'⟩).toList) := by
  have hquiet : failureOf ⟨s, a, s'⟩ = none → (∀ i, a ≠ .drop i) → a ≠ .fail →
      s'.Timely tokenKid (failed ++ (failureOf ⟨s, a, s'⟩).toList) := by
    intro hnone hdrop hfail
    rw [hnone, Option.toList_none, List.append_nil]
    exact h.step_answered hverify hstep hfail hdrop
  cases a with
  | fail =>
      rcases step_cases hstep with ⟨_, h, -, -⟩ | ⟨_, h, -⟩ | ⟨_, h, -⟩ | ⟨_, _, _, h, -, -, -, -⟩ |
        ⟨_, _, _, h, -, -, -, -⟩ | ⟨_, h, -, -⟩ | ⟨_, _, _, h, -, -, -, -⟩ |
        ⟨fetch, call, -, hfetch, -, rfl⟩ | ⟨_, _, h, -, -⟩
      case inr.inr.inr.inr.inr.inr.inr.inl =>
        rw [failureOf, hfetch]
        exact h.failFetch hfetch
      all_goals cases h
  | drop i =>
      rcases step_cases hstep with ⟨_, h, -, -⟩ | ⟨_, h, -⟩ | ⟨_, h, -⟩ | ⟨_, _, _, h, -, -, -, -⟩ |
        ⟨_, _, _, h, -, -, -, -⟩ | ⟨_, h, -, -⟩ | ⟨_, _, _, h, -, -, -, -⟩ |
        ⟨_, _, h, -, -, -⟩ | ⟨j, call, ⟨⟩, -, rfl⟩
      case inr.inr.inr.inr.inr.inr.inr.inr => exact h.dropCall
      all_goals cases h
  | tick _ | publish _ | start _ | read _ | lock _ | serve | receive =>
      exact hquiet (by cases hfetch : s.fetch <;> simp [failureOf, hfetch]) nofun nofun

/-- While a run goes on, the fetches that fail are noted. -/
theorem Timely.run {t : SigningKeys} {tr : KeyRun} (h : s.Timely tokenKid failed)
    (hverify : KnownKeys verify tokenKid) (hrun : Run (Step verify) s tr t) :
    t.Timely tokenKid (failed ++ failures tr) := by
  induction hrun generalizing failed with
  | nil s => simpa [failures] using h
  | @cons s s' t a tr hstep _ ih =>
      have hrest := ih (h.step hverify hstep)
      rw [List.append_assoc] at hrest
      convert hrest using 2
      unfold failures
      cases hfailure : failureOf ⟨s, a, s'⟩ with
      | none => simp [hfailure]
      | some f => simp [hfailure]

/-- While fetches succeed, none fails. -/
theorem failures_eq_nil {tr : KeyRun} (h : FetchesSucceed tr) : failures tr = [] := by
  apply List.filterMap_eq_nil_iff.mpr
  rintro ⟨s, a, s'⟩ he
  obtain ⟨hfail, hdrop⟩ := h _ he
  cases hfetch : s.fetch with
  | none => simp [failureOf, hfetch]
  | some fetch =>
      cases a with
      | fail => exact absurd rfl hfail
      | drop i => simp [failureOf, hfetch, hdrop i rfl fetch hfetch]
      | _ => simp [failureOf, hfetch]

end SigningKeys

/-- **Signing-key rotation along every run.** -/
theorem keys_rotate {verify : Jwks → String → TokenResult} {tokenKid : String → Option String}
    (hverify : KnownKeys verify tokenKid) {s t : SigningKeys} {tr : KeyRun} (hinit : s.Init)
    (hrun : Run (SigningKeys.Step verify) s tr t) : KeyRotation verify tokenKid tr t := by
  have hend : t.Timely tokenKid ([] ++ failures tr) := hinit.timely.run hverify hrun
  have hrecent : ∀ call ∈ t.calls, ∀ moment took, call.phase = .refused moment took →
      NoLateFailure (failures tr) moment took → ∀ kid since, tokenKid call.token = some kid →
        t.since kid = some since → moment ≤ since + jwksRefetchInterval + took :=
    fun call hcall moment took hphase => (hend.refused call hcall moment took hphase).2.2
  constructor
  case apart =>
    intro first mid second horder hfirst hsecond
    exact hinit.inv.apart hrun horder hfirst hsecond
  case kept =>
    intro e he hlabel
    obtain ⟨before, after, rfl⟩ := List.append_of_mem he
    obtain ⟨-, hstep, -⟩ := hrun.split_mem
    rw [hlabel] at hstep
    exact SigningKeys.kept_of_fail hstep
  case refused =>
    intro hsucceed call hcall moment took hphase kid since hkid hsince
    have hnone : failures tr = [] := SigningKeys.failures_eq_nil hsucceed
    exact hrecent call hcall moment took hphase (by simp [hnone, NoLateFailure]) kid
      since hkid hsince
  case recent => exact hrecent

/-! ## A rotation -/

/-- A token of the key `k-new`. -/
def newToken : String := "eyJhbGciOiJFZERTQSIsImtpZCI6ImstbmV3In0.e30.c2ln"

/-- A token of a key that nobody publishes. -/
def strayToken : String := "eyJhbGciOiJFZERTQSIsImtpZCI6ImstdW5rbm93biJ9.e30.c2ln"

/-- The key ids of the two tokens. -/
def sampleKid (token : String) : Option String :=
  if token = newToken then some "k-new" else if token = strayToken then some "k-unknown" else none

/-- The result for the two tokens, both signed by the key they name. -/
def sampleVerify (keys : Jwks) (token : String) : TokenResult :=
  match sampleKid token with
  | some kid => if keys.has kid then .valid else .unknownKey
  | none => .invalid

/-- The set before the rotation. -/
def oldKeys : Jwks := ⟨[⟨"k-old", "b2xk"⟩]⟩

/-- A gateway that has just started, and Accounts with one key. -/
def oldPublished : SigningKeys :=
  ⟨0, oldKeys, fun kid => if oldKeys.has kid then some 0 else none, ⟨none, none, none⟩, none, []⟩

/-- Accounts publishes a second key; a token of it forces a fetch, and a stray token finds the fetch
of that one. -/
def rotation : List KeyAction :=
  [.start newToken, .read 0, .lock 0, .serve, .receive, .tick 10,
    .publish ⟨[⟨"k-old", "b2xk"⟩, ⟨"k-new", "bmV3"⟩]⟩, .read 0, .lock 0, .tick 2, .serve, .receive,
    .start strayToken, .read 1, .read 1, .tick 5, .lock 1]

theorem keys_rotate_sample :
    KeyRotation sampleVerify sampleKid (play (SigningKeys.next sampleVerify) oldPublished rotation)
      (playEnd (SigningKeys.next sampleVerify) oldPublished rotation) ∧
    (playEnd (SigningKeys.next sampleVerify) oldPublished rotation).calls =
      [⟨newToken, .verified .valid⟩, ⟨strayToken, .refused 17 0⟩] := by
  constructor
  · have hinit : oldPublished.Init := by
      refine ⟨rfl, rfl, rfl, fun kid => ?_, fun kid moment hsince => ?_⟩
      · show (if oldKeys.has kid then some (0 : ℚ) else none).isSome = oldKeys.has kid
        cases oldKeys.has kid <;> rfl
      · obtain ⟨-, hmoment⟩ := Option.ite_none_right_eq_some.mp hsince
        exact (Option.some.inj hmoment).ge
    apply keys_rotate _ hinit
    · exact run_play _ _ (fun _ _ henabled => ⟨henabled, rfl⟩) (by decide +kernel)
    · intro keys token kid hkid hhas
      simp [sampleVerify, hkid, hhas]
  · decide +kernel

end Waveform.Accounts
