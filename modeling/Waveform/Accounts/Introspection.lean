import Mathlib.Algebra.Order.Field.Rat
import Mathlib.Data.Set.Function
import Mathlib.Tactic.Linarith
import Waveform.Domain.Bytes
import Waveform.Library.LabelledRun

/-!
# Introspection answers

Calls of `introspect_active` on one gateway, next to tokens that become inactive at Accounts. A call
looks into the cache when it starts; otherwise Accounts answers it at some later moment, and later
again the gateway stores the answer and returns it. Time is in seconds.

- `introspections_fresh`: where no `true` is stored for a token that has become inactive meanwhile,
  no answer is older than the cache allows and none follows a `false`.
- `stale_of_late_store`: a `true` stored later than that can be returned by a call that should not
  see it.
-/

set_option autoImplicit false

namespace Waveform.Accounts

open LabelledRun
open Domain (utf8)

/-- `INTROSPECTION_TTL`. -/
def introspectionTtl : ℚ := 30

/-- `INTROSPECTION_CACHE_LIMIT`. -/
def introspectionCacheLimit : Nat := 10000

/-- A value of `introspections` with its key. -/
structure CachedAnswer where
  digest : Vector UInt8 32
  active : Bool
  checked : ℚ

/-- Where a call of `introspect_active` is: Accounts is being asked, has answered, or the call has
returned, from the cache, after storing the answer, or with an error. -/
inductive CallPhase where
  | asking
  | told (active : Bool)
  | cached (active : Bool)
  | stored (active : Bool)
  | failed
  deriving DecidableEq

/-- What the call returned. -/
def CallPhase.result : CallPhase → Option Bool
  | .cached active => some active
  | .stored active => some active
  | _ => none

/-- What the call was told, by the cache or by Accounts. -/
def CallPhase.answer : CallPhase → Option Bool
  | .told active => some active
  | .cached active => some active
  | .stored active => some active
  | _ => none

theorem CallPhase.answer_of_result {phase : CallPhase} {active : Bool}
    (h : phase.result = some active) : phase.answer = some active := by
  cases phase <;> first | exact h | cases h

/-- Accounts has answered, and the call has not returned. -/
def CallPhase.isTold : CallPhase → Bool
  | .told _ => true
  | _ => false

structure IntrospectCall where
  token : String
  started : ℚ
  phase : CallPhase
  deriving DecidableEq

/-- The gateway's cache, its calls in the order they started, and since when tokens are inactive at
Accounts. -/
structure Introspections where
  now : ℚ
  cache : List CachedAnswer
  calls : List IntrospectCall
  inactiveSince : String → Option ℚ

inductive IntrospectionAction where
  /-- Time passes. -/
  | tick (duration : ℚ)
  /-- A token becomes inactive at Accounts. -/
  | deactivate (token : String)
  /-- A call starts. -/
  | start (token : String)
  /-- Accounts answers a call. -/
  | answer (call : Nat)
  /-- A call ends with an error: it timed out, or the answer was lost. -/
  | fail (call : Nat)
  /-- A call stores its answer and returns it. -/
  | store (call : Nat)

section Model

variable (sha256 : List UInt8 → Vector UInt8 32)

/-- The key of a token. -/
def digest (token : String) : Vector UInt8 32 := sha256 (utf8 token)

/-- Room for one more answer: stale ones go first, then all. -/
def prune (now : ℚ) (cache : List CachedAnswer) : List CachedAnswer :=
  if introspectionCacheLimit ≤ cache.length then
    let kept := cache.filter fun entry => decide (now - entry.checked < introspectionTtl)
    if introspectionCacheLimit ≤ kept.length then [] else kept
  else cache

/-- `HashMap::insert` behind the pruning. -/
def insertAnswer (now : ℚ) (key : Vector UInt8 32) (active : Bool) (cache : List CachedAnswer) :
    List CachedAnswer :=
  ⟨key, active, now⟩ :: (prune now cache).filter fun entry => entry.digest ≠ key

namespace Introspections

/-- The answer that the cache has for a token. -/
def hit (s : Introspections) (token : String) : Option Bool :=
  match s.cache.find? fun entry => entry.digest == digest sha256 token with
  | some entry => if s.now - entry.checked < introspectionTtl then some entry.active else none
  | none => none

/-- A call goes on to a phase. -/
def setPhase (s : Introspections) (i : Nat) (call : IntrospectCall) (phase : CallPhase) :
    Introspections :=
  { s with calls := s.calls.set i { call with phase } }

/-- `introspect_active` up to its first await. -/
def startCall (s : Introspections) (token : String) : Introspections :=
  let phase := match s.hit sha256 token with
    | some active => .cached active
    | none => .asking
  { s with calls := s.calls ++ [⟨token, s.now, phase⟩] }

/-- `introspect_active` behind the answer of Accounts. -/
def storeAnswer (s : Introspections) (i : Nat) (call : IntrospectCall) (active : Bool) :
    Introspections :=
  { s.setPhase i call (.stored active) with
    cache := insertAnswer s.now (digest sha256 call.token) active s.cache }

/-- The state after an action. -/
def next (s : Introspections) : IntrospectionAction → Introspections
  | .tick duration => { s with now := s.now + duration }
  | .deactivate token =>
      { s with inactiveSince := fun other =>
          if other = token then some s.now else s.inactiveSince other }
  | .start token => s.startCall sha256 token
  | .answer i =>
      match s.calls[i]? with
      | some call => s.setPhase i call (.told (s.inactiveSince call.token).isNone)
      | none => s
  | .fail i =>
      match s.calls[i]? with
      | some call => s.setPhase i call .failed
      | none => s
  | .store i =>
      match s.calls[i]? with
      | some call =>
          match call.phase with
          | .told active => s.storeAnswer sha256 i call active
          | _ => s
      | none => s

/-- When an action can be taken. An inactive token stays inactive. -/
def Enabled (s : Introspections) : IntrospectionAction → Prop
  | .tick duration => 0 ≤ duration
  | .deactivate token => s.inactiveSince token = none
  | .start _ => True
  | .answer i => s.calls[i]?.any (fun call => call.phase == .asking) = true
  | .fail i => s.calls[i]?.any (fun call => call.phase == .asking || call.phase.isTold) = true
  | .store i => s.calls[i]?.any (fun call => call.phase.isTold) = true

instance (s : Introspections) : (a : IntrospectionAction) → Decidable (s.Enabled a)
  | .tick duration => inferInstanceAs (Decidable (0 ≤ duration))
  | .deactivate token => inferInstanceAs (Decidable (s.inactiveSince token = none))
  | .start _ => .isTrue trivial
  | .answer _ => inferInstanceAs (Decidable (_ = _))
  | .fail _ => inferInstanceAs (Decidable (_ = _))
  | .store _ => inferInstanceAs (Decidable (_ = _))

/-- The gateway has just started. -/
structure Init (s : Introspections) : Prop where
  cache : s.cache = []
  calls : s.calls = []

/-- A step. -/
def Step (s : Introspections) (a : IntrospectionAction) (s' : Introspections) : Prop :=
  s.Enabled a ∧ s' = s.next sha256 a

/-- A call has stored and returned `false` for the token. -/
def StoredFalse (s : Introspections) (token : String) : Prop :=
  ∃ call ∈ s.calls, call.token = token ∧ call.phase = .stored false

end Introspections

/-- The transitions of a run. -/
abbrev IntrospectionRun := List (Transition Introspections IntrospectionAction)

/-- No call that starts more than the lifetime of an answer after its token became inactive returned
`true`, and none that starts after a `false` was stored and returned did. -/
structure FreshAnswers (tr : IntrospectionRun) (t : Introspections) : Prop where
  soon : ∀ call ∈ t.calls, call.phase.result = some true → ∀ since,
    t.inactiveSince call.token = some since → call.started ≤ since + introspectionTtl
  afterFalse : ∀ e ∈ tr, ∀ token, e.label = .start token → e.pre.StoredFalse token →
    ∀ call, t.calls[e.pre.calls.length]? = some call → call.phase.result ≠ some true

/-- A `true` is stored before its token becomes inactive, or at that moment and before any
`false`. -/
def StoresInTime (s : Introspections) : IntrospectionAction → Prop
  | .store i => ∀ call, s.calls[i]? = some call → call.phase = .told true → ∀ since,
      s.inactiveSince call.token = some since → s.now ≤ since ∧ ¬ s.StoredFalse call.token
  | _ => True

/-- SHA-256 tells the tokens apart that the run presents. -/
def TokensApart (tr : IntrospectionRun) : Prop :=
  Set.InjOn (digest sha256) {token | ∃ e ∈ tr, e.label = .start token}

end Model

/-! ## The cache -/

section Cache

variable {sha256 : List UInt8 → Vector UInt8 32} {now : ℚ} {cache : List CachedAnswer}
  {entry : CachedAnswer}

theorem mem_prune (h : entry ∈ prune now cache) : entry ∈ cache := by
  unfold prune at h
  split at h
  · dsimp only at h
    split at h
    · cases h
    · exact List.mem_of_mem_filter h
  · exact h

/-- An answer in the cache is the new one, or an older one for another key. -/
theorem mem_insertAnswer {key : Vector UInt8 32} {active : Bool}
    (h : entry ∈ insertAnswer now key active cache) :
    entry = ⟨key, active, now⟩ ∨ (entry ∈ cache ∧ entry.digest ≠ key) := by
  rcases List.mem_cons.mp h with rfl | h
  · exact .inl rfl
  · obtain ⟨hmem, hne⟩ := List.mem_filter.mp h
    exact .inr ⟨mem_prune hmem, by simpa using hne⟩

/-- A hit is an answer of the cache that is young enough. -/
theorem Introspections.hit_eq_some {s : Introspections} {token : String} {active : Bool}
    (h : s.hit sha256 token = some active) :
    ∃ entry ∈ s.cache, entry.digest = digest sha256 token ∧ entry.active = active ∧
      s.now < entry.checked + introspectionTtl := by
  unfold hit at h
  split at h
  · rename_i entry hfind
    split at h
    · rename_i hyoung
      obtain rfl := Option.some.inj h
      have hkey : entry.digest = digest sha256 token := beq_iff_eq.mp (List.find?_some hfind :)
      exact ⟨entry, List.mem_of_find?_eq_some hfind, hkey, rfl, by linarith⟩
    · cases h
  · cases h

end Cache

/-! ## Steps -/

namespace Introspections

variable {sha256 : List UInt8 → Vector UInt8 32} {s s' : Introspections}
  {call : IntrospectCall} {i : Nat}

/-- What a step does. -/
theorem step_cases {a : IntrospectionAction} (h : Step sha256 s a s') :
    (∃ duration, a = .tick duration ∧ 0 ≤ duration ∧ s' = { s with now := s.now + duration }) ∨
    (∃ token, a = .deactivate token ∧ s.inactiveSince token = none ∧
      s' = s.next sha256 (.deactivate token)) ∨
    (∃ token, a = .start token ∧ s' = s.startCall sha256 token) ∨
    (∃ i call, a = .answer i ∧ s.calls[i]? = some call ∧ call.phase = .asking ∧
      s' = s.setPhase i call (.told (s.inactiveSince call.token).isNone)) ∨
    (∃ i call, a = .fail i ∧ s.calls[i]? = some call ∧ (∀ active, call.phase ≠ .stored active) ∧
      s' = s.setPhase i call .failed) ∨
    ∃ i call active, a = .store i ∧ s.calls[i]? = some call ∧ call.phase = .told active ∧
      s' = s.storeAnswer sha256 i call active := by
  obtain ⟨henabled, rfl⟩ := h
  cases a with
  | tick duration => exact .inl ⟨duration, rfl, henabled, rfl⟩
  | deactivate token => exact .inr (.inl ⟨token, rfl, henabled, rfl⟩)
  | start token => exact .inr (.inr (.inl ⟨token, rfl, rfl⟩))
  | answer i =>
      obtain ⟨call, hcall, hphase⟩ := (Option.any_eq_true _ _).mp henabled
      refine .inr (.inr (.inr (.inl ⟨i, call, rfl, hcall, beq_iff_eq.mp hphase, ?_⟩)))
      rw [next, hcall]
  | fail i =>
      obtain ⟨call, hcall, hphase⟩ := (Option.any_eq_true _ _).mp henabled
      refine .inr (.inr (.inr (.inr (.inl ⟨i, call, rfl, hcall, ?_, ?_⟩))))
      · rintro active heq
        rw [heq] at hphase
        cases hphase
      · rw [next, hcall]
  | store i =>
      obtain ⟨call, hcall, hphase⟩ := (Option.any_eq_true _ _).mp henabled
      cases hcase : call.phase with
      | told active =>
          refine .inr (.inr (.inr (.inr (.inr ⟨i, call, active, rfl, hcall, hcase, ?_⟩))))
          simp only [next, hcall, hcase]
      | _ =>
          rw [hcase] at hphase
          cases hphase

/-- Calls keep their places. -/
theorem length_le_of_step {a : IntrospectionAction} (h : Step sha256 s a s') :
    s.calls.length ≤ s'.calls.length := by
  rcases step_cases h with ⟨_, _, _, rfl⟩ | ⟨_, _, _, rfl⟩ | ⟨_, _, rfl⟩ | ⟨_, _, _, _, _, rfl⟩ |
    ⟨_, _, _, _, _, rfl⟩ | ⟨_, _, _, _, _, _, rfl⟩
  · exact Nat.le_refl _
  · exact Nat.le_refl _
  · simp [startCall]
  · simp [setPhase]
  · simp [setPhase]
  · simp [storeAnswer, setPhase]

/-- A stored answer of another call is still there. -/
theorem StoredFalse.setPhase {token : String} (h : s.StoredFalse token)
    (hcall : s.calls[i]? = some call) (hphase : call.phase ≠ .stored false) (phase : CallPhase) :
    (s.setPhase i call phase).StoredFalse token := by
  obtain ⟨other, hmem, htoken, hstored⟩ := h
  obtain ⟨j, hj⟩ := List.mem_iff_getElem?.mp hmem
  have hne : i ≠ j := by
    rintro rfl
    obtain rfl := Option.some.inj (hcall.symm.trans hj)
    exact hphase hstored
  refine ⟨other, List.mem_iff_getElem?.mpr ⟨j, ?_⟩, htoken, hstored⟩
  rw [Introspections.setPhase, List.getElem?_set_ne hne, hj]

/-- What a call has stored and returned stays stored and returned. -/
theorem StoredFalse.step {token : String} {a : IntrospectionAction} (h : s.StoredFalse token)
    (hstep : Step sha256 s a s') : s'.StoredFalse token := by
  rcases step_cases hstep with ⟨_, _, _, rfl⟩ | ⟨_, _, _, rfl⟩ | ⟨_, _, rfl⟩ |
    ⟨_, _, _, hcall, hphase, rfl⟩ | ⟨_, _, _, hcall, hphase, rfl⟩ | ⟨_, _, _, _, hcall, hphase, rfl⟩
  · exact h
  · exact h
  · obtain ⟨other, hmem, hother⟩ := h
    exact ⟨other, List.mem_append_left _ hmem, hother⟩
  · exact h.setPhase hcall (by rw [hphase]; decide) _
  · exact h.setPhase hcall (hphase false) _
  · exact h.setPhase hcall (by rw [hphase]; simp) _

/-- A `false` that is stored after a change of one phase was stored before, or is that phase. -/
theorem storedFalse_setPhase {token : String} {phase : CallPhase}
    (h : (s.setPhase i call phase).StoredFalse token) :
    s.StoredFalse token ∨ (call.token = token ∧ phase = .stored false) := by
  obtain ⟨other, hmem, htoken, hstored⟩ := h
  rcases List.mem_or_eq_of_mem_set hmem with hmem | rfl
  · exact .inl ⟨other, hmem, htoken, hstored⟩
  · exact .inr ⟨htoken, hstored⟩

end Introspections

/-! ## What holds along a run that stores in time -/

section Invariant

open Introspections

variable {sha256 : List UInt8 → Vector UInt8 32} {Tokens : Set String} {s s' : Introspections}

/-- The calls: whoever was told `true` asked early enough, and a `false` of Accounts was true. -/
structure CallsSound (s : Introspections) : Prop where
  started : ∀ call ∈ s.calls, call.started ≤ s.now
  soon : ∀ call ∈ s.calls, call.phase.answer = some true → ∀ since,
    s.inactiveSince call.token = some since → call.started ≤ since + introspectionTtl
  refused : ∀ call ∈ s.calls, call.phase = .told false ∨ call.phase = .stored false →
    s.inactiveSince call.token ≠ none

variable (sha256 Tokens) in
/-- The cache: a `true` in it was stored in time, and no `false` was stored for its token. -/
structure CacheSound (s : Introspections) : Prop where
  checked : ∀ entry ∈ s.cache, entry.checked ≤ s.now
  inTime : ∀ entry ∈ s.cache, entry.active = true → ∀ token ∈ Tokens,
    entry.digest = digest sha256 token → ∀ since, s.inactiveSince token = some since →
      entry.checked ≤ since
  unrefused : ∀ entry ∈ s.cache, entry.active = true → ∀ token ∈ Tokens,
    entry.digest = digest sha256 token → ¬ s.StoredFalse token

variable (sha256 Tokens) in
/-- The invariant. -/
structure Sound (s : Introspections) : Prop where
  calls : CallsSound s
  cache : CacheSound sha256 Tokens s
  tokens : ∀ call ∈ s.calls, call.token ∈ Tokens

theorem Sound.init (h : Init s) : Sound sha256 Tokens s := by
  refine ⟨⟨?_, ?_, ?_⟩, ⟨?_, ?_, ?_⟩, ?_⟩ <;> simp [h.calls, h.cache]

/-- Time passes. -/
theorem Sound.tick (h : Sound sha256 Tokens s) {duration : ℚ} (hd : 0 ≤ duration) :
    Sound sha256 Tokens { s with now := s.now + duration } := by
  refine ⟨⟨?_, h.calls.soon, h.calls.refused⟩, ⟨?_, h.cache.inTime, h.cache.unrefused⟩, h.tokens⟩
  · intro call hmem
    have hstarted := h.calls.started call hmem
    change call.started ≤ s.now + duration
    linarith
  · intro entry hmem
    have hchecked := h.cache.checked entry hmem
    change entry.checked ≤ s.now + duration
    linarith

theorem introspectionTtl_pos : 0 < introspectionTtl := by
  unfold introspectionTtl
  norm_num

/-- A token becomes inactive now, so everything so far was in time. -/
theorem Sound.deactivate (h : Sound sha256 Tokens s) (token : String) :
    Sound sha256 Tokens (s.next sha256 (.deactivate token)) := by
  have hsince : ∀ other since, (s.next sha256 (.deactivate token)).inactiveSince
    other = some since →
      since = s.now ∨ s.inactiveSince other = some since := by
    intro other since hsome
    simp only [next] at hsome
    split at hsome
    · exact .inl (Option.some.inj hsome).symm
    · exact .inr hsome
  refine ⟨⟨h.calls.started, ?_, ?_⟩, ⟨h.cache.checked, ?_, h.cache.unrefused⟩, h.tokens⟩
  · intro call hmem hanswer since hsome
    rcases hsince _ _ hsome with rfl | hsome
    · have hstarted := h.calls.started call hmem
      have hpos := introspectionTtl_pos
      linarith
    · exact h.calls.soon call hmem hanswer since hsome
  · intro call hmem hphase
    have hinactive := h.calls.refused call hmem hphase
    simp only [next]
    split
    · exact Option.some_ne_none _
    · exact hinactive
  · intro entry hmem hactive other hother hkey since hsome
    rcases hsince _ _ hsome with rfl | hsome
    · exact h.cache.checked entry hmem
    · exact h.cache.inTime entry hmem hactive other hother hkey since hsome

/-- A hit of a `true` is for a token that was active lately, and for which no `false` was stored. -/
theorem Sound.hit (h : Sound sha256 Tokens s) {token : String} (htoken : token ∈ Tokens)
    (hhit : s.hit sha256 token = some true) :
    (∀ since, s.inactiveSince token = some since → s.now ≤ since + introspectionTtl) ∧
      ¬ s.StoredFalse token := by
  obtain ⟨entry, hmem, hkey, hactive, hyoung⟩ := hit_eq_some hhit
  refine ⟨fun since hsome => ?_, h.cache.unrefused entry hmem hactive token htoken hkey⟩
  have hchecked := h.cache.inTime entry hmem hactive token htoken hkey since hsome
  linarith

theorem Sound.start (h : Sound sha256 Tokens s) {token : String} (htoken : token ∈ Tokens) :
    Sound sha256 Tokens (s.startCall sha256 token) := by
  have hcalls : ∀ call ∈ (s.startCall sha256 token).calls, call ∈ s.calls ∨
      (call.token = token ∧ call.started = s.now ∧
        ((s.hit sha256 token = none ∧ call.phase = .asking) ∨
          ∃ active, s.hit sha256 token = some active ∧ call.phase = .cached active)) := by
    intro call hmem
    rcases List.mem_append.mp hmem with hmem | hmem
    · exact .inl hmem
    · obtain rfl := List.mem_singleton.mp hmem
      refine .inr ⟨rfl, rfl, ?_⟩
      cases hhit : s.hit sha256 token with
      | none => exact .inl ⟨rfl, rfl⟩
      | some active => exact .inr ⟨active, rfl, rfl⟩
  refine ⟨⟨?_, ?_, ?_⟩, ⟨h.cache.checked, h.cache.inTime, ?_⟩, ?_⟩
  · intro call hmem
    rcases hcalls call hmem with hmem | ⟨_, hstarted, _⟩
    · exact h.calls.started call hmem
    · exact le_of_eq hstarted
  · intro call hmem hanswer since hsome
    rcases hcalls call hmem with hmem | ⟨rfl, hstarted, ⟨_, hphase⟩ | ⟨active, hhit, hphase⟩⟩
    · exact h.calls.soon call hmem hanswer since hsome
    · rw [hphase] at hanswer
      cases hanswer
    · rw [hphase] at hanswer
      obtain rfl : active = true := Option.some.inj hanswer
      rw [hstarted]
      exact (h.hit htoken hhit).1 since hsome
  · intro call hmem hphase
    rcases hcalls call hmem with hmem | ⟨_, _, ⟨_, hnew⟩ | ⟨active, _, hnew⟩⟩
    · exact h.calls.refused call hmem hphase
    · rw [hnew] at hphase
      simp at hphase
    · rw [hnew] at hphase
      simp at hphase
  · intro entry hmem hactive other hother hkey hstored
    refine h.cache.unrefused entry hmem hactive other hother hkey ?_
    obtain ⟨call, hcall, htok, hphase⟩ := hstored
    rcases hcalls call hcall with hcall | ⟨_, _, ⟨_, hnew⟩ | ⟨active, _, hnew⟩⟩
    · exact ⟨call, hcall, htok, hphase⟩
    · rw [hnew] at hphase
      cases hphase
    · rw [hnew] at hphase
      cases hphase
  · intro call hmem
    rcases hcalls call hmem with hmem | ⟨rfl, _⟩
    · exact h.tokens call hmem
    · exact htoken

/-- A call goes on to a phase that says no more than is so. -/
theorem CallsSound.setPhase (h : CallsSound s) {i : Nat} {call : IntrospectCall}
    (hcall : s.calls[i]? = some call) {phase : CallPhase}
    (hsoon : phase.answer = some true → call.phase.answer = some true ∨
      s.inactiveSince call.token = none)
    (hrefused : phase = .told false ∨ phase = .stored false →
      s.inactiveSince call.token ≠ none) : CallsSound (s.setPhase i call phase) := by
  have hmem : call ∈ s.calls := List.mem_of_getElem? hcall
  refine ⟨?_, ?_, ?_⟩
  · intro other hother
    rcases List.mem_or_eq_of_mem_set hother with hother | rfl
    · exact h.started other hother
    · exact h.started call hmem
  · intro other hother hanswer since hsome
    rcases List.mem_or_eq_of_mem_set hother with hother | rfl
    · exact h.soon other hother hanswer since hsome
    · rcases hsoon hanswer with htold | hactive
      · exact h.soon call hmem htold since hsome
      · cases hactive.symm.trans hsome
  · intro other hother hphase
    rcases List.mem_or_eq_of_mem_set hother with hother | rfl
    · exact h.refused other hother hphase
    · exact hrefused hphase

theorem Sound.setPhase (h : Sound sha256 Tokens s) {i : Nat} {call : IntrospectCall}
    (hcall : s.calls[i]? = some call) {phase : CallPhase}
    (hsoon : phase.answer = some true → call.phase.answer = some true ∨
      s.inactiveSince call.token = none)
    (hrefused : phase = .told false → s.inactiveSince call.token ≠ none)
    (hphase : phase ≠ .stored false) : Sound sha256 Tokens (s.setPhase i call phase) := by
  refine ⟨h.calls.setPhase hcall hsoon ?_, ⟨h.cache.checked, h.cache.inTime, ?_⟩, ?_⟩
  · rintro (htold | hstored)
    · exact hrefused htold
    · exact absurd hstored hphase
  · intro entry hmem hactive token htoken hkey hstored
    rcases storedFalse_setPhase hstored with hstored | ⟨_, hstored⟩
    · exact h.cache.unrefused entry hmem hactive token htoken hkey hstored
    · exact hphase hstored
  · intro other hother
    rcases List.mem_or_eq_of_mem_set hother with hother | rfl
    · exact h.tokens other hother
    · exact h.tokens call (List.mem_of_getElem? hcall)

/-- An answer is stored, a `true` in time. -/
theorem Sound.store (hapart : Set.InjOn (digest sha256) Tokens) (h : Sound sha256 Tokens s)
    {i : Nat}
    {call : IntrospectCall} {active : Bool} (hcall : s.calls[i]? = some call)
    (hphase : call.phase = .told active) (hinTime : StoresInTime s (.store i)) :
    Sound sha256 Tokens (s.storeAnswer sha256 i call active) := by
  have hmem : call ∈ s.calls := List.mem_of_getElem? hcall
  have hcalls : CallsSound (s.setPhase i call (.stored active)) := by
    apply h.calls.setPhase hcall
    · intro hanswer
      exact .inl (by rw [hphase]; exact hanswer)
    · rintro (htold | hstored)
      · cases htold
      · cases hstored
        exact h.calls.refused call hmem (.inl hphase)
  refine ⟨⟨hcalls.started, hcalls.soon, hcalls.refused⟩, ⟨?_, ?_, ?_⟩, ?_⟩
  · intro entry hentry
    rcases mem_insertAnswer hentry with rfl | ⟨hentry, _⟩
    · exact le_refl s.now
    · exact h.cache.checked entry hentry
  · intro entry hentry htrue token htoken hkey since hsome
    rcases mem_insertAnswer hentry with rfl | ⟨hentry, _⟩
    · -- The new entry is for this token alone.
      have htok : call.token = token := hapart (h.tokens call hmem) htoken hkey
      obtain rfl : active = true := htrue
      exact (hinTime call hcall hphase since (htok ▸ hsome)).1
    · exact h.cache.inTime entry hentry htrue token htoken hkey since hsome
  · intro entry hentry htrue token htoken hkey hstored
    rcases mem_insertAnswer hentry with rfl | ⟨hentry, hother⟩
    · have htok : call.token = token := hapart (h.tokens call hmem) htoken hkey
      obtain rfl : active = true := htrue
      have hbefore : s.StoredFalse token := by
        rcases storedFalse_setPhase (s := s) hstored with hbefore | ⟨_, hnew⟩
        · exact hbefore
        · cases hnew
      -- A `false` was stored for an inactive token, so a `true` comes too late.
      obtain ⟨refused, hrefused, hrefusedToken, hrefusedPhase⟩ := id hbefore
      have hinactive := h.calls.refused refused hrefused (.inr hrefusedPhase)
      obtain ⟨since, hsome⟩ := Option.ne_none_iff_exists'.mp hinactive
      rw [hrefusedToken, ← htok] at hsome
      exact (hinTime call hcall hphase since hsome).2 (htok ▸ hbefore)
    · rcases storedFalse_setPhase (s := s) hstored with hbefore | ⟨htok, _⟩
      · exact h.cache.unrefused entry hentry htrue token htoken hkey hbefore
      · -- Storing a `false` replaced what the cache had for the token.
        rw [htok] at hother
        exact hother hkey
  · intro other hother
    rcases List.mem_or_eq_of_mem_set hother with hother | rfl
    · exact h.tokens other hother
    · exact h.tokens call hmem

/-- A step that stores in time keeps the invariant. -/
theorem Sound.step (hapart : Set.InjOn (digest sha256) Tokens) {a : IntrospectionAction}
    (h : Sound sha256 Tokens s) (hstep : Step sha256 s a s') (htoken : ∀ token, a = .start token →
      token ∈ Tokens) (hinTime : StoresInTime s a) : Sound sha256 Tokens s' := by
  rcases step_cases hstep with ⟨duration, rfl, hd, rfl⟩ | ⟨token, rfl, _, rfl⟩ | ⟨token, rfl, rfl⟩ |
    ⟨i, call, rfl, hcall, hphase, rfl⟩ | ⟨i, call, rfl, hcall, hphase, rfl⟩ |
    ⟨i, call, active, rfl, hcall, hphase, rfl⟩
  · exact h.tick hd
  · exact h.deactivate token
  · exact h.start (htoken token rfl)
  · refine h.setPhase hcall ?_ ?_ (by simp)
    · intro hanswer
      exact .inr (by simpa [CallPhase.answer] using hanswer)
    · intro htold
      rw [CallPhase.told.injEq, Option.isNone_eq_false_iff, Option.isSome_iff_ne_none] at htold
      exact htold
  · exact h.setPhase hcall (fun hanswer => nomatch hanswer) (fun htold => nomatch htold) (by simp)
  · exact h.store hapart hcall hphase hinTime

/-- Behind a stored `false`, a later call has not been told `true`. -/
structure Barred (token : String) (n : Nat) (s : Introspections) : Prop where
  stored : s.StoredFalse token
  started : n < s.calls.length
  later : ∀ call, s.calls[n]? = some call → call.token = token ∧ call.phase.answer ≠ some true

/-- The call starts after the `false` was stored. -/
theorem Barred.start (h : Sound sha256 Tokens s) {token : String} (htoken : token ∈ Tokens)
    (hstored : s.StoredFalse token) : Barred token s.calls.length (s.startCall sha256 token) := by
  refine ⟨?_, by simp [startCall], ?_⟩
  · obtain ⟨other, hmem, hother⟩ := hstored
    exact ⟨other, List.mem_append_left _ hmem, hother⟩
  · intro call hcall
    have hnew : (s.startCall sha256 token).calls[s.calls.length]? = some ⟨token, s.now,
        match s.hit sha256 token with
        | some active => .cached active
        | none => .asking⟩ := by
      simp [startCall]
    obtain rfl := Option.some.inj (hnew.symm.trans hcall)
    refine ⟨rfl, ?_⟩
    cases hhit : s.hit sha256 token with
    | none => simp [CallPhase.answer]
    | some active =>
        cases active with
        | false => simp [CallPhase.answer]
        | true => exact absurd hstored (h.hit htoken hhit).2

theorem Barred.setPhase {token : String} {n i : Nat} {call : IntrospectCall} (h : Barred token n s)
    (hcall : s.calls[i]? = some call) (hphase : call.phase ≠ .stored false) {phase : CallPhase}
    (hanswer : call.token = token → call.phase.answer ≠ some true → phase.answer ≠ some true) :
    Barred token n (s.setPhase i call phase) := by
  refine ⟨h.stored.setPhase hcall hphase phase, by simpa [Introspections.setPhase] using h.started,
    ?_⟩
  intro other hother
  by_cases hi : i = n
  · subst hi
    have hnew : (s.setPhase i call phase).calls[i]? = some { call with phase } := by
      simp [Introspections.setPhase, h.started]
    obtain rfl := Option.some.inj (hnew.symm.trans hother)
    obtain ⟨htoken, hnot⟩ := h.later call hcall
    exact ⟨htoken, hanswer htoken hnot⟩
  · rw [Introspections.setPhase, List.getElem?_set_ne hi] at hother
    exact h.later other hother

theorem Barred.step {token : String} {n : Nat} {a : IntrospectionAction} (h : Barred token n s)
    (hsound : Sound sha256 Tokens s) (hstep : Step sha256 s a s') : Barred token n s' := by
  rcases step_cases hstep with ⟨duration, rfl, hd, rfl⟩ | ⟨other, rfl, _, rfl⟩ | ⟨other, rfl, rfl⟩ |
    ⟨i, call, rfl, hcall, hphase, rfl⟩ | ⟨i, call, rfl, hcall, hphase, rfl⟩ |
    ⟨i, call, active, rfl, hcall, hphase, rfl⟩
  · exact ⟨h.stored, h.started, h.later⟩
  · exact ⟨h.stored, h.started, h.later⟩
  · refine ⟨h.stored.step hstep, Nat.lt_of_lt_of_le h.started (length_le_of_step hstep), ?_⟩
    intro call hcall
    rw [startCall, List.getElem?_append_left h.started] at hcall
    exact h.later call hcall
  · -- Accounts knows that the token is inactive.
    apply h.setPhase hcall (by rw [hphase]; decide)
    intro htoken _
    obtain ⟨refused, hrefused, hrefusedToken, hrefusedPhase⟩ := h.stored
    have hinactive := hsound.calls.refused refused hrefused (.inr hrefusedPhase)
    rw [hrefusedToken, ← htoken,
      Option.ne_none_iff_isSome, ← Option.isNone_eq_false_iff] at hinactive
    rw [hinactive]
    simp [CallPhase.answer]
  · exact h.setPhase hcall (hphase false) fun _ _ => by simp [CallPhase.answer]
  · have hbarred : Barred token n (s.setPhase i call (.stored active)) := by
      apply h.setPhase hcall (by rw [hphase]; simp)
      intro _ hnot
      rw [hphase] at hnot
      exact hnot
    exact ⟨hbarred.stored, hbarred.started, hbarred.later⟩

/-- **Introspection answers are fresh along every run that stores in time.** -/
theorem introspections_fresh {t : Introspections} {tr : IntrospectionRun} (hinit : Init s)
    (hrun : Run (Step sha256) s tr t) (hapart : TokensApart sha256 tr)
    (hinTime : ∀ e ∈ tr, StoresInTime e.pre e.label) : FreshAnswers tr t := by
  have hgood : ∀ {before : IntrospectionRun} {m : Introspections}, Run (Step sha256) s before m →
      (∀ e ∈ before, e ∈ tr) →
      Sound sha256 {token | ∃ e ∈ tr, e.label = .start token} m := by
    intro before m hbefore hmem
    have hrestricted := hbefore.restrict (fun e => StoresInTime e.pre e.label ∧
      ∀ token, e.label = .start token → ∃ e ∈ tr, e.label = .start token) fun e he =>
        ⟨hinTime e (hmem e he), fun token htoken => ⟨e, hmem e he, htoken⟩⟩
    refine hrestricted.invariant _ (fun m a m' hm hstep => ?_) (Sound.init hinit)
    exact hm.step hapart hstep.1 hstep.2.2 hstep.2.1
  have hend := hgood hrun fun _ he => he
  refine ⟨?_, ?_⟩
  · intro call hmem hresult since hsome
    exact hend.calls.soon call hmem (CallPhase.answer_of_result hresult) since hsome
  · -- The run is cut where the later call starts.
    intro e he token hlabel hstored call hcall hresult
    obtain ⟨before, after, rfl⟩ := List.append_of_mem he
    obtain ⟨hbefore, hstep, hafter⟩ := hrun.split_mem
    have hpre := hgood hbefore fun e' he' => List.mem_append_left _ he'
    rw [hlabel] at hstep
    have hpost : e.post = e.pre.startCall sha256 token := hstep.2
    have hbarred : Barred token e.pre.calls.length e.post := by
      rw [hpost]
      exact Barred.start hpre ⟨e, he, hlabel⟩ hstored
    have hsound : Sound sha256 {token | ∃ e' ∈ before ++ e :: after, e'.label = .start token}
        e.post := hpre.step hapart (hlabel ▸ hrun.split_mem.2.1)
      (fun other hother => ⟨e, he, hother⟩) (hinTime e he)
    have hrestricted := hafter.restrict (fun e' => StoresInTime e'.pre e'.label ∧
      ∀ other, e'.label = .start other → ∃ e'' ∈ before ++ e :: after, e''.label = .start other)
      fun e' he' => by
        have hmem : e' ∈ before ++ e :: after :=
          List.mem_append_right _ (List.mem_cons_of_mem _ he')
        exact ⟨hinTime e' hmem, fun other hother => ⟨e', hmem, hother⟩⟩
    obtain ⟨_, hlater⟩ := hrestricted.invariant
      (fun m => Sound sha256 {token | ∃ e' ∈ before ++ e :: after, e'.label = .start token} m ∧
        Barred token e.pre.calls.length m)
      (fun m a m' hm hstep => ⟨hm.1.step hapart hstep.1 hstep.2.2 hstep.2.1,
        hm.2.step hm.1 hstep.1⟩) ⟨hsound, hbarred⟩
    exact (hlater.later call hcall).2 (CallPhase.answer_of_result hresult)

end Invariant

/-! ## Stored too late -/

section Late

open Introspections

variable {sha256 : List UInt8 → Vector UInt8 32} {t : Introspections} {i : Nat}
  {call : IntrospectCall}

/-- A `true` just stored is hit as long as it is young. -/
theorem hit_storeAnswer (t : Introspections) (i : Nat) (call : IntrospectCall) {duration : ℚ}
    (h : duration < introspectionTtl) :
    ({ t.storeAnswer sha256 i call true with now := t.now + duration } : Introspections).hit sha256
      call.token = some true := by
  have hyoung : t.now + duration - t.now < introspectionTtl := by linarith
  simp only [hit, storeAnswer, insertAnswer, List.find?_cons, beq_self_eq_true, if_pos hyoung]

/-- A call that starts a while after a `true` was stored returns it. -/
theorem run_hit (hcall : t.calls[i]? = some call) (hphase : call.phase = .told true) {duration : ℚ}
    (hnonneg : 0 ≤ duration) (hyoung : duration < introspectionTtl) :
    ∃ stored : Introspections, Step sha256 t (.store i) stored ∧
      stored = t.storeAnswer sha256 i call true ∧
      Step sha256 stored (.tick duration) { stored with now := t.now + duration } ∧
      Step sha256 { stored with now := t.now + duration } (.start call.token)
        { stored with
          now := t.now + duration
          calls := stored.calls ++ [⟨call.token, t.now + duration, .cached true⟩] } := by
  refine ⟨_, ⟨?_, ?_⟩, rfl, ⟨hnonneg, rfl⟩, trivial, ?_⟩
  · change t.calls[i]?.any (fun call => call.phase.isTold) = true
    rw [hcall, Option.any_some, hphase]
    rfl
  · simp only [next, hcall, hphase]
  · simp only [next, startCall, hit_storeAnswer t i call hyoung]

/-- A `true` that is not stored in time can be returned by a call that should not see it. -/
theorem stale_of_late_store (tr : IntrospectionRun) (hlate : ¬ StoresInTime t (.store i)) :
    ∃ tr' t', Run (Step sha256) t tr' t' ∧ ¬ FreshAnswers (tr ++ tr') t' := by
  simp only [StoresInTime, not_forall, not_and_or, not_le, not_not] at hlate
  obtain ⟨call, hcall, hphase, since, hsince, hlate | hstored⟩ := hlate
  · -- The `true` is still young when the answer that it gives is too old.
    have httl : introspectionTtl = 30 := rfl
    have hyoung : max 0 ((since - t.now) / 2 + introspectionTtl) < introspectionTtl := by
      rw [max_lt_iff, httl]
      constructor
      · norm_num
      · linarith
    obtain ⟨stored, hstore, rfl, htick, hstart⟩ :=
      run_hit hcall hphase (le_max_left 0 _) hyoung
    refine ⟨_, _, .cons hstore (.cons htick (.single hstart)), fun hfresh => ?_⟩
    have hsoon := hfresh.soon ⟨call.token, _, .cached true⟩
      (List.mem_append_right _ (List.mem_singleton_self _)) rfl since hsince
    have hmax := le_max_right 0 ((since - t.now) / 2 + introspectionTtl)
    have hnonneg := le_max_left 0 ((since - t.now) / 2 + introspectionTtl)
    simp only at hsoon
    linarith
  · obtain ⟨stored, hstore, heq, htick, hstart⟩ := run_hit hcall hphase
      (le_refl 0) introspectionTtl_pos
    refine ⟨_, _, .cons hstore (.cons htick (.single hstart)), fun hfresh => ?_⟩
    have hbefore : ({ stored with now := t.now + 0 } : Introspections).StoredFalse call.token :=
      (hstored.step hstore).step htick
    refine hfresh.afterFalse _ (List.mem_append_right _ (List.mem_cons_of_mem _
      (List.mem_cons_of_mem _ (List.mem_singleton_self _)))) call.token rfl hbefore
      ⟨call.token, t.now + 0, .cached true⟩ ?_ rfl
    exact List.getElem?_concat_length ..

end Late

/-! ## A run with a stale answer -/

/-- SHA-256 of the token below. -/
def sampleSha256 (_ : List UInt8) : Vector UInt8 32 :=
  #v[199, 134, 226, 17, 122, 132, 219, 75, 79, 105, 62, 214, 119, 153, 104, 155,
    254, 190, 167, 176, 180, 56, 73, 59, 162, 201, 255, 117, 138, 123, 60, 42]

/-- A gateway that has just started. -/
def startedGateway : Introspections := ⟨0, [], [], fun _ => none⟩

/-- A step on the sample token. -/
abbrev sampleNext (s : Introspections) (a : IntrospectionAction) : Introspections :=
  s.next sampleSha256 a

theorem run_sample {labels : List IntrospectionAction}
    (h : EnabledAlong sampleNext Introspections.Enabled startedGateway labels) :
    Run (Introspections.Step sampleSha256) startedGateway (play sampleNext startedGateway labels)
      (playEnd sampleNext startedGateway labels) :=
  run_play sampleNext Introspections.Enabled (fun _ _ henabled => ⟨henabled, rfl⟩) h

/-- A run on one token keeps its tokens apart. -/
theorem tokensApart_of_one {labels : List IntrospectionAction} {token : String}
    (h : ∀ other, .start other ∈ labels → other = token) :
    TokensApart sampleSha256 (play sampleNext startedGateway labels) := by
  rintro a ⟨e, he, ha⟩ b ⟨e', he', hb⟩ _
  rw [h a (ha ▸ label_of_mem_play _ he), h b (hb ▸ label_of_mem_play _ he')]

/-- A token becomes inactive after its answer was stored, which is used for less than 30 seconds. -/
def revokedLater : List IntrospectionAction :=
  [.start "at_1", .answer 0, .store 0, .tick 1, .deactivate "at_1", .tick 28, .start "at_1",
    .tick 1, .start "at_1", .answer 2, .store 2]

/-- The answers of that run are fresh: `true` twice, then `false`. -/
theorem introspections_fresh_revokedLater :
    FreshAnswers (play sampleNext startedGateway revokedLater)
      (playEnd sampleNext startedGateway revokedLater) := by
  refine introspections_fresh (s := startedGateway) ⟨rfl, rfl⟩
    (run_sample (by decide +kernel)) ?_ ?_
  · apply tokensApart_of_one
    intro other hother
    simpa [revokedLater] using hother
  · intro e he
    simp only [revokedLater, play, List.mem_cons, List.not_mem_nil, or_false] at he
    rcases he with rfl | rfl | rfl | rfl | rfl | rfl | rfl | rfl | rfl | rfl | rfl
    -- The first answer is stored while the token is active.
    case inr.inr.inl =>
      intro call _ _ since hsince
      cases hsince
    -- The last one is a `false`.
    case inr.inr.inr.inr.inr.inr.inr.inr.inr.inr =>
      intro call hcall hphase
      have hfalse : call.phase = .told false := by
        have hthird : (some call).map IntrospectCall.phase = some (.told false) := by
          rw [← hcall]
          decide +kernel
        exact Option.some.inj hthird
      rw [hfalse] at hphase
      cases hphase
    all_goals trivial

/-- Two lookups overlap: the one that asked first is stored last, two seconds after the token became
inactive, and answers a call that starts 31 seconds after that moment. -/
def overlappingLookups : List IntrospectionAction :=
  [.start "at_1", .answer 0, .tick 1, .deactivate "at_1", .start "at_1", .answer 1, .store 1,
    .tick 2, .store 0, .tick 29, .start "at_1"]

/-- **Not every run has fresh answers.** -/
theorem not_forall_freshAnswers :
    ¬ ∀ (sha256 : List UInt8 → Vector UInt8 32) (s t : Introspections) (tr : IntrospectionRun),
      Introspections.Init s → Run (Introspections.Step sha256) s tr t → TokensApart sha256 tr →
        FreshAnswers tr t := by
  intro hall
  have hapart : TokensApart sampleSha256 (play sampleNext startedGateway overlappingLookups) := by
    apply tokensApart_of_one
    intro other hother
    simpa [overlappingLookups] using hother
  have hfresh := hall sampleSha256 startedGateway _ _ ⟨rfl, rfl⟩
    (run_sample (by decide +kernel)) hapart
  have hcalls : (playEnd sampleNext startedGateway overlappingLookups).calls =
      [⟨"at_1", 0, .stored true⟩, ⟨"at_1", 1, .stored false⟩, ⟨"at_1", 32, .cached true⟩] := by
    decide +kernel
  have hsince : (playEnd sampleNext startedGateway overlappingLookups).inactiveSince "at_1" =
      some 1 := by
    decide +kernel
  have hsoon := hfresh.soon ⟨"at_1", 32, .cached true⟩ (by rw [hcalls]; simp) rfl 1 hsince
  have httl : introspectionTtl = 30 := rfl
  rw [httl] at hsoon
  norm_num at hsoon

end Waveform.Accounts
