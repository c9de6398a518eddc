import Waveform.Library.LabelledRun
import Mathlib.Logic.Function.Basic

/-!
# One call at a time for each key

A process answers requests by calls that take time. A table remembers one promise for each key with
a deadline: a request takes the promise of its key when its deadline has not passed, and makes a
call otherwise. The deadline is set when the call is made, and set again when the call is settled,
unless the outcome is of a kind that leaves it as it was. The clock is in the state; a call takes no
longer than a limit.

- `Inv.step`: a call is in the table exactly until its deadline.
- `Inv.single`, `Inv.joins`: two calls of one key are never under way together, and a request joins
  the call that is.
- `Inv.apart`, `Inv.remembered`: the next call of a key is made after the deadline, and no request
  is answered from the table after it.
-/

set_option autoImplicit false

universe u v w

namespace SingleFlight

open LabelledRun

/-! ## The table -/

/-- A promise that is remembered, by the number of its call, and until when. -/
structure Memo where
  promise : Nat
  deadline : Nat
  deriving DecidableEq

/-- A call is under way, or was settled at a time. -/
inductive Progress (Outcome : Type w) where
  | pending
  | settled (outcome : Outcome) (time : Nat)
  deriving DecidableEq

/-- A call, with the argument of the request that made it. -/
structure Call (Arg : Type v) (Outcome : Type w) where
  arg : Arg
  started : Nat
  progress : Progress Outcome

/-- The clock, the table and the calls made so far. -/
structure State (Key : Type u) (Arg : Type v) (Outcome : Type w) where
  now : Nat
  memos : Key → Option Memo
  calls : List (Call Arg Outcome)

/-- How long a promise is remembered: from the call on while it is pending, and from its settlement
on by its outcome, where the outcome sets the deadline again. -/
structure Policy (Key : Type u) (Arg : Type v) (Outcome : Type w) where
  key : Arg → Key
  pendingFor : Nat
  keptFor : Outcome → Option Nat

section Operations

variable {Key : Type u} {Arg : Type v} {Outcome : Type w} (policy : Policy Key Arg Outcome)

/-- The deadline of a call. -/
def Policy.deadline (call : Call Arg Outcome) : Nat :=
  match call.progress with
  | .pending => call.started + policy.pendingFor
  | .settled outcome time =>
      match policy.keptFor outcome with
      | some kept => time + kept
      | none => call.started + policy.pendingFor

/-- The state before any request. -/
def State.empty (now : Nat) : State Key Arg Outcome := ⟨now, fun _ => none, []⟩

/-- The promises whose deadline has passed are forgotten. -/
def State.prune (s : State Key Arg Outcome) : State Key Arg Outcome :=
  { s with memos := fun key => (s.memos key).filter fun memo => decide (s.now ≤ memo.deadline) }

/-- A request: the promise it is given, and the state after it. -/
def request [DecidableEq Key] (arg : Arg) (s : State Key Arg Outcome) :
    Nat × State Key Arg Outcome :=
  match s.prune.memos (policy.key arg) with
  | some memo => (memo.promise, s.prune)
  | none =>
      (s.calls.length,
        { now := s.now
          memos := Function.update s.prune.memos (policy.key arg)
            (some ⟨s.calls.length, s.now + policy.pendingFor⟩)
          calls := s.calls ++ [⟨arg, s.now, .pending⟩] })

/-- A call is settled, and the deadline of its promise set again. -/
def settle (promise : Nat) (call : Call Arg Outcome) (outcome : Outcome)
    (s : State Key Arg Outcome) : State Key Arg Outcome where
  now := s.now
  memos := fun key => (s.memos key).map fun memo =>
    if memo.promise = promise then
      { memo with deadline := (policy.keptFor outcome).elim memo.deadline (s.now + ·) }
    else memo
  calls := s.calls.set promise { call with progress := .settled outcome s.now }

/-- A request is given a promise, a call is settled, or time passes. -/
inductive Action (Arg : Type v) (Outcome : Type w) where
  | request (arg : Arg) (promise : Nat)
  | settle (promise : Nat) (outcome : Outcome)
  | tick (duration : Nat)

/-- The steps. `Possible` says which outcomes a call may have at a time, and `longest` how long it
may take: time does not pass a call that is due. -/
inductive Step [DecidableEq Key] (Possible : Arg → Nat → Outcome → Prop) (longest : Nat) :
    State Key Arg Outcome → Action Arg Outcome → State Key Arg Outcome → Prop where
  | request {s s' : State Key Arg Outcome} {arg : Arg} {promise : Nat}
      (h : request policy arg s = (promise, s')) :
      Step Possible longest s (.request arg promise) s'
  | settle {s : State Key Arg Outcome} {promise : Nat} {call : Call Arg Outcome} {outcome : Outcome}
      (hcall : s.calls[promise]? = some call) (hpending : call.progress = .pending)
      (hpossible : Possible call.arg s.now outcome) :
      Step Possible longest s (.settle promise outcome) (settle policy promise call outcome s)
  | tick {s : State Key Arg Outcome} {duration : Nat}
      (hdue : ∀ call ∈ s.calls, call.progress = .pending →
        s.now + duration ≤ call.started + longest) :
      Step Possible longest s (.tick duration) { s with now := s.now + duration }

end Operations

/-! ## The invariant -/

section Invariant

variable {Key : Type u} {Arg : Type v} {Outcome : Type w} {policy : Policy Key Arg Outcome}
  {longest : Nat} {s s' : State Key Arg Outcome}

/-- The table holds the calls whose deadline has not passed. -/
structure Inv (policy : Policy Key Arg Outcome) (longest : Nat) (s : State Key Arg Outcome) :
    Prop where
  known : ∀ (key : Key) (memo : Memo), s.memos key = some memo →
    ∃ call, s.calls[memo.promise]? = some call ∧ policy.key call.arg = key ∧
      memo.deadline = policy.deadline call
  held : ∀ (promise : Nat) (call : Call Arg Outcome), s.calls[promise]? = some call →
    s.now ≤ policy.deadline call →
    s.memos (policy.key call.arg) = some ⟨promise, policy.deadline call⟩
  due : ∀ (promise : Nat) (call : Call Arg Outcome), s.calls[promise]? = some call →
    call.progress = .pending → s.now ≤ call.started + longest
  begun : ∀ (promise : Nat) (call : Call Arg Outcome), s.calls[promise]? = some call →
    call.started ≤ s.now
  apart : ∀ (i j : Nat) (call call' : Call Arg Outcome), i < j → s.calls[i]? = some call →
    s.calls[j]? = some call' → policy.key call.arg = policy.key call'.arg →
    policy.deadline call < call'.started

theorem deadline_pending {call : Call Arg Outcome} (h : call.progress = .pending) :
    policy.deadline call = call.started + policy.pendingFor := by
  rw [Policy.deadline, h]

theorem deadline_settled {call : Call Arg Outcome} {outcome : Outcome} {time kept : Nat}
    (h : call.progress = .settled outcome time) (hkept : policy.keptFor outcome = some kept) :
    policy.deadline call = time + kept := by
  rw [Policy.deadline, h]
  simp only [hkept]

theorem Inv.empty (now : Nat) : Inv policy longest (.empty now) where
  known := fun _ _ h => nomatch h
  held := fun _ _ h => nomatch h
  due := fun _ _ h => nomatch h
  begun := fun _ _ h => nomatch h
  apart := fun _ _ _ _ _ h => nomatch h

/-- A call under way is in the table. -/
theorem Inv.held_pending (h : Inv policy longest s) (hlong : longest ≤ policy.pendingFor)
    {promise : Nat} {call : Call Arg Outcome} (hcall : s.calls[promise]? = some call)
    (hpending : call.progress = .pending) :
    s.memos (policy.key call.arg) = some ⟨promise, policy.deadline call⟩ := by
  apply h.held promise call hcall
  have hdue := h.due promise call hcall hpending
  rw [deadline_pending hpending]
  omega

/-- **Two calls of one key are never under way together.** -/
theorem Inv.single (h : Inv policy longest s) (hlong : longest ≤ policy.pendingFor) {i j : Nat}
    {call call' : Call Arg Outcome} (hi : s.calls[i]? = some call) (hj : s.calls[j]? = some call')
    (hpending : call.progress = .pending) (hpending' : call'.progress = .pending)
    (hkey : policy.key call.arg = policy.key call'.arg) : i = j := by
  have hheld := h.held_pending hlong hi hpending
  rw [hkey, h.held_pending hlong hj hpending'] at hheld
  exact (congrArg Memo.promise (Option.some.inj hheld)).symm

theorem prune_eq_some {key : Key} {memo : Memo} :
    s.prune.memos key = some memo ↔ s.memos key = some memo ∧ s.now ≤ memo.deadline := by
  rw [State.prune, Option.filter_eq_some_iff]
  exact and_congr_right fun _ => decide_eq_true_iff

/-- Pruning keeps the invariant. -/
theorem Inv.prune (h : Inv policy longest s) : Inv policy longest s.prune where
  known := fun key memo hmemo => h.known key memo (prune_eq_some.mp hmemo).1
  held := fun promise call hcall hnow => prune_eq_some.mpr ⟨h.held promise call hcall hnow, hnow⟩
  due := h.due
  begun := h.begun
  apart := h.apart

/-- The deadline that settling leaves in the table. -/
theorem deadline_settle {call : Call Arg Outcome} (hpending : call.progress = .pending)
    (outcome : Outcome) (time : Nat) :
    policy.deadline { call with progress := .settled outcome time } =
      (policy.keptFor outcome).elim (policy.deadline call) (time + ·) := by
  rw [deadline_pending hpending, Policy.deadline]
  cases hkept : policy.keptFor outcome with
  | none => simp only [hkept, Option.elim_none]
  | some kept => simp only [hkept, Option.elim_some]

/-- A settlement keeps the invariant. -/
theorem Inv.settle (h : Inv policy longest s) (hlong : longest ≤ policy.pendingFor) {promise : Nat}
    {call : Call Arg Outcome} {outcome : Outcome} (hcall : s.calls[promise]? = some call)
    (hpending : call.progress = .pending) :
    Inv policy longest (settle policy promise call outcome s) := by
  have hheld := h.held_pending hlong hcall hpending
  have hlength := (List.getElem?_eq_some_iff.mp hcall).1
  -- The calls are the other ones and the settled one.
  have hcalls : ∀ i call', (SingleFlight.settle policy promise call outcome s).calls[i]? =
    some call' →
      i ≠ promise ∧ s.calls[i]? = some call' ∨
        i = promise ∧ call' = { call with progress := .settled outcome s.now } := by
    intro i call' hcall'
    by_cases hi : i = promise
    · subst hi
      rw [SingleFlight.settle, List.getElem?_set_self hlength] at hcall'
      exact .inr ⟨rfl, (Option.some.inj hcall').symm⟩
    · rw [SingleFlight.settle, List.getElem?_set_ne (Ne.symm hi)] at hcall'
      exact .inl ⟨hi, hcall'⟩
  refine ⟨fun key memo hmemo => ?_, fun i call' hcall' hnow => ?_,
    fun i call' hcall' hpending' => ?_,
    fun i call' hcall' => ?_, fun i j call₁ call₂ hij h₁ h₂ hkey => ?_⟩
  · obtain ⟨old, hold, rfl⟩ := Option.map_eq_some_iff.mp hmemo
    obtain ⟨call', hcall', hkey, hdeadline⟩ := h.known key old hold
    by_cases hpromise : old.promise = promise
    · rw [if_pos hpromise]
      rw [hpromise, hcall] at hcall'
      cases hcall'
      refine ⟨{ call with progress := .settled outcome s.now }, ?_, hkey, ?_⟩
      · rw [SingleFlight.settle, hpromise]
        exact List.getElem?_set_self hlength
      · rw [deadline_settle hpending, ← hdeadline]
    · rw [if_neg hpromise]
      refine ⟨call', ?_, hkey, hdeadline⟩
      exact (List.getElem?_set_ne (Ne.symm hpromise)).trans hcall'
  · rcases hcalls i call' hcall' with ⟨hne, hcall'⟩ | ⟨rfl, rfl⟩
    · have hmemo := h.held i call' hcall' hnow
      rw [SingleFlight.settle]
      simp only [hmemo, Option.map_some, if_neg hne]
    · rw [SingleFlight.settle, deadline_settle hpending]
      simp only [hheld, Option.map_some, if_true]
  · rcases hcalls i call' hcall' with ⟨_, hcall'⟩ | ⟨rfl, rfl⟩
    · exact h.due i call' hcall' hpending'
    · cases hpending'
  · rcases hcalls i call' hcall' with ⟨_, hcall'⟩ | ⟨rfl, rfl⟩
    · exact h.begun i call' hcall'
    · exact h.begun i call hcall
  · rcases hcalls i call₁ h₁ with ⟨_, hold₁⟩ | ⟨rfl, rfl⟩
    · rcases hcalls j call₂ h₂ with ⟨_, hold₂⟩ | ⟨rfl, rfl⟩
      · exact h.apart i j call₁ call₂ hij hold₁ hold₂ hkey
      · exact h.apart i j call₁ call hij hold₁ hcall hkey
    · rcases hcalls j call₂ h₂ with ⟨_, hold₂⟩ | ⟨rfl, rfl⟩
      · -- A later call of the key would have been made after the deadline of one that is under way.
        have hlate := h.apart i j call call₂ hij hcall hold₂ hkey
        have hbegun := h.begun j call₂ hold₂
        have hdue := h.due i call hcall hpending
        rw [deadline_pending hpending] at hlate
        omega
      · exact absurd hij (Nat.lt_irrefl _)

/-! ## Requests and runs -/

section Steps

variable [DecidableEq Key] {Possible : Arg → Nat → Outcome → Prop} {action : Action Arg Outcome}

/-- What a request is given: the promise of a call in time, or that of a new call, where every
earlier call of the key has passed its deadline. -/
theorem Inv.request_cases (h : Inv policy longest s) {arg : Arg} {promise : Nat}
    (hrequest : request policy arg s = (promise, s')) :
    (∃ call, s.calls[promise]? = some call ∧ policy.key call.arg = policy.key arg ∧
        s.now ≤ policy.deadline call ∧ s' = s.prune) ∨
      (∀ (i : Nat) (call : Call Arg Outcome), s.calls[i]? = some call →
        policy.key call.arg = policy.key arg → policy.deadline call < s.now) ∧
        promise = s.calls.length ∧
      s' = { now := s.now
             memos := Function.update s.prune.memos (policy.key arg)
               (some ⟨s.calls.length, s.now + policy.pendingFor⟩)
             calls := s.calls ++ [⟨arg, s.now, .pending⟩] } := by
  rw [request] at hrequest
  cases hmemo : s.prune.memos (policy.key arg) with
  | some memo =>
      rw [hmemo] at hrequest
      cases hrequest
      obtain ⟨hmem, hnow⟩ := prune_eq_some.mp hmemo
      obtain ⟨call, hcall, hkey, hdeadline⟩ := h.known _ memo hmem
      exact .inl ⟨call, hcall, hkey, hdeadline ▸ hnow, rfl⟩
  | none =>
      rw [hmemo] at hrequest
      cases hrequest
      refine .inr ⟨fun i call hcall hkey => Nat.lt_of_not_le fun hnow => ?_, rfl, rfl⟩
      have hheld := prune_eq_some.mpr ⟨h.held i call hcall hnow, hnow⟩
      rw [hkey, hmemo] at hheld
      cases hheld

/-- **A request joins the call under way.** -/
theorem Inv.joins (h : Inv policy longest s) (hlong : longest ≤ policy.pendingFor) {arg : Arg}
    {promise i : Nat} {call : Call Arg Outcome} (hrequest : request policy arg s = (promise, s'))
    (hcall : s.calls[i]? = some call) (hpending : call.progress = .pending)
    (hkey : policy.key call.arg = policy.key arg) : promise = i := by
  have hheld := h.held_pending hlong hcall hpending
  have hnow : s.now ≤ policy.deadline call := by
    have hdue := h.due i call hcall hpending
    rw [deadline_pending hpending]
    omega
  have hmemo := prune_eq_some.mpr ⟨hheld, hnow⟩
  rw [hkey] at hmemo
  rw [request, hmemo] at hrequest
  cases hrequest
  rfl

/-- **No request is answered from the table after the deadline.** -/
theorem Inv.remembered (h : Inv policy longest s) {arg : Arg} {promise : Nat}
    {call : Call Arg Outcome} (hrequest : request policy arg s = (promise, s'))
    (hcall : s.calls[promise]? = some call) : s.now ≤ policy.deadline call := by
  rcases h.request_cases hrequest with ⟨call', hcall', _, hnow, _⟩ | ⟨_, rfl, _⟩
  · cases hcall.symm.trans hcall'
    exact hnow
  · exact absurd hcall (by simp)

/-- A request keeps the invariant. -/
theorem Inv.request (h : Inv policy longest s) {arg : Arg} {promise : Nat}
    (hrequest : request policy arg s = (promise, s')) : Inv policy longest s' := by
  rcases h.request_cases hrequest with ⟨_, _, _, _, rfl⟩ | ⟨hpassed, rfl, rfl⟩
  · exact h.prune
  -- The calls are the earlier ones and the new one.
  have hcalls : ∀ i call, (s.calls ++ [⟨arg, s.now, .pending⟩])[i]? = some call →
      s.calls[i]? = some call ∨ i = s.calls.length ∧ call = ⟨arg, s.now, .pending⟩ := by
    intro i call hcall
    rcases Nat.lt_or_ge i s.calls.length with hi | hi
    · exact .inl ((List.getElem?_append_left hi).symm.trans hcall)
    · rw [List.getElem?_append_right hi, List.getElem?_singleton] at hcall
      split at hcall
      · cases hcall
        exact .inr ⟨by omega, rfl⟩
      · cases hcall
  have hdeadline : policy.deadline (⟨arg, s.now, .pending⟩ : Call Arg Outcome) =
      s.now + policy.pendingFor := rfl
  refine ⟨fun key memo hmemo => ?_, fun i call hcall hnow => ?_, fun i call hcall hpending => ?_,
    fun i call hcall => ?_, fun i j call call' hij hcall hcall' hkey => ?_⟩
  · by_cases hkey : key = policy.key arg
    · subst hkey
      cases (Function.update_self ..).symm.trans hmemo
      exact ⟨⟨arg, s.now, .pending⟩, by simp, rfl, hdeadline.symm⟩
    · have hold := (Function.update_of_ne hkey ..).symm.trans hmemo
      obtain ⟨call, hcall, hown, heq⟩ := h.prune.known key memo hold
      have hlt := (List.getElem?_eq_some_iff.mp hcall).1
      exact ⟨call, (List.getElem?_append_left hlt).trans hcall, hown, heq⟩
  · rcases hcalls i call hcall with hcall | ⟨rfl, rfl⟩
    · have hkey : policy.key call.arg ≠ policy.key arg := fun hkey =>
        absurd hnow (Nat.not_le.mpr (hpassed i call hcall hkey))
      exact (Function.update_of_ne hkey ..).trans (h.prune.held i call hcall hnow)
    · exact Function.update_self ..
  · rcases hcalls i call hcall with hcall | ⟨rfl, rfl⟩
    · exact h.due i call hcall hpending
    · exact Nat.le_add_right _ _
  · rcases hcalls i call hcall with hcall | ⟨rfl, rfl⟩
    · exact h.begun i call hcall
    · exact Nat.le_refl _
  · rcases hcalls i call hcall with hcall | ⟨rfl, rfl⟩
    · rcases hcalls j call' hcall' with hcall' | ⟨rfl, rfl⟩
      · exact h.apart i j call call' hij hcall hcall' hkey
      · exact hpassed i call hcall hkey
    · rcases hcalls j call' hcall' with hcall' | ⟨rfl, rfl⟩
      · have hlt := (List.getElem?_eq_some_iff.mp hcall').1
        omega
      · exact absurd hij (Nat.lt_irrefl _)

/-- **Every step keeps the invariant**, when no call outlasts the deadline it was made with. -/
theorem Inv.step (h : Inv policy longest s) (hlong : longest ≤ policy.pendingFor)
    (hstep : Step policy Possible longest s action s') : Inv policy longest s' := by
  cases hstep with
  | request hrequest => exact h.request hrequest
  | settle hcall hpending _ => exact h.settle hlong hcall hpending
  | tick hdue =>
      refine ⟨h.known, fun i call hcall hnow => ?_, fun i call hcall hpending => ?_,
        fun i call hcall => ?_, h.apart⟩
      · exact h.held i call hcall (Nat.le_trans (Nat.le_add_right _ _) hnow)
      · exact hdue call (List.mem_of_getElem? hcall) hpending
      · exact Nat.le_trans (h.begun i call hcall) (Nat.le_add_right _ _)

/-- A settled call stays as it is. -/
theorem settled_step {promise : Nat} {call : Call Arg Outcome} {outcome : Outcome} {time : Nat}
    (hcall : s.calls[promise]? = some call) (hsettled : call.progress = .settled outcome time)
    (hstep : Step policy Possible longest s action s') : s'.calls[promise]? = some call := by
  cases hstep with
  | tick _ => exact hcall
  | @request _ arg other hrequest =>
      rw [SingleFlight.request] at hrequest
      split at hrequest
      · cases hrequest
        exact hcall
      · cases hrequest
        have hlength := (List.getElem?_eq_some_iff.mp hcall).1
        exact (List.getElem?_append_left hlength).trans hcall
  | @settle other call' outcome' hother hpending _ =>
      have hne : other ≠ promise := by
        rintro rfl
        cases hcall.symm.trans hother
        cases hsettled.symm.trans hpending
      exact (List.getElem?_set_ne hne).trans hcall

end Steps

end Invariant

end SingleFlight
