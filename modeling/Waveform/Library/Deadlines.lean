import Waveform.Library.Monitor

/-!
# Operations under deadlines

A program under a deadline is polled first and given up when the deadline has passed while it waits.
An operation is asked with the deadlines it stands under, innermost first; the answer is its own, or
says which of the deadlines ended it, and when. Time is counted in units of the program's choice.

- `timeoutAt_bind`: a sequence under a deadline.
- `asks_timeoutAt`: everything under a deadline is asked with it.
- `Keeps.timeoutAt`: what a program keeps it keeps under a deadline.
- `Timely`: runs in which waits take their time, and one that starts when a deadline has passed is
  ended by it.
- `Timely.count_waits`: how many waits can be over before a deadline.
-/

set_option autoImplicit false

namespace Deadlines

open Dialogue

variable {Op : Type} {Ans : Op → Type} {α β G : Type}

/-- An operation with the deadlines it stands under. -/
structure Call (Op : Type) where
  op : Op
  bounds : List Nat

/-- The operation's own answer, or the deadline that ended it. -/
inductive Reply (Ans : Op → Type) (c : Call Op) where
  | done (answer : Ans c.op)
  | elapsed (level : Fin c.bounds.length)

/-- A reply and the time it came. -/
structure Answer (Ans : Op → Type) (c : Call Op) where
  reply : Reply Ans c
  ended : Nat

/-- The operation's own answer, if it has one. -/
def Answer.done? {c : Call Op} (answer : Answer Ans c) : Option (Ans c.op) :=
  match answer.reply with
  | .done answer => some answer
  | .elapsed _ => none

/-- A program over operations that may stand under deadlines. -/
abbrev Program (Ans : Op → Type) (α : Type) := Dialogue (Call Op) (Answer Ans) α

/-- One operation, under no deadline yet. -/
def perform (op : Op) : Program Ans (Ans op) :=
  .ask ⟨op, []⟩ fun answer =>
    match answer.reply with
    | .done answer => .done answer
    | .elapsed level => level.elim0

/-- The call under one more deadline. -/
def Call.within (c : Call Op) (deadline : Nat) : Call Op := ⟨c.op, c.bounds ++ [deadline]⟩

/-- The answer to the call itself, unless the added deadline ended it. -/
def Answer.inner {c : Call Op} {deadline : Nat} (answer : Answer Ans (c.within deadline)) :
    Option (Answer Ans c) :=
  match answer.reply with
  | .done own => some ⟨.done own, answer.ended⟩
  | .elapsed level => if h : level.val < c.bounds.length
      then some ⟨.elapsed ⟨level.val, h⟩, answer.ended⟩ else none

/-- `tokio::time::timeout_at`. -/
def timeoutAt (deadline : Nat) : Program Ans α → Program Ans (Option α)
  | .done a => .done (some a)
  | .ask c next => .ask (c.within deadline) fun answer =>
      answer.inner.elim (.done none) fun answer => timeoutAt deadline (next answer)

theorem timeoutAt_ask (deadline : Nat) (c : Call Op) (next : Answer Ans c → Program Ans α) :
    timeoutAt deadline (.ask c next) = .ask (c.within deadline) fun answer =>
      answer.inner.elim (.done none) fun answer => timeoutAt deadline (next answer) := rfl

/-- A sequence under a deadline is given up where its first part is. -/
theorem timeoutAt_bind (deadline : Nat) (p : Program Ans α) (f : α → Program Ans β) :
    timeoutAt deadline (p.bind f) =
      (timeoutAt deadline p).bind fun result => result.elim (.done none) fun a =>
        timeoutAt deadline (f a) := by
  induction p with
  | done a => rfl
  | ask c next ih =>
      rw [timeoutAt_ask, Dialogue.bind, Dialogue.bind, timeoutAt_ask]
      congr 1
      funext answer
      cases answer.inner with
      | none => rfl
      | some own => exact ih own

theorem Answer.inner_done? {c : Call Op} {deadline : Nat} {answer : Answer Ans (c.within deadline)}
    {own : Answer Ans c} (h : answer.inner = some own) : answer.done? = own.done? := by
  obtain ⟨reply, ended⟩ := answer
  cases reply with
  | done a =>
      cases h
      rfl
  | elapsed level =>
      simp only [Answer.inner] at h
      split at h
      · cases h
        rfl
      · cases h

theorem Answer.inner_none {c : Call Op} {deadline : Nat} {answer : Answer Ans (c.within deadline)}
    (h : answer.inner = none) : answer.done? = none := by
  obtain ⟨reply, ended⟩ := answer
  cases reply with
  | done a => cases h
  | elapsed level => rfl

/-! ## How it ends -/

/-- An operation under no deadline is waited for, or answered before the rest. -/
theorem ends_perform_bind {op : Op} {f : Ans op → Program Ans α}
    {tr : List (Exchange (Call Op) (Answer Ans))}
    {ending : Ending (Call Op) α} :
    Ends ((perform op).bind f) tr ending ↔
      (tr = [] ∧ ending = .dropped ⟨op, []⟩) ∨
        ∃ answer ended rest, tr = ⟨⟨op, []⟩, ⟨.done answer, ended⟩⟩ :: rest ∧
          Ends (f answer) rest ending := by
  constructor
  · intro h
    cases h with
    | dropped => exact .inl ⟨rfl, rfl⟩
    | answered answer hrest =>
        obtain ⟨reply, ended⟩ := answer
        cases reply with
        | done answer => exact .inr ⟨answer, ended, _, rfl, hrest⟩
        | elapsed level => exact level.elim0
  · rintro (⟨rfl, rfl⟩ | ⟨answer, ended, rest, rfl, hrest⟩)
    · exact .dropped _ _
    · exact .answered _ hrest

/-! ## What is asked -/

/-- Everything under a deadline is asked with it. -/
theorem asks_timeoutAt (deadline : Nat) (p : Program Ans α) :
    Asks (fun c => deadline ∈ c.bounds) (timeoutAt deadline p) := by
  induction p with
  | done a => trivial
  | ask c next ih =>
      rw [timeoutAt_ask]
      refine ⟨List.mem_append_right _ (List.mem_singleton_self _), fun answer => ?_⟩
      cases h : answer.inner with
      | some own =>
          simp only [h, Option.elim]
          exact ih own
      | none =>
          simp only [h, Option.elim]
          trivial

theorem Asks.perform {P : Call Op → Prop} {op : Op} (h : P ⟨op, []⟩) :
    Asks P (perform op : Program Ans (Ans op)) := by
  refine ⟨h, fun answer => ?_⟩
  obtain ⟨reply, ended⟩ := answer
  cases reply with
  | done own => trivial
  | elapsed level => exact level.elim0

/-- A condition that more deadlines do not break holds of what is asked under one more. -/
theorem Asks.timeoutAt {P : Call Op → Prop} (hwithin : ∀ c deadline, P c → P (c.within deadline))
    {deadline : Nat}
    {p : Program Ans α} (h : Asks P p) : Asks P (timeoutAt deadline p) := by
  induction p with
  | done a => trivial
  | ask c next ih =>
      rw [timeoutAt_ask]
      refine ⟨hwithin c deadline h.1, fun answer => ?_⟩
      cases hinner : answer.inner with
      | some own =>
          simp only [hinner, Option.elim]
          exact ih own (h.2 own)
      | none =>
          simp only [hinner, Option.elim]
          trivial

/-! ## Monitors of operations -/

/-- A monitor that sees the operations and their own answers. -/
def monitor (start : G → Op → G) (finish : G → (op : Op) → Option (Ans op) → G) :
    Monitor (Call Op) (Answer Ans) G where
  start := fun g c => start g c.op
  finish := fun g c answer => finish g c.op answer.done?

section Keeps

variable {start : G → Op → G} {finish : G → (op : Op) → Option (Ans op) → G} {Ok : G → Prop}

theorem Keeps.perform {op : Op} {g : G} {Post : G → Ans op → Prop} (h : Ok (start g op))
    (hpost : ∀ answer, Post (finish (start g op) op (some answer)) answer) :
    Keeps (monitor start finish) Ok (perform op) g Post := by
  refine ⟨h, fun answer => ?_⟩
  obtain ⟨reply, ended⟩ := answer
  cases reply with
  | done own => exact hpost own
  | elapsed level => exact level.elim0

/-- What a program keeps it keeps under a deadline; where it is given up, what an operation without
an answer leaves holds. -/
theorem Keeps.timeoutAt {p : Program Ans α} {deadline : Nat} {g : G} {Post : G → α → Prop}
    {GivenUp : G → Prop}
    (h : Keeps (monitor start finish) Ok p g Post)
    (hgivenUp : ∀ g op, Ok g → GivenUp (finish g op none)) :
    Keeps (monitor start finish) Ok (timeoutAt deadline p) g fun g result =>
      match result with
      | some a => Post g a
      | none => GivenUp g := by
  induction p generalizing g with
  | done a => exact h
  | ask c next ih =>
      rw [timeoutAt_ask]
      refine ⟨h.1, fun answer => ?_⟩
      cases hinner : answer.inner with
      | some own =>
          simp only [hinner, Option.elim]
          have hsame : answer.done? = own.done? := Answer.inner_done? hinner
          have hnext := ih own (h.2 own)
          change Keeps _ _ _ (finish (start g c.op) c.op own.done?) _ at hnext
          rw [← hsame] at hnext
          exact hnext
      | none =>
          simp only [hinner, Option.elim]
          have hnone : answer.done? = none := Answer.inner_none hinner
          change GivenUp (finish (start g c.op) c.op answer.done?)
          rw [hnone]
          exact hgivenUp _ _ h.1

end Keeps

/-! ## Time -/

/-- What takes time: how long an operation waits at least, and the readings of the clock. -/
structure Clock (Ans : Op → Type) where
  waits : Op → Nat
  reads : (op : Op) → Ans op → Option Nat

/-- An exchange takes its time. An operation that answers came to an end after its wait, and a wait
that would start when one of its deadlines has passed does not answer; a deadline ends an operation
when it has passed. -/
def TimelyExchange (clock : Clock Ans) (now : Nat) (e : Exchange (Call Op) (Answer Ans)) : Prop :=
  now ≤ e.answer.ended ∧
    match e.answer.reply with
    | .done answer => now + clock.waits e.query.op ≤ e.answer.ended ∧
        (0 < clock.waits e.query.op → ∀ bound ∈ e.query.bounds, now < bound) ∧
        ∀ reading, clock.reads e.query.op answer = some reading → reading = e.answer.ended
    | .elapsed level => e.query.bounds[level] ≤ e.answer.ended

/-- The exchanges of a run take their time, from a moment on. -/
def Timely (clock : Clock Ans) : Nat → List (Exchange (Call Op) (Answer Ans)) → Prop
  | _, [] => True
  | now, e :: tr => TimelyExchange clock now e ∧ Timely clock e.answer.ended tr

/-- The waits of a length under a deadline that were over. -/
def finishedWaits (clock : Clock Ans) (length deadline : Nat)
    (tr : List (Exchange (Call Op) (Answer Ans))) : Nat :=
  tr.countP fun e => decide (length ≤ clock.waits e.query.op) &&
    decide (deadline ∈ e.query.bounds) &&
    e.answer.done?.isSome

theorem finishedWaits_le_cons (clock : Clock Ans) (length deadline : Nat)
    (e : Exchange (Call Op) (Answer Ans))
    (tr : List (Exchange (Call Op) (Answer Ans))) :
    finishedWaits clock length deadline tr ≤ finishedWaits clock length deadline (e :: tr) :=
  (List.sublist_cons_self e tr).countP_le

theorem finishedWaits_cons_of_wait {clock : Clock Ans} {length deadline : Nat}
    {e : Exchange (Call Op) (Answer Ans)}
    (hlength : length ≤ clock.waits e.query.op) (hdeadline : deadline ∈ e.query.bounds)
    (hdone : e.answer.done?.isSome = true) (tr : List (Exchange (Call Op) (Answer Ans))) :
    finishedWaits clock length deadline (e :: tr) = finishedWaits clock length deadline tr + 1 := by
  refine List.countP_cons_of_pos ?_
  rw [decide_eq_true hlength, decide_eq_true hdeadline, hdone]
  rfl

/-- Before a deadline only so many waits can be over. -/
theorem Timely.count_waits {clock : Clock Ans} {length now : Nat}
    {tr : List (Exchange (Call Op) (Answer Ans))} (h : Timely clock now tr) (deadline : Nat)
    (hlength : 0 < length) :
    finishedWaits clock length deadline tr = 0 ∨
      now + length * (finishedWaits clock length deadline tr - 1) < deadline := by
  induction tr generalizing now with
  | nil => exact .inl rfl
  | cons e tr ih =>
      obtain ⟨⟨hlater, hexchange⟩, hrest⟩ := h
      have hih := ih hrest
      rw [finishedWaits, List.countP_cons]
      change (finishedWaits clock length deadline tr + _ = 0) ∨
        _ + _ * (finishedWaits clock length deadline tr + _ - 1) < _
      by_cases hcount : (decide (length ≤ clock.waits e.query.op) &&
        decide (deadline ∈ e.query.bounds) &&
          e.answer.done?.isSome) = true
      · rw [if_pos hcount]
        simp only [Bool.and_eq_true, decide_eq_true_eq] at hcount
        obtain ⟨⟨hwait, hbound⟩, hdone⟩ := hcount
        cases hreply : e.answer.reply with
        | elapsed level =>
            rw [Answer.done?, hreply] at hdone
            cases hdone
        | done answer =>
            rw [hreply] at hexchange
            obtain ⟨hended, hstarted, -⟩ := hexchange
            have hbefore := hstarted (by omega) deadline hbound
            right
            rcases hih with hzero | hlt
            · rw [hzero]
              simpa using hbefore
            · cases hn : finishedWaits clock length deadline tr with
              | zero => simpa using hbefore
              | succ n =>
                  rw [hn] at hlt
                  simp only [Nat.add_sub_cancel] at hlt ⊢
                  rw [Nat.mul_succ]
                  omega
      · rw [if_neg hcount, Nat.add_zero]
        rcases hih with hzero | hlt
        · exact .inl hzero
        · exact .inr (by omega)

end Deadlines
