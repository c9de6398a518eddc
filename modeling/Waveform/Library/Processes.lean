import Waveform.Library.Dialogue
import Waveform.Library.LabelledRun
import Mathlib.Logic.Function.Basic

/-!
# Processes that share a state

A process runs a program, and processes take turns: a step starts a process, or lets one process
exchange its query for an answer. The answer changes the shared state; which answers are possible is
a parameter. Any number of processes run, in any interleaving.

A discipline is kept along the way: a view is what a process knows, its own exchanges change it, and
it decides which queries the process may ask and which answers are lawful.

- `Follows.bind`, `Follows.andThen`: programs that keep to the discipline, part by part;
  `Follows.trace`: what is left of a program still does.
- `Disciplined.step`: an invariant of the shared state and the views holds at every step when every
  program keeps to the discipline and each allowed exchange preserves it.
- `trace_exchangesOf`, `Disciplined.along`: what a process has exchanged so far is a trace of its
  program, and lawful along the way.
- `run_next`: a list of actions that are possible one after the other is a run.
-/

set_option autoImplicit false

universe u v w x y z

namespace Dialogue

open LabelledRun

variable {Query : Type u} {Answer : Query → Type u} {α β : Type v}

/-! ## Programs under way -/

/-- The exchanges of a program so far and what is left of it. -/
inductive Trace : Dialogue Query Answer α → List (Exchange Query Answer) →
    Dialogue Query Answer α → Prop where
  | nil (p : Dialogue Query Answer α) : Trace p [] p
  | cons {q : Query} {next : Answer q → Dialogue Query Answer α} {p : Dialogue Query Answer α}
      {tr : List (Exchange Query Answer)} (answer : Answer q) :
      Trace (next answer) tr p → Trace (ask q next) (⟨q, answer⟩ :: tr) p

section Trace

variable {p p' : Dialogue Query Answer α} {tr : List (Exchange Query Answer)}

/-- One more exchange. -/
theorem Trace.snoc {q : Query} {next : Answer q → Dialogue Query Answer α}
    (h : Trace p tr (ask q next)) (answer : Answer q) :
    Trace p (tr ++ [⟨q, answer⟩]) (next answer) := by
  generalize hleft : ask q next = left at h
  induction h with
  | nil p =>
      subst hleft
      exact .cons answer (.nil _)
  | cons answer' _ ih => exact .cons answer' (ih hleft)

/-- A program that is done has been run. -/
theorem trace_done_iff {a : α} : Trace p tr (done a) ↔ Runs p tr a := by
  constructor
  · intro h
    generalize hleft : (done a : Dialogue Query Answer α) = left at h
    induction h with
    | nil p =>
        subst hleft
        exact .done a
    | cons answer _ ih => exact .ask answer (ih hleft)
  · intro h
    induction h with
    | done a => exact .nil _
    | ask answer _ ih => exact .cons answer ih

/-- What is left of a sequence: its first part is under way, or it has been run and the second part
is under way. -/
theorem trace_bind {f : α → Dialogue Query Answer β} {left : Dialogue Query Answer β}
    (h : Trace (p.bind f) tr left) :
    (∃ p', Trace p tr p' ∧ left = p'.bind f) ∨
      ∃ tr₁ a tr₂, tr = tr₁ ++ tr₂ ∧ Runs p tr₁ a ∧ Trace (f a) tr₂ left := by
  induction p generalizing tr with
  | done a => exact .inr ⟨[], a, tr, rfl, .done a, h⟩
  | ask q next ih =>
      cases h with
      | nil => exact .inl ⟨_, .nil _, rfl⟩
      | cons answer hrest =>
          rcases ih answer hrest with ⟨p', htrace, heq⟩ | ⟨tr₁, a, tr₂, rfl, hruns, htrace⟩
          · exact .inl ⟨p', .cons answer htrace, heq⟩
          · exact .inr ⟨_, a, tr₂, rfl, .ask answer hruns, htrace⟩

end Trace

/-! ## Keeping to a discipline -/

section Discipline

variable {View : Type w} (after : View → Exchange Query Answer → View)
  (Allowed : View → Query → Prop)
  (Lawful : View → Exchange Query Answer → Prop)

/-- The program only asks what its view allows, whatever the lawful answers, and its result
satisfies a postcondition. -/
def Follows (Post : View → α → Prop) : View → Dialogue Query Answer α → Prop
  | view, done a => Post view a
  | view, ask q next => Allowed view q ∧
      ∀ answer, Lawful view ⟨q, answer⟩ → Follows Post (after view ⟨q, answer⟩) (next answer)

/-- Each exchange is lawful from the view it finds. -/
def Along : View → List (Exchange Query Answer) → Prop
  | _, [] => True
  | view, e :: tr => Lawful view e ∧ Along (after view e) tr

variable {after Allowed Lawful} {view : View}

/-- A weaker postcondition. -/
theorem Follows.mono {Post Post' : View → α → Prop} {p : Dialogue Query Answer α}
    (h : Follows after Allowed Lawful Post view p) (hpost : ∀ view a, Post view a → Post' view a) :
    Follows after Allowed Lawful Post' view p := by
  induction p generalizing view with
  | done a => exact hpost view a h
  | ask q next ih => exact ⟨h.1, fun answer hanswer => ih answer (h.2 answer hanswer)⟩

/-- Fewer answers. -/
theorem Follows.restrict {Lawful' : View → Exchange Query Answer → Prop} {Post : View → α → Prop}
    {p : Dialogue Query Answer α} (h : Follows after Allowed Lawful Post view p)
    (hlawful : ∀ view e, Lawful' view e → Lawful view e) :
    Follows after Allowed Lawful' Post view p := by
  induction p generalizing view with
  | done a => exact h
  | ask q next ih => exact ⟨h.1, fun answer hanswer => ih answer (h.2 answer (hlawful _ _ hanswer))⟩

/-- The rule of sequences. -/
theorem Follows.bind {Mid : View → α → Prop} {Post : View → β → Prop}
    {p : Dialogue Query Answer α} {f : α → Dialogue Query Answer β}
    (hp : Follows after Allowed Lawful Mid view p)
    (hf : ∀ view a, Mid view a → Follows after Allowed Lawful Post view (f a)) :
    Follows after Allowed Lawful Post view (p.bind f) := by
  induction p generalizing view with
  | done a => exact hf view a hp
  | ask q next ih => exact ⟨hp.1, fun answer hanswer => ih answer (hp.2 answer hanswer)⟩

/-- The rule of sequences that an error ends. -/
theorem Follows.andThen {ε : Type v} {Mid : View → Except ε α → Prop}
    {Post : View → Except ε β → Prop} {p : Dialogue Query Answer (Except ε α)}
    {f : α → Dialogue Query Answer (Except ε β)} (hp : Follows after Allowed Lawful Mid view p)
    (herror : ∀ view error, Mid view (.error error) → Post view (.error error))
    (hf : ∀ view a, Mid view (.ok a) → Follows after Allowed Lawful Post view (f a)) :
    Follows after Allowed Lawful Post view (p.andThen f) := by
  refine hp.bind fun view result hresult => ?_
  cases result with
  | error error => exact herror view error hresult
  | ok a => exact hf view a hresult

/-- What is left of a program keeps to the discipline. -/
theorem Follows.trace {Post : View → α → Prop} {p left : Dialogue Query Answer α}
    {tr : List (Exchange Query Answer)} (h : Follows after Allowed Lawful Post view p)
    (htrace : Trace p tr left) (hlawful : Along after Lawful view tr) :
    Follows after Allowed Lawful Post (tr.foldl after view) left := by
  induction htrace generalizing view with
  | nil p => exact h
  | cons answer _ ih => exact ih (h.2 answer hlawful.1) hlawful.2

/-- What a program has asked was allowed. -/
theorem Follows.allowed {Post : View → α → Prop} {p left : Dialogue Query Answer α}
    {before tr : List (Exchange Query Answer)} {e : Exchange Query Answer}
    (h : Follows after Allowed Lawful Post view p) (htrace : Trace p (before ++ e :: tr) left)
    (hlawful : Along after Lawful view (before ++ e :: tr)) :
    Allowed (before.foldl after view) e.query := by
  induction before generalizing view p with
  | nil =>
      cases htrace with
      | cons answer hrest => exact h.1
  | cons e' before ih =>
      cases htrace with
      | cons answer hrest => exact ih (h.2 answer hlawful.1) hrest hlawful.2

theorem along_append {tr₁ tr₂ : List (Exchange Query Answer)} :
    Along after Lawful view (tr₁ ++ tr₂) ↔
      Along after Lawful view tr₁ ∧ Along after Lawful (tr₁.foldl after view) tr₂ := by
  induction tr₁ generalizing view with
  | nil => exact (and_iff_right trivial).symm
  | cons e tr ih => exact (and_congr_right fun _ => ih).trans and_assoc.symm

end Discipline

/-! ## The system -/

/-- The shared state and the processes that have been started, with what is left of their
programs. -/
structure System (Query : Type u) (Answer : Query → Type u) (α : Type v) (Shared : Type w)
    (Pid : Type x) where
  shared : Shared
  program : Pid → Option (Dialogue Query Answer α)

/-- A process is started with a command, or exchanges a query for an answer. -/
inductive Action (Query : Type u) (Answer : Query → Type u) (Command : Type y) (Pid : Type x) where
  | start (pid : Pid) (command : Command)
  | exchange (pid : Pid) (exchange : Exchange Query Answer)

section System

variable {Shared : Type w} {Pid : Type x} {Command : Type y} [DecidableEq Pid]
  (programOf : Command → Dialogue Query Answer α)
  (respond : Shared → Pid → Exchange Query Answer → Option Shared)

/-- The steps of the system. -/
inductive SystemStep : System Query Answer α Shared Pid → Action Query Answer Command Pid →
    System Query Answer α Shared Pid → Prop where
  | start {s : System Query Answer α Shared Pid} {pid : Pid} {command : Command}
      (hfree : s.program pid = none) :
      SystemStep s (.start pid command)
        { s with program := Function.update s.program pid (some (programOf command)) }
  | exchange {s : System Query Answer α Shared Pid} {pid : Pid} {q : Query}
      {next : Answer q → Dialogue Query Answer α} {answer : Answer q} {shared : Shared}
      (hprogram : s.program pid = some (ask q next))
      (hrespond : respond s.shared pid ⟨q, answer⟩ = some shared) :
      SystemStep s (.exchange pid ⟨q, answer⟩)
        ⟨shared, Function.update s.program pid (some (next answer))⟩

variable {programOf respond}

variable {View : Type z} {after : View → Exchange Query Answer → View}
  {Allowed : View → Query → Prop} {Lawful : View → Exchange Query Answer → Prop}

/-- The shared state and the views satisfy an invariant, and every process keeps to the
discipline. -/
structure Disciplined (after : View → Exchange Query Answer → View) (Allowed : View → Query → Prop)
    (Lawful : View → Exchange Query Answer → Prop) (first : View)
    (Inv : Shared → (Pid → View) → Prop) (s : System Query Answer α Shared Pid)
    (views : Pid → View) : Prop where
  inv : Inv s.shared views
  first : ∀ pid, s.program pid = none → views pid = first
  follows : ∀ pid p, s.program pid = some p →
    Follows after Allowed Lawful (fun _ _ => True) (views pid) p

/-- What the outside promises of an exchange, where the action is one. -/
def Promised (Promise : Shared → Exchange Query Answer → Prop)
    (s : System Query Answer α Shared Pid) : Action Query Answer Command Pid → Prop
  | .start _ _ => True
  | .exchange _ exchange => Promise s.shared exchange

/-- The views after an action. -/
def viewsAfter (after : View → Exchange Query Answer → View) (views : Pid → View) :
    Action Query Answer Command Pid → Pid → View
  | .start _ _ => views
  | .exchange pid exchange => Function.update views pid (after (views pid) exchange)

/-- An exchange was allowed. -/
theorem Disciplined.exchange {first : View} {Inv : Shared → (Pid → View) → Prop}
    {s s' : System Query Answer α Shared Pid} {views : Pid → View} {pid : Pid}
    {e : Exchange Query Answer} (h : Disciplined after Allowed Lawful first Inv s views)
    (hstep : SystemStep programOf respond s (.exchange pid e) s') :
    Allowed (views pid) e.query ∧ respond s.shared pid e = some s'.shared := by
  cases hstep with
  | exchange hprogram hrespond => exact ⟨(h.follows pid _ hprogram).1, hrespond⟩

/-- **The rule.** Steps preserve the invariant when every program keeps to the discipline from the
first view, and every allowed exchange, as it is promised, is lawful and preserves it. -/
theorem Disciplined.step {first : View} {Inv : Shared → (Pid → View) → Prop}
    {Promise : Shared → Exchange Query Answer → Prop}
    {s s' : System Query Answer α Shared Pid} {views : Pid → View}
    {action : Action Query Answer Command Pid}
    (hprograms : ∀ command,
      Follows after Allowed Lawful (fun _ _ => True) first (programOf command))
    (hexchange : ∀ shared shared' views pid exchange, Inv shared views →
      Allowed (views pid) exchange.query → Promise shared exchange →
      respond shared pid exchange = some shared' → Lawful (views pid) exchange ∧
        Inv shared' (Function.update views pid (after (views pid) exchange)))
    (h : Disciplined after Allowed Lawful first Inv s views)
    (hstep : SystemStep programOf respond s action s' ∧ Promised Promise s action) :
    Disciplined after Allowed Lawful first Inv s' (viewsAfter after views action) := by
  obtain ⟨hstep, hpromise⟩ := hstep
  cases hstep with
  | @start pid command hfree =>
      refine ⟨h.inv, fun other hother => ?_, fun other p hp => ?_⟩
      all_goals by_cases hpid : other = pid
      · subst hpid
        exact h.first other hfree
      · exact h.first other ((Function.update_of_ne hpid ..).symm.trans hother)
      · subst hpid
        cases (Function.update_self ..).symm.trans hp
        change Follows after Allowed Lawful _ (views other) _
        rw [h.first other hfree]
        exact hprograms command
      · exact h.follows other p ((Function.update_of_ne hpid ..).symm.trans hp)
  | @exchange pid q next answer shared hprogram hrespond =>
      obtain ⟨hallowed, hnext⟩ := h.follows pid _ hprogram
      obtain ⟨hlawful, hinv'⟩ :=
        hexchange _ _ views pid ⟨q, answer⟩ h.inv hallowed hpromise hrespond
      refine ⟨hinv', fun other hother => ?_, fun other p hp => ?_⟩
      all_goals by_cases hpid : other = pid
      · subst hpid
        cases (Function.update_self ..).symm.trans hother
      · rw [viewsAfter, Function.update_of_ne hpid]
        exact h.first other ((Function.update_of_ne hpid ..).symm.trans hother)
      · subst hpid
        cases (Function.update_self ..).symm.trans hp
        rw [viewsAfter, Function.update_self]
        exact hnext answer hlawful
      · rw [viewsAfter, Function.update_of_ne hpid]
        exact h.follows other p ((Function.update_of_ne hpid ..).symm.trans hp)

section Play

variable [DecidableEq Query] (programOf : Command → Dialogue Query Answer α)
  (respond : Shared → Pid → Exchange Query Answer → Option Shared)

/-- The state after an action, where the action is possible. -/
def System.next? (s : System Query Answer α Shared Pid) :
    Action Query Answer Command Pid → Option (System Query Answer α Shared Pid)
  | .start pid command =>
      match s.program pid with
      | none => some { s with program := Function.update s.program pid (some (programOf command)) }
      | some _ => none
  | .exchange pid ⟨q, answer⟩ =>
      match s.program pid with
      | some (ask q' next) =>
          if h : q = q' then
            (respond s.shared pid ⟨q, answer⟩).map fun shared =>
              ⟨shared, Function.update s.program pid (some (next (h ▸ answer)))⟩
          else none
      | _ => none

variable {programOf respond}

theorem SystemStep.of_next? {s s' : System Query Answer α Shared Pid}
    {action : Action Query Answer Command Pid} (h : s.next? programOf respond action = some s') :
    SystemStep programOf respond s action s' := by
  cases action with
  | start pid command =>
      simp only [System.next?] at h
      cases hfree : s.program pid with
      | none =>
          simp only [hfree] at h
          cases h
          exact .start hfree
      | some p =>
          simp only [hfree] at h
          cases h
  | exchange pid e =>
      obtain ⟨q, answer⟩ := e
      simp only [System.next?] at h
      cases hprogram : s.program pid with
      | none =>
          simp only [hprogram] at h
          cases h
      | some p =>
          cases p with
          | done a =>
              simp only [hprogram] at h
              cases h
          | ask q' next =>
              simp only [hprogram] at h
              by_cases hq : q = q'
              · subst hq
                rw [dif_pos rfl] at h
                obtain ⟨shared, hrespond, rfl⟩ := Option.map_eq_some_iff.mp h
                exact .exchange hprogram hrespond
              · rw [dif_neg hq] at h
                cases h

variable (programOf respond)

/-- The state after an action; an impossible one changes nothing. -/
def System.next (s : System Query Answer α Shared Pid) (action : Action Query Answer Command Pid) :
    System Query Answer α Shared Pid :=
  (s.next? programOf respond action).getD s

/-- The action is possible, and answered as it is promised. -/
def System.Possible (Promise : Shared → Exchange Query Answer → Prop)
    (s : System Query Answer α Shared Pid) (action : Action Query Answer Command Pid) : Prop :=
  (s.next? programOf respond action).isSome = true ∧ Promised Promise s action

variable {programOf respond} {Promise : Shared → Exchange Query Answer → Prop}

instance decidablePromised [∀ s e, Decidable (Promise s e)] (s : System Query Answer α Shared Pid) :
    (action : Action Query Answer Command Pid) → Decidable (Promised Promise s action)
  | .start _ _ => .isTrue trivial
  | .exchange _ e => inferInstanceAs (Decidable (Promise s.shared e))

instance [∀ s e, Decidable (Promise s e)] (s : System Query Answer α Shared Pid)
    (action : Action Query Answer Command Pid) :
    Decidable (s.Possible programOf respond Promise action) :=
  inferInstanceAs (Decidable (_ ∧ _))

/-- A list of actions that are possible one after the other is a run. -/
theorem run_next {s : System Query Answer α Shared Pid}
    {actions : List (Action Query Answer Command Pid)}
    (h : EnabledAlong (System.next programOf respond)
      (System.Possible programOf respond Promise) s actions) :
    Run (SystemStep programOf respond) s (play (System.next programOf respond) s actions)
      (playEnd (System.next programOf respond) s actions) := by
  refine run_play _ _ (fun s action henabled => ?_) h
  obtain ⟨s', hs'⟩ := Option.isSome_iff_exists.mp henabled.1
  unfold System.next
  rw [hs']
  exact .of_next? hs'

end Play

end System

end Dialogue
