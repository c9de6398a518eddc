import Waveform.Library.Cancellable

/-!
# Monitors

A monitor watches a program: it moves when a query is asked, before the answer is known, and again
with the answer. A program keeps within a condition on the monitor when every query it asks does,
whatever the answers; what holds at the end is a postcondition on the monitor and the result.

- `Keeps.bind`, `Keeps.mono`: the rules of sequences and of weakening.
- `Keeps.of_ends`, `Keeps.of_run`: what a program keeps holds along every run of it, also one that
  is dropped.
-/

set_option autoImplicit false

universe u v w

namespace Dialogue

variable {Query : Type u} {Answer : Query → Type u} {α β : Type v} {G : Type w}

/-- How a monitor moves. -/
structure Monitor (Query : Type u) (Answer : Query → Type u) (G : Type w) where
  start : G → Query → G
  finish : G → (q : Query) → Answer q → G

/-- The monitor after exchanges. -/
def Monitor.after (m : Monitor Query Answer G) : G → List (Exchange Query Answer) → G
  | g, [] => g
  | g, e :: tr => m.after (m.finish (m.start g e.query) e.query e.answer) tr

@[simp] theorem Monitor.after_nil (m : Monitor Query Answer G) (g : G) : m.after g [] = g := rfl

@[simp] theorem Monitor.after_cons (m : Monitor Query Answer G) (g : G) (e : Exchange Query Answer)
    (tr : List (Exchange Query Answer)) :
    m.after g (e :: tr) = m.after (m.finish (m.start g e.query) e.query e.answer) tr := rfl

theorem Monitor.after_append (m : Monitor Query Answer G) (g : G)
    (tr tr' : List (Exchange Query Answer)) :
    m.after g (tr ++ tr') = m.after (m.after g tr) tr' := by
  induction tr generalizing g with
  | nil => rfl
  | cons e tr ih => exact ih _

variable (m : Monitor Query Answer G) (Ok : G → Prop)

/-- From a state of the monitor, every query the program asks keeps within `Ok`, and a result
satisfies `Post`. -/
def Keeps : Dialogue Query Answer α → G → (G → α → Prop) → Prop
  | done a, g, Post => Post g a
  | ask q next, g, Post =>
      Ok (m.start g q) ∧ ∀ answer, Keeps (next answer) (m.finish (m.start g q) q answer) Post

variable {m Ok}

theorem Keeps.mono {p : Dialogue Query Answer α} {g : G} {P Q : G → α → Prop} (h : Keeps m Ok p g P)
    (hpost : ∀ g a, P g a → Q g a) : Keeps m Ok p g Q := by
  induction p generalizing g with
  | done a => exact hpost g a h
  | ask q next ih => exact ⟨h.1, fun answer => ih answer (h.2 answer)⟩

/-- The rule of sequences. -/
theorem Keeps.bind {p : Dialogue Query Answer α} {f : α → Dialogue Query Answer β} {g : G}
    {Post : G → β → Prop}
    (h : Keeps m Ok p g fun g a => Keeps m Ok (f a) g Post) : Keeps m Ok (p.bind f) g Post := by
  induction p generalizing g with
  | done a => exact h
  | ask q next ih => exact ⟨h.1, fun answer => ih answer (h.2 answer)⟩

theorem Keeps.query {q : Query} {g : G} {Post : G → Answer q → Prop} (h : Ok (m.start g q))
    (hpost : ∀ answer, Post (m.finish (m.start g q) q answer) answer) :
    Keeps m Ok (query q : Dialogue Query Answer (Answer q)) g Post := ⟨h, hpost⟩

/-- What a program keeps holds at each query of an ending, and its postcondition where it
finishes. -/
theorem Keeps.of_ends {p : Dialogue Query Answer α} {g : G} {Post : G → α → Prop}
    (h : Keeps m Ok p g Post)
    {tr : List (Exchange Query Answer)} {ending : Ending Query α} (hends : Ends p tr ending) :
    (∀ before e rest, tr = before ++ e :: rest → Ok (m.start (m.after g before) e.query)) ∧
      (∀ a, ending = .finished a → Post (m.after g tr) a) ∧
      ∀ q, ending = .dropped q → Ok (m.start (m.after g tr) q) := by
  induction hends generalizing g with
  | finished a =>
      refine ⟨fun before e rest heq => ?_, fun a' ha => ?_, fun q hq => (nomatch hq)⟩
      · cases before <;> cases heq
      · cases ha
        exact h
  | dropped q next =>
      refine ⟨fun before e rest heq => ?_, fun a ha => (nomatch ha), fun q' hq => ?_⟩
      · cases before <;> cases heq
      · cases hq
        exact h.1
  | @answered q next tr ending answer _ ih =>
      obtain ⟨hqueries, hfinished, hdropped⟩ := ih (h.2 answer)
      refine ⟨fun before e rest heq => ?_, hfinished, hdropped⟩
      cases before with
      | nil =>
          obtain ⟨rfl, -⟩ := List.cons.inj heq
          exact h.1
      | cons first before =>
          obtain ⟨rfl, hrest⟩ := List.cons.inj heq
          exact hqueries before e rest hrest

theorem ends_of_runs {p : Dialogue Query Answer α} {tr : List (Exchange Query Answer)} {a : α}
    (h : Runs p tr a) :
    Ends p tr (.finished a) := by
  induction h with
  | done a => exact .finished a
  | ask answer _ ih => exact .answered answer ih

theorem Keeps.of_run {p : Dialogue Query Answer α} {g : G} {Post : G → α → Prop}
    (h : Keeps m Ok p g Post)
    {tr : List (Exchange Query Answer)} {a : α} (hrun : Runs p tr a) : Post (m.after g tr) a :=
  (h.of_ends (ends_of_runs hrun)).2.1 a rfl

end Dialogue
