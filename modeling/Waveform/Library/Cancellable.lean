import Waveform.Library.Dialogue

/-!
# Programs that may be dropped

A program that waits for an answer may be dropped there: what it held goes with it and the rest
never runs. An ending lists the exchanges up to the end and says whether the program finished or
where it was dropped. A program ensures a postcondition when every ending satisfies it.

- `Ensures.bind`: the rule of sequences, where the first part may be dropped.
- `ensures_asking`, `runs_asking`: a part that asks other queries only.
-/

set_option autoImplicit false

universe u v

namespace Dialogue

variable {Query : Type u} {Answer : Query → Type u} {α β : Type v}

/-- How a program ends: with its result, or dropped while it waits for the answer to a query. -/
inductive Ending (Query : Type u) (α : Type v) where
  | finished (result : α)
  | dropped (waiting : Query)

/-- The answered exchanges of a program and how it ends. -/
inductive Ends : Dialogue Query Answer α → List (Exchange Query Answer) →
    Ending Query α → Prop where
  | finished (a : α) : Ends (done a) [] (.finished a)
  | dropped (q : Query) (next : Answer q → Dialogue Query Answer α) : Ends (ask q next) []
      (.dropped q)
  | answered {q : Query} {next : Answer q → Dialogue Query Answer α}
      {tr : List (Exchange Query Answer)} {ending : Ending Query α} (answer : Answer q) :
      Ends (next answer) tr ending → Ends (ask q next) (⟨q, answer⟩ :: tr) ending

/-- Every ending of the program satisfies a postcondition. -/
def Ensures (p : Dialogue Query Answer α)
    (Post : List (Exchange Query Answer) → Ending Query α → Prop) : Prop :=
  ∀ tr ending, Ends p tr ending → Post tr ending

section Rules

variable {Post Post' : List (Exchange Query Answer) → Ending Query α → Prop}

theorem ensures_done {a : α} :
    Ensures (done a : Dialogue Query Answer α) Post ↔ Post [] (.finished a) := by
  constructor
  · intro h
    exact h _ _ (.finished a)
  · rintro h tr ending hends
    cases hends
    exact h

/-- It may be dropped while it waits, and every answer goes on. -/
theorem ensures_ask {q : Query} {next : Answer q → Dialogue Query Answer α} :
    Ensures (ask q next) Post ↔ Post [] (.dropped q) ∧
      ∀ answer, Ensures (next answer) fun tr ending => Post (⟨q, answer⟩ :: tr) ending := by
  constructor
  · intro h
    exact ⟨h _ _ (.dropped q next), fun answer tr ending hends => h _ _ (.answered answer hends)⟩
  · rintro ⟨hdropped, hanswered⟩ tr ending hends
    cases hends with
    | dropped => exact hdropped
    | answered answer hrest => exact hanswered answer _ _ hrest

/-- A weaker postcondition. -/
theorem Ensures.mono {p : Dialogue Query Answer α} (h : Ensures p Post)
    (hpost : ∀ tr ending, Post tr ending → Post' tr ending) : Ensures p Post' :=
  fun tr ending hends => hpost tr ending (h tr ending hends)

/-- **The rule of sequences.** The first part is dropped, or it finishes and the second part goes
on. -/
theorem Ensures.bind {Post : List (Exchange Query Answer) → Ending Query β → Prop}
    {Mid : List (Exchange Query Answer) → Ending Query α → Prop} {p : Dialogue Query Answer α}
    {f : α → Dialogue Query Answer β} (hp : Ensures p Mid)
    (hdropped : ∀ tr q, Mid tr (.dropped q) → Post tr (.dropped q))
    (hfinished : ∀ tr a, Mid tr (.finished a) →
      Ensures (f a) fun tr' ending => Post (tr ++ tr') ending) :
    Ensures (p.bind f) Post := by
  induction p generalizing Post Mid with
  | done a => exact hfinished [] a (ensures_done.mp hp)
  | ask q next ih =>
      obtain ⟨hwait, hnext⟩ := ensures_ask.mp hp
      refine ensures_ask.mpr ⟨hdropped [] q hwait, fun answer => ?_⟩
      exact ih answer (hnext answer) (fun tr q' hmid => hdropped _ q' hmid)
        fun tr a hmid => hfinished _ a hmid

end Rules

/-- A sequence ends in its first part, where that is dropped, or in its second part. -/
theorem ends_bind_iff {p : Dialogue Query Answer α} {f : α → Dialogue Query Answer β}
    {tr : List (Exchange Query Answer)} {ending : Ending Query β} :
    Ends (p.bind f) tr ending ↔
      (∃ q, ending = .dropped q ∧ Ends p tr (.dropped q)) ∨
        ∃ a tr₁ tr₂, tr = tr₁ ++ tr₂ ∧ Ends p tr₁ (.finished a) ∧ Ends (f a) tr₂ ending := by
  induction p generalizing tr with
  | done a =>
      constructor
      · intro h
        exact .inr ⟨a, [], tr, rfl, .finished a, h⟩
      · rintro (⟨q, -, hdropped⟩ | ⟨a', tr₁, tr₂, rfl, hfinished, hrest⟩)
        · cases hdropped
        · cases hfinished
          exact hrest
  | ask q next ih =>
      constructor
      · intro h
        cases h with
        | dropped => exact .inl ⟨q, rfl, .dropped q next⟩
        | answered answer hrest =>
            rcases (ih answer).mp hrest with ⟨q', rfl, hdropped⟩ |
              ⟨a, tr₁, tr₂, rfl, hfinished, hsecond⟩
            · exact .inl ⟨q', rfl, .answered answer hdropped⟩
            · exact .inr ⟨a, _, tr₂, rfl, .answered answer hfinished, hsecond⟩
      · rintro (⟨q', rfl, hdropped⟩ | ⟨a, tr₁, tr₂, rfl, hfinished, hsecond⟩)
        · cases hdropped with
          | dropped => exact .dropped q _
          | answered answer hrest =>
              exact .answered answer ((ih answer).mpr (.inl ⟨q', rfl, hrest⟩))
        · cases hfinished with
          | answered answer hrest =>
              exact .answered answer ((ih answer).mpr (.inr ⟨a, _, tr₂, rfl, hrest, hsecond⟩))

/-- The queries up to an ending, with the one that is waited for there. -/
def asked (tr : List (Exchange Query Answer)) : Ending Query α → List Query
  | .finished _ => tr.map Exchange.query
  | .dropped q => tr.map Exchange.query ++ [q]

@[simp] theorem asked_cons (e : Exchange Query Answer) (tr : List (Exchange Query Answer))
    (ending : Ending Query α) :
    asked (e :: tr) ending = e.query :: asked tr ending := by
  cases ending <;> rfl

/-- What every query of the program satisfies holds up to every ending. -/
theorem Asks.of_ends {P : Query → Prop} {p : Dialogue Query Answer α} (h : Asks P p)
    {tr : List (Exchange Query Answer)} {ending : Ending Query α} (hends : Ends p tr ending) :
    ∀ q ∈ asked tr ending, P q := by
  induction hends with
  | finished a => exact List.forall_mem_nil _
  | dropped q next => exact List.forall_mem_singleton.mpr h.1
  | answered answer _ ih =>
      rw [asked_cons]
      exact List.forall_mem_cons.mpr ⟨h.1, ih (h.2 answer)⟩

/-! ## Parts that ask other queries -/

section Asking

variable {Query' : Type u} {Answer' : Query' → Type u} (embed : Query → Query')
  (restrict : ∀ q, Answer' (embed q) → Answer q)

/-- A program as a part of one with more queries. -/
def asking : Dialogue Query Answer α → Dialogue Query' Answer' α
  | done a => done a
  | ask q next => ask (embed q) fun answer => (next (restrict q answer)).asking

/-- Such a part asks nothing else. -/
theorem ensures_asking (p : Dialogue Query Answer α) :
    Ensures (p.asking embed restrict) fun tr ending =>
      (∀ e ∈ tr, ∃ q, e.query = embed q) ∧ ∀ q', ending = .dropped q' → ∃ q, q' = embed q := by
  induction p with
  | done a => exact ensures_done.mpr ⟨List.forall_mem_nil _, fun q' h => nomatch h⟩
  | ask q next ih =>
      refine ensures_ask.mpr ⟨⟨List.forall_mem_nil _, ?_⟩, fun answer => ?_⟩
      · rintro q' ⟨⟩
        exact ⟨q, rfl⟩
      · refine (ih (restrict q answer)).mono fun tr ending h => ⟨?_, h.2⟩
        exact List.forall_mem_cons.mpr ⟨⟨q, rfl⟩, h.1⟩

/-- What such a part asks is what the program asks. -/
theorem Asks.asking {P : Query' → Prop} {p : Dialogue Query Answer α}
    (h : Asks (fun q => P (embed q)) p) :
    Asks P (p.asking embed restrict) := by
  induction p with
  | done a => trivial
  | ask q next ih => exact ⟨h.1, fun answer => ih (restrict q answer) (h.2 (restrict q answer))⟩

/-- A run of such a part is one of the program. -/
theorem runs_asking {p : Dialogue Query Answer α} {tr : List (Exchange Query' Answer')} {a : α}
    (hrun : Runs (p.asking embed restrict) tr a) :
    (∀ e ∈ tr, ∃ q, e.query = embed q) ∧ ∃ tr', Runs p tr' a := by
  induction p generalizing tr with
  | done b =>
      obtain ⟨rfl, rfl⟩ := runs_done_iff.mp hrun
      exact ⟨List.forall_mem_nil _, [], .done _⟩
  | ask q next ih =>
      obtain ⟨answer, rest, rfl, hrest⟩ := runs_ask_iff.mp hrun
      obtain ⟨hqueries, tr', hrun'⟩ := ih (restrict q answer) hrest
      exact ⟨List.forall_mem_cons.mpr ⟨⟨q, rfl⟩, hqueries⟩, _, .ask (restrict q answer) hrun'⟩

end Asking

end Dialogue
