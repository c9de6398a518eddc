import Mathlib.Logic.Relation
import Mathlib.Data.List.Basic

/-!
# Labelled transition systems and their finite runs

A transition system is a relation `Step : State → Label → State → Prop`. A run is the list of the
transitions taken, each kept with the states it connects, so that a property of a run can speak of
any moment of it and of what lies between two moments.

The rules used on top of it:

- `Run.invariant`: what every step preserves holds at the end of every run, and
  `Run.invariant_mem`: at every transition of it.
- `Run.stable_unless`: what every step preserves unless it is of a named kind is preserved by every
  run that has no step of that kind.
- `Run.split_mem`, `Run.split_append`, `Run.concat_iff`: a run is cut at any of its transitions, and
  at its last one.
- `Run.simulation`: a relation that each step can be matched in is matched along the whole run.
- `run_play`: where the label decides the next state, a list of enabled labels plays a run; whether
  it does can be decided.
-/

set_option autoImplicit false

namespace LabelledRun

universe u v w x

variable {State : Type u} {Label : Type v}

/-- One transition of a run, with the states it connects. -/
structure Transition (State : Type u) (Label : Type v) where
  pre : State
  label : Label
  post : State

/-- The finite runs of a step relation; the list holds the transitions in the order taken. -/
inductive Run (Step : State → Label → State → Prop) :
    State → List (Transition State Label) → State → Prop where
  | nil (s : State) : Run Step s [] s
  | cons {s s' t : State} {l : Label} {tr : List (Transition State Label)} :
      Step s l s' → Run Step s' tr t → Run Step s (⟨s, l, s'⟩ :: tr) t

/-- A state is reachable when some run from an initial state ends in it. -/
def Reachable (Init : State → Prop) (Step : State → Label → State → Prop) (s : State) : Prop :=
  ∃ s₀ tr, Init s₀ ∧ Run Step s₀ tr s

namespace Run

variable {Step : State → Label → State → Prop}

theorem single {s s' : State} {l : Label} (h : Step s l s') : Run Step s [⟨s, l, s'⟩] s' :=
  .cons h (.nil s')

theorem nil_iff {s t : State} : Run Step s [] t ↔ s = t := by
  constructor
  · intro h
    cases h
    rfl
  · rintro rfl
    exact .nil s

/-- The first transition of a run starts where the run starts. -/
theorem cons_iff {s t : State} {e : Transition State Label}
    {tr : List (Transition State Label)} :
    Run Step s (e :: tr) t ↔ e.pre = s ∧ Step e.pre e.label e.post ∧ Run Step e.post tr t := by
  constructor
  · intro h
    cases h with
    | cons hs hr => exact ⟨rfl, hs, hr⟩
  · rintro ⟨rfl, hs, hr⟩
    exact .cons hs hr

theorem append {s m t : State} {tr₁ tr₂ : List (Transition State Label)}
    (h₁ : Run Step s tr₁ m) (h₂ : Run Step m tr₂ t) : Run Step s (tr₁ ++ tr₂) t := by
  induction h₁ with
  | nil s => exact h₂
  | cons hs _ ih => exact .cons hs (ih h₂)

/-- A run over a concatenation passes through a middle state. -/
theorem split_append {s t : State} {tr₁ tr₂ : List (Transition State Label)}
    (h : Run Step s (tr₁ ++ tr₂) t) : ∃ m, Run Step s tr₁ m ∧ Run Step m tr₂ t := by
  induction tr₁ generalizing s with
  | nil => exact ⟨s, .nil s, h⟩
  | cons e tr ih =>
      obtain ⟨rfl, hs, hr⟩ := cons_iff.mp h
      obtain ⟨m, h₁, h₂⟩ := ih hr
      exact ⟨m, .cons hs h₁, h₂⟩

/-- A run is cut at a transition into what came before it, the step and what comes after it. -/
theorem split_mem {s t : State} {tr₁ tr₂ : List (Transition State Label)}
    {e : Transition State Label} (h : Run Step s (tr₁ ++ e :: tr₂) t) :
    Run Step s tr₁ e.pre ∧ Step e.pre e.label e.post ∧ Run Step e.post tr₂ t := by
  obtain ⟨m, h₁, h₂⟩ := split_append h
  obtain ⟨rfl, hs, hr⟩ := cons_iff.mp h₂
  exact ⟨h₁, hs, hr⟩

/-- The last transition of a run ends where the run ends. -/
theorem concat_iff {s t : State} {e : Transition State Label}
    {tr : List (Transition State Label)} :
    Run Step s (tr ++ [e]) t ↔ Run Step s tr e.pre ∧ Step e.pre e.label e.post ∧ e.post = t := by
  constructor
  · intro h
    obtain ⟨hstart, hstep, hend⟩ := h.split_mem
    exact ⟨hstart, hstep, nil_iff.mp hend⟩
  · rintro ⟨hstart, hstep, rfl⟩
    exact hstart.append (.single hstep)

/-- What every step preserves, every run preserves. -/
theorem invariant (Inv : State → Prop)
    (hstep : ∀ s l s', Inv s → Step s l s' → Inv s')
    {s t : State} {tr : List (Transition State Label)} (h : Run Step s tr t) (hs : Inv s) :
    Inv t := by
  induction h with
  | nil s => exact hs
  | cons h₁ _ ih => exact ih (hstep _ _ _ hs h₁)

/-- What every step preserves holds before and after each transition of a run. -/
theorem invariant_mem (Inv : State → Prop)
    (hstep : ∀ s l s', Inv s → Step s l s' → Inv s')
    {s t : State} {tr : List (Transition State Label)} (h : Run Step s tr t) (hs : Inv s)
    {e : Transition State Label} (he : e ∈ tr) :
    Inv e.pre ∧ Step e.pre e.label e.post ∧ Inv e.post := by
  obtain ⟨tr₁, tr₂, rfl⟩ := List.append_of_mem he
  obtain ⟨h₁, h₂, _⟩ := split_mem h
  have hpre : Inv e.pre := invariant Inv hstep h₁ hs
  exact ⟨hpre, h₂, hstep _ _ _ hpre h₂⟩

/-- A run whose transitions all satisfy a condition is a run of the restricted steps. -/
theorem restrict (Ok : Transition State Label → Prop) {s t : State}
    {tr : List (Transition State Label)} (h : Run Step s tr t) (hok : ∀ e ∈ tr, Ok e) :
    Run (fun s l s' => Step s l s' ∧ Ok ⟨s, l, s'⟩) s tr t := by
  induction h with
  | nil s => exact .nil s
  | cons hs _ ih =>
      have hhead := hok _ List.mem_cons_self
      have htail := ih fun e he => hok e (List.mem_cons_of_mem _ he)
      exact .cons ⟨hs, hhead⟩ htail

/-- The rule for `unless`: when every step from `P` either keeps `P` or is of kind `Q`, a run
from `P` keeps `P` or contains a step of kind `Q`. -/
theorem stable_unless (P : State → Prop) (Q : Transition State Label → Prop)
    (hstep : ∀ s l s', P s → Step s l s' → P s' ∨ Q ⟨s, l, s'⟩)
    {s t : State} {tr : List (Transition State Label)} (h : Run Step s tr t) (hs : P s) :
    P t ∨ ∃ e ∈ tr, Q e := by
  induction h with
  | nil s => exact .inl hs
  | cons h₁ _ ih =>
      rcases hstep _ _ _ hs h₁ with hP | hQ
      · rcases ih hP with hP' | ⟨e, he, hQ⟩
        · exact .inl hP'
        · exact .inr ⟨e, List.mem_cons_of_mem _ he, hQ⟩
      · exact .inr ⟨_, List.mem_cons_self, hQ⟩

/-- Forward simulation along a run whose transitions all satisfy `Ok`: each is matched by a run of
the other system, its transition related to the matching run by `Match`. -/
theorem simulation {State' : Type w} {Label' : Type x}
    {Step' : State' → Label' → State' → Prop} {R : State → State' → Prop}
    {Ok : Transition State Label → Prop}
    {Match : Transition State Label → List (Transition State' Label') → Prop}
    (hstep : ∀ s l s' a, R s a → Step s l s' → Ok ⟨s, l, s'⟩ →
      ∃ tr a', Run Step' a tr a' ∧ R s' a' ∧ Match ⟨s, l, s'⟩ tr)
    {s t : State} {tr : List (Transition State Label)} (h : Run Step s tr t)
    {a : State'} (hR : R s a) (hok : ∀ e ∈ tr, Ok e) :
    ∃ trs a', Run Step' a trs.flatten a' ∧ R t a' ∧ List.Forall₂ Match tr trs := by
  induction h generalizing a with
  | nil s => exact ⟨[], a, .nil a, hR, .nil⟩
  | cons h₁ _ ih =>
      obtain ⟨tr', a', hrun, hR', hm⟩ := hstep _ _ _ a hR h₁ (hok _ List.mem_cons_self)
      obtain ⟨trs, a'', hrun', hR'', hms⟩ :=
        ih hR' (fun e he => hok e (List.mem_cons_of_mem _ he))
      exact ⟨tr' :: trs, a'', hrun.append hrun', hR'', .cons hm hms⟩

end Run

/-- In the run the first transition is taken, then those of `mid`, then the second one. -/
def InOrder (tr : List (Transition State Label)) (e₁ : Transition State Label)
    (mid : List (Transition State Label)) (e₂ : Transition State Label) : Prop :=
  ∃ before after, tr = before ++ e₁ :: (mid ++ e₂ :: after)

/-- Two transitions taken in order cut the run into a run up to the first, the first step, a run
between the two and the second step. -/
theorem Run.inOrder {Step : State → Label → State → Prop} {s t : State}
    {tr mid : List (Transition State Label)} {e₁ e₂ : Transition State Label}
    (h : Run Step s tr t) (ho : InOrder tr e₁ mid e₂) :
    (∃ before, Run Step s before e₁.pre) ∧ Step e₁.pre e₁.label e₁.post ∧
      Run Step e₁.post mid e₂.pre ∧ Step e₂.pre e₂.label e₂.post := by
  obtain ⟨before, after, rfl⟩ := ho
  obtain ⟨hbefore, hfirst, hrest⟩ := h.split_mem
  obtain ⟨hmid, hsecond, _⟩ := hrest.split_mem
  exact ⟨⟨before, hbefore⟩, hfirst, hmid, hsecond⟩

/-- A run from a reachable state ends in a reachable state. -/
theorem Reachable.run {Init : State → Prop} {Step : State → Label → State → Prop}
    {s t : State} {tr : List (Transition State Label)} (h : Reachable Init Step s)
    (hr : Run Step s tr t) : Reachable Init Step t := by
  obtain ⟨s₀, tr₀, h₀, hr₀⟩ := h
  exact ⟨s₀, tr₀ ++ tr, h₀, hr₀.append hr⟩

/-! ## Playing a list of labels -/

section Play

variable (next : State → Label → State) (Enabled : State → Label → Prop)

/-- The transitions that a list of labels takes when each label decides the next state. -/
def play : State → List Label → List (Transition State Label)
  | _, [] => []
  | s, l :: labels => ⟨s, l, next s l⟩ :: play (next s l) labels

theorem label_of_mem_play {s : State} {labels : List Label} {e : Transition State Label}
    (h : e ∈ play next s labels) : e.label ∈ labels := by
  induction labels generalizing s with
  | nil => cases h
  | cons l labels ih =>
      rcases List.mem_cons.mp h with rfl | h
      · exact List.mem_cons_self
      · exact List.mem_cons_of_mem _ (ih h)

/-- The state after a list of labels. -/
def playEnd (s : State) (labels : List Label) : State := labels.foldl next s

/-- Every label of the list is enabled where it is played. -/
def EnabledAlong : State → List Label → Prop
  | _, [] => True
  | s, l :: labels => Enabled s l ∧ EnabledAlong (next s l) labels

instance decidableEnabledAlong [∀ s l, Decidable (Enabled s l)] :
    (s : State) → (labels : List Label) → Decidable (EnabledAlong next Enabled s labels)
  | _, [] => .isTrue trivial
  | s, l :: labels =>
      have := decidableEnabledAlong (next s l) labels
      inferInstanceAs (Decidable (Enabled s l ∧ EnabledAlong next Enabled (next s l) labels))

/-- A list of enabled labels plays a run. -/
theorem run_play {Step : State → Label → State → Prop}
    (hstep : ∀ s l, Enabled s l → Step s l (next s l)) {s : State} {labels : List Label}
    (h : EnabledAlong next Enabled s labels) :
    Run Step s (play next s labels) (playEnd next s labels) := by
  induction labels generalizing s with
  | nil => exact .nil s
  | cons l labels ih =>
      obtain ⟨hl, hrest⟩ := h
      exact .cons (hstep s l hl) (ih hrest)

/-- Where a label is played, it is enabled. -/
theorem EnabledAlong.of_mem {s : State} {labels : List Label} {e : Transition State Label}
    (h : EnabledAlong next Enabled s labels) (he : e ∈ play next s labels) :
    Enabled e.pre e.label := by
  induction labels generalizing s with
  | nil => cases he
  | cons l labels ih =>
      rcases List.mem_cons.mp he with rfl | he
      · exact h.1
      · exact ih h.2 he

end Play

end LabelledRun
