import Mathlib.Data.Set.Basic

/-!
# Scripts whose steps may raise

A command takes a machine to a machine, and ends or raises. An operation raises at most once in a
run: whatever it had done by then stays done. A check raises whenever it fails. Commands are put
together by sequences, by `try … finally`, and by `try` with a handler that raises again.

A triple states what holds where a command ends and where it raises.

- `block_cons`, `block_cons_raised`: a run of a sequence, by its first command.
- `triple_operation`, `triple_require`, `triple_block_cons`, `triple_tryFinally`: the rules.
- `triple_block_of_forall`: commands that keep an assertion, ended or not, keep it in sequence.
- `triple_step`, `triple_step_after`: an operation before something was raised, and after.
- `Fails.post_inside`, `Fails.post_after`, `Fails.not_after`: what holds after a run that raised in
  its `try`, or after it.
-/

set_option autoImplicit false

universe u

namespace Script

/-- The machine, and whether something has been raised. -/
structure World (σ : Type u) where
  host : σ
  raised : Bool

/-- How a command ends. -/
inductive Exit where
  | done
  | raised

/-- What a command may do. -/
abbrev Command (σ : Type u) := World σ → Exit → World σ → Prop

section Commands

variable {σ : Type u}

/-- An operation with an effect; when it raises, it has done nothing or what `failure` allows. -/
def operation (effect failure : σ → σ → Prop) : Command σ
  | w, .done, w' => effect w.host w'.host ∧ w'.raised = w.raised
  | w, .raised, w' =>
      w.raised = false ∧ (w'.host = w.host ∨ failure w.host w'.host) ∧ w'.raised = true

/-- An operation that takes effect, or does not. -/
def step (effect : σ → σ → Prop) : Command σ := operation effect effect

/-- An operation whose effect is computed, where it has one. -/
abbrev does (effect : σ → Option σ) : Command σ := step fun h h' => effect h = some h'

/-- A check of the script, which raises when it fails. -/
def require (check : σ → Prop) : Command σ
  | w, .done, w' => check w.host ∧ w' = w
  | w, .raised, w' => ¬ check w.host ∧ w' = ⟨w.host, true⟩

/-- One command after the other. -/
def andThen (first second : Command σ) : Command σ := fun w exit w' =>
  (∃ m, first w .done m ∧ second m exit w') ∨ exit = .raised ∧ first w .raised w'

/-- Commands in sequence. -/
def block : List (Command σ) → Command σ
  | [] => fun w exit w' => exit = .done ∧ w' = w
  | command :: rest => andThen command (block rest)

/-- `try: body finally: cleanup`. -/
def tryFinally (body cleanup : Command σ) : Command σ := fun w exit w' =>
  ∃ bodyExit m, body w bodyExit m ∧
    (cleanup m .done w' ∧ exit = bodyExit ∨ cleanup m .raised w' ∧ exit = .raised)

/-- `if condition: command`. -/
def whenever (condition : σ → Bool) (command : Command σ) : Command σ := fun w exit w' =>
  if condition w.host then command w exit w' else exit = .done ∧ w' = w

/-- A failed run of `try: body except: handler; raise` and what comes after it, from a machine on
which nothing was raised: the exception was raised in the `try`, or after it. -/
def Fails (body handler rest : Command σ) (h : σ) : Bool → σ → Prop
  | true, h' => ∃ m exit r, body ⟨h, false⟩ .raised m ∧ handler m exit ⟨h', r⟩
  | false, h' => ∃ m r, body ⟨h, false⟩ .done m ∧ rest m .raised ⟨h', r⟩

/-- Nothing was raised, and the machine is as asserted. -/
def before (p : σ → Prop) : World σ → Prop := fun w => w.raised = false ∧ p w.host

/-- Something was raised, and the machine is as asserted. -/
def after (p : σ → Prop) : World σ → Prop := fun w => w.raised = true ∧ p w.host

/-- What holds where a command ends, and where it raises, from a precondition. -/
def Triple (P : World σ → Prop) (command : Command σ) (Q E : World σ → Prop) : Prop :=
  (∀ w w', P w → command w .done w' → Q w') ∧ ∀ w w', P w → command w .raised w' → E w'

end Commands

section Runs

variable {σ : Type u}

theorem does_done {effect : σ → Option σ} {h h' : σ} {r : Bool} (heffect : effect h = some h') :
    does effect ⟨h, r⟩ .done ⟨h', r⟩ :=
  ⟨heffect, rfl⟩

/-- The first command ended. -/
theorem block_cons {command : Command σ} {rest : List (Command σ)} {w m w' : World σ} {exit : Exit}
    (hfirst : command w .done m) (hrest : block rest m exit w') :
    block (command :: rest) w exit w' :=
  .inl ⟨m, hfirst, hrest⟩

/-- The first command raised. -/
theorem block_cons_raised {command : Command σ} {rest : List (Command σ)} {w w' : World σ}
    (hfirst : command w .raised w') : block (command :: rest) w .raised w' :=
  .inr ⟨rfl, hfirst⟩

theorem whenever_skip {condition : σ → Bool} {command : Command σ} {w : World σ}
    (hcondition : condition w.host = false) : whenever condition command w .done w := by
  simp only [whenever, hcondition, Bool.false_eq_true, if_false, and_self]

theorem block_nil (w : World σ) : block [] w .done w := ⟨rfl, rfl⟩

end Runs

section Rules

variable {σ : Type u} {P Q R E : World σ → Prop} {command : Command σ}

/-- The rule of consequence. -/
theorem Triple.mono {P' Q' E' : World σ → Prop} (h : Triple P command Q E)
    (hP : ∀ w, P' w → P w) (hQ : ∀ w, Q w → Q' w) (hE : ∀ w, E w → E' w) :
    Triple P' command Q' E' :=
  ⟨fun w w' hw hrun => hQ w' (h.1 w w' (hP w hw) hrun),
    fun w w' hw hrun => hE w' (h.2 w w' (hP w hw) hrun)⟩

theorem triple_operation {effect failure : σ → σ → Prop}
    (hdone : ∀ w h', P w → effect w.host h' → Q ⟨h', w.raised⟩)
    (hnothing : ∀ w, P w → w.raised = false → E ⟨w.host, true⟩)
    (hfailure : ∀ w h', P w → w.raised = false → failure w.host h' → E ⟨h', true⟩) :
    Triple P (operation effect failure) Q E := by
  constructor
  · rintro w ⟨h', r⟩ hw ⟨heffect, rfl⟩
    exact hdone w h' hw heffect
  · rintro w ⟨h', r⟩ hw ⟨hraised, hhost, rfl⟩
    rcases hhost with hhost | hhost
    · obtain rfl : h' = w.host := hhost
      exact hnothing w hw hraised
    · exact hfailure w h' hw hraised hhost

/-- An operation raises before its effect or past it. -/
theorem triple_step {effect : σ → σ → Prop} {p q e : σ → Prop}
    (hdone : ∀ host host', p host → effect host host' → q host')
    (hnothing : ∀ host, p host → e host)
    (hpast : ∀ host, q host → e host) :
    Triple (before p) (step effect) (before q) (after e) := by
  refine triple_operation (fun w h' hw heffect => ⟨hw.1, hdone _ _ hw.2 heffect⟩) ?_ ?_
  · intro w hw _
    exact ⟨rfl, hnothing _ hw.2⟩
  · intro w h' hw _ heffect
    exact ⟨rfl, hpast _ (hdone _ _ hw.2 heffect)⟩

/-- **Once something has been raised, an operation ends.** -/
theorem triple_step_after {effect : σ → σ → Prop} {p q : σ → Prop}
    (h : ∀ host host', p host → effect host host' → q host') :
    Triple (after p) (step effect) (after q) E := by
  refine triple_operation (fun w h' hw heffect => ⟨hw.1, h _ _ hw.2 heffect⟩) ?_ ?_
  · intro w hw hraised
    cases hw.1.symm.trans hraised
  · intro w h' hw hraised
    cases hw.1.symm.trans hraised

theorem triple_require {check : σ → Prop} (hdone : ∀ w, P w → check w.host → Q w)
    (hraised : ∀ w, P w → ¬ check w.host → E ⟨w.host, true⟩) : Triple P (require check) Q E := by
  constructor
  · rintro w w' hw ⟨hcheck, rfl⟩
    exact hdone _ hw hcheck
  · rintro w w' hw ⟨hcheck, rfl⟩
    exact hraised w hw hcheck

theorem triple_andThen {second : Command σ} (hfirst : Triple P command R E)
    (hsecond : Triple R second Q E) : Triple P (andThen command second) Q E := by
  constructor
  · rintro w w' hw (⟨m, h₁, h₂⟩ | ⟨⟨⟩, _⟩)
    exact hsecond.1 m w' (hfirst.1 w m hw h₁) h₂
  · rintro w w' hw (⟨m, h₁, h₂⟩ | ⟨_, h⟩)
    · exact hsecond.2 m w' (hfirst.1 w m hw h₁) h₂
    · exact hfirst.2 w w' hw h

theorem triple_block_nil (h : ∀ w, P w → Q w) : Triple P (block []) Q E := by
  constructor
  · rintro w w' hw ⟨_, rfl⟩
    exact h _ hw
  · rintro w w' hw ⟨⟨⟩, _⟩

theorem triple_block_cons {rest : List (Command σ)} (hfirst : Triple P command R E)
    (hrest : Triple R (block rest) Q E) : Triple P (block (command :: rest)) Q E :=
  triple_andThen hfirst hrest

/-- Commands that each keep an assertion keep it in sequence. -/
theorem triple_block_of_forall {commands : List (Command σ)}
    (h : ∀ command ∈ commands, Triple P command P E) : Triple P (block commands) P E := by
  induction commands with
  | nil => exact triple_block_nil fun _ hw => hw
  | cons command rest ih =>
      refine triple_block_cons (h command List.mem_cons_self) (ih fun other hother => ?_)
      exact h other (List.mem_cons_of_mem _ hother)

/-- The cleanup runs after the body ended and after it raised. -/
theorem triple_tryFinally {cleanup : Command σ} {B F : World σ → Prop}
    (hbody : Triple P command B F)
    (hdone : Triple B cleanup Q E) (hraised : Triple F cleanup E E) :
    Triple P (tryFinally command cleanup) Q E := by
  constructor
  · rintro w w' hw ⟨exit, m, hm, ⟨hclean, rfl⟩ | ⟨_, ⟨⟩⟩⟩
    exact hdone.1 m w' (hbody.1 w m hw hm) hclean
  · rintro w w' hw ⟨exit, m, hm, ⟨hclean, rfl⟩ | ⟨hclean, _⟩⟩
    · exact hraised.1 m w' (hbody.2 w m hw hm) hclean
    · cases exit with
      | done => exact hdone.2 m w' (hbody.1 w m hw hm) hclean
      | raised => exact hraised.2 m w' (hbody.2 w m hw hm) hclean

theorem triple_whenever {condition : σ → Bool}
    (hrun : Triple (fun w => P w ∧ condition w.host = true) command Q E)
    (hskip : ∀ w, P w → condition w.host = false → Q w) :
    Triple P (whenever condition command) Q E := by
  constructor
  · intro w w' hw h
    cases hcondition : condition w.host with
    | true =>
        simp only [whenever, hcondition, if_true] at h
        exact hrun.1 w w' ⟨hw, hcondition⟩ h
    | false =>
        simp only [whenever, hcondition, Bool.false_eq_true, if_false] at h
        obtain ⟨_, rfl⟩ := h
        exact hskip _ hw hcondition
  · intro w w' hw h
    cases hcondition : condition w.host with
    | true =>
        simp only [whenever, hcondition, if_true] at h
        exact hrun.2 w w' ⟨hw, hcondition⟩ h
    | false =>
        simp only [whenever, hcondition, Bool.false_eq_true, if_false] at h
        cases h.1

/-- What holds after a run that raised in its `try`. -/
theorem Fails.post_inside {body handler rest : Command σ} {h h' : σ} {p e q : σ → Prop}
    (hfails : Fails body handler rest h true h') (hp : p h) {Q : World σ → Prop}
    (hbody : Triple (before p) body Q (after e))
    (hhandler : Triple (after e) handler (after q) (after q)) : q h' := by
  obtain ⟨m, exit, r, hraised, hrun⟩ := hfails
  have hm := hbody.2 ⟨h, false⟩ m ⟨rfl, hp⟩ hraised
  cases exit with
  | done => exact (hhandler.1 m ⟨h', r⟩ hm hrun).2
  | raised => exact (hhandler.2 m ⟨h', r⟩ hm hrun).2

/-- What holds after a run that raised past its `try`. -/
theorem Fails.post_after {body handler rest : Command σ} {h h' : σ} {p q e : σ → Prop}
    (hfails : Fails body handler rest h false h') (hp : p h) {Q E : World σ → Prop}
    (hbody : Triple (before p) body (before q) E) (hrest : Triple (before q) rest Q (after e)) :
    e h' := by
  obtain ⟨m, r, hdone, hraised⟩ := hfails
  exact (hrest.2 m ⟨h', r⟩ (hbody.1 ⟨h, false⟩ m ⟨rfl, hp⟩ hdone) hraised).2

/-- A body that never ends does not fail past itself. -/
theorem Fails.not_after {body handler rest : Command σ} {h h' : σ} {p : σ → Prop} (hp : p h)
    (hbody : Triple (before p) body (fun _ => False) E) : ¬ Fails body handler rest h false h' := by
  rintro ⟨m, r, hdone, _⟩
  exact hbody.1 ⟨h, false⟩ m ⟨rfl, hp⟩ hdone

end Rules

end Script
