import Mathlib.Algebra.Group.Nat.Defs
import Mathlib.Data.List.Basic

/-!
# Computations that fail, panic or loop

A function over fixed-width integers and slices ends with its value, with an error that it returns,
or with a panic of one of its operations. Integers are numbers; an operation at a width panics where
the exact result leaves the width, so that a function that never panics computes exactly.

A loop takes turns until one of them ends it. It is run with fuel, and running out of fuel is not an
outcome: `loop_ends` is the rule that a measure rules it out.

- `List.mapM_option_eq_some_iff`, `List.mapM_option_eq_none_iff`: a list of optional results.
- `Except.bind_eq_ok`, `bind_eq_value_iff`, `bind_safe`: a sequence, by its parts.
- `Ends`, `loop_eq_some_iff`: how a loop ends, without the fuel.
- `Ends.safe`: a loop whose turns do not panic does not panic.
-/

set_option autoImplicit false

universe u v w

/-- An operation that left its range. -/
inductive Panic where
  | overflow
  | divisionByZero
  | outOfBounds
  deriving DecidableEq, Repr

/-- How a computation ended. -/
inductive Outcome (ε : Type u) (α : Type v) where
  | value (result : α)
  | error (error : ε)
  | panic (reason : Panic)
  deriving DecidableEq, Repr

/-- A sequence of fallible steps succeeds when each step does. -/
theorem Except.bind_eq_ok {ε : Type u} {α β : Type v} {x : Except ε α} {f : α → Except ε β}
    {b : β} :
    (x >>= f) = .ok b ↔ ∃ a, x = .ok a ∧ f a = .ok b := by
  cases x with
  | error e =>
      constructor
      · intro h
        cases h
      · rintro ⟨a, h, _⟩
        cases h
  | ok a =>
      constructor
      · intro h
        exact ⟨a, rfl, h⟩
      · rintro ⟨_, h, hf⟩
        cases h
        exact hf

section Options

variable {α : Type u} {β : Type v}

/-- The first of two options is taken, or the second. -/
theorem Option.orElse_some_cases {x y : Option α} {a : α} (h : (x <|> y) = some a) :
    x = some a ∨ x = none ∧ y = some a := by
  cases x with
  | some b => exact .inl h
  | none => exact .inr ⟨rfl, h⟩

/-- Neither of two options is there. -/
theorem Option.orElse_eq_none_iff {x y : Option α} : (x <|> y) = none ↔ x = none ∧ y = none := by
  cases x with
  | some b => exact ⟨fun h => (nomatch h), fun h => (nomatch h.1)⟩
  | none => exact ⟨fun h => ⟨rfl, h⟩, fun h => h.2⟩

/-- A list of results is there when each of them is. -/
theorem List.mapM_option_eq_some_iff {f : α → Option β} {l : List α} {results : List β} :
    l.mapM f = some results ↔ l.map f = results.map some := by
  induction l generalizing results with
  | nil =>
      cases results with
      | nil => simp
      | cons b results => simp
  | cons a l ih =>
      simp only [List.mapM_cons, Option.bind_eq_bind, Option.bind_eq_some_iff, Option.pure_def,
        Option.some.injEq,
        List.map_cons, ih]
      constructor
      · rintro ⟨b, hb, rest, hrest, rfl⟩
        rw [hb, hrest, List.map_cons]
      · intro h
        cases results with
        | nil => cases h
        | cons b results =>
            obtain ⟨hb, hrest⟩ := List.cons.inj h
            exact ⟨b, hb, results, hrest, rfl⟩

/-- It is missing when one of them is. -/
theorem List.mapM_option_eq_none_iff {f : α → Option β} {l : List α} :
    l.mapM f = none ↔ ∃ a ∈ l, f a = none := by
  induction l with
  | nil => simp
  | cons a l ih =>
      simp only [List.mapM_cons, List.exists_mem_cons_iff, ← ih]
      cases f a with
      | none => simp
      | some b => cases l.mapM f <;> simp

end Options

namespace Outcome

variable {ε : Type u} {α β : Type v}

/-- Sequencing. -/
def bind : Outcome ε α → (α → Outcome ε β) → Outcome ε β
  | value a, f => f a
  | error e, _ => error e
  | panic p, _ => panic p

instance : Monad (Outcome ε) where
  pure := value
  bind := bind

/-- The computation did not panic. -/
def Safe : Outcome ε α → Prop
  | panic _ => False
  | _ => True

@[simp] theorem value_bind (a : α) (f : α → Outcome ε β) : (value a >>= f) = f a := rfl

@[simp] theorem error_bind (e : ε) (f : α → Outcome ε β) : (error e >>= f) = error e := rfl

@[simp] theorem panic_bind (p : Panic) (f : α → Outcome ε β) : (panic p >>= f) = panic p := rfl

@[simp] theorem safe_value (a : α) : (value a : Outcome ε α).Safe := trivial

@[simp] theorem safe_error (e : ε) : (error e : Outcome ε α).Safe := trivial

/-- A sequence has a value when its parts have. -/
theorem bind_eq_value_iff {r : Outcome ε α} {f : α → Outcome ε β} {b : β} :
    (r >>= f) = value b ↔ ∃ a, r = value a ∧ f a = value b := by
  cases r <;> simp

/-- A sequence does not panic when its parts do not. -/
theorem bind_safe {r : Outcome ε α} {f : α → Outcome ε β} (hr : r.Safe)
    (hf : ∀ a, r = value a → (f a).Safe) : (r >>= f).Safe := by
  cases r with
  | value a => exact hf a rfl
  | error e => trivial
  | panic p => exact hr

theorem safe_iff {r : Outcome ε α} : r.Safe ↔ (∃ a, r = value a) ∨ ∃ e, r = error e := by
  cases r <;> simp [Safe]

/-! ## Operations -/

/-- `ok_or`. -/
def okOr (e : ε) : Option α → Outcome ε α
  | some a => value a
  | none => error e

@[simp] theorem okOr_safe (e : ε) (o : Option α) : (okOr e o).Safe := by
  cases o <;> trivial

@[simp] theorem okOr_eq_value_iff {e : ε} {o : Option α} {a : α} :
    okOr e o = value a ↔ o = some a := by
  cases o <;> simp [okOr]

/-- Addition at a width. -/
def add (width a b : Nat) : Outcome ε Nat :=
  if a + b < 2 ^ width then value (a + b) else panic .overflow

/-- Subtraction of unsigned integers. -/
def sub (a b : Nat) : Outcome ε Nat :=
  if b ≤ a then value (a - b) else panic .overflow

/-- Multiplication at a width. -/
def mul (width a b : Nat) : Outcome ε Nat :=
  if a * b < 2 ^ width then value (a * b) else panic .overflow

/-- Division. -/
def div (a b : Nat) : Outcome ε Nat :=
  if b = 0 then panic .divisionByZero else value (a / b)

/-- `checked_add` at a width. -/
def checkedAdd (width a b : Nat) : Option Nat := if a + b < 2 ^ width then some (a + b) else none

/-- `checked_mul` at a width. -/
def checkedMul (width a b : Nat) : Option Nat := if a * b < 2 ^ width then some (a * b) else none

/-- `saturating_add` at a width. -/
def saturatingAdd (width a b : Nat) : Nat := min (a + b) (2 ^ width - 1)

/-- `try_from` into an unsigned integer of a width. -/
def tryFrom (width a : Nat) : Option Nat := if a < 2 ^ width then some a else none

theorem add_eq {width a b : Nat} (h : a + b < 2 ^ width) :
    (add width a b : Outcome ε Nat) = value (a + b) := if_pos h

theorem sub_eq {a b : Nat} (h : b ≤ a) : (sub a b : Outcome ε Nat) = value (a - b) := if_pos h

theorem mul_eq {width a b : Nat} (h : a * b < 2 ^ width) :
    (mul width a b : Outcome ε Nat) = value (a * b) := if_pos h

theorem div_eq {a b : Nat} (h : b ≠ 0) : (div a b : Outcome ε Nat) = value (a / b) := if_neg h

theorem checkedAdd_eq {width a b : Nat} (h : a + b < 2 ^ width) :
    checkedAdd width a b = some (a + b) := if_pos h

theorem checkedMul_eq {width a b : Nat} (h : a * b < 2 ^ width) :
    checkedMul width a b = some (a * b) := if_pos h

theorem saturatingAdd_eq {width a b : Nat} (h : a + b < 2 ^ width) :
    saturatingAdd width a b = a + b := by
  unfold saturatingAdd
  omega

theorem tryFrom_eq {width a : Nat} (h : a < 2 ^ width) : tryFrom width a = some a := if_pos h

section Slices

variable {γ : Type v}

/-- `xs[i]`. -/
def index (xs : List γ) (i : Nat) : Outcome ε γ :=
  match xs[i]? with
  | some x => value x
  | none => panic .outOfBounds

/-- `xs.get(start..stop)`. -/
def getRange (xs : List γ) (start stop : Nat) : Option (List γ) :=
  if start ≤ stop ∧ stop ≤ xs.length then some ((xs.drop start).take (stop - start)) else none

/-- `xs[start..stop]`. -/
def slice (xs : List γ) (start stop : Nat) : Outcome ε (List γ) :=
  match getRange xs start stop with
  | some part => value part
  | none => panic .outOfBounds

theorem index_eq {xs : List γ} {i : Nat} {x : γ} (h : xs[i]? = some x) :
    (index xs i : Outcome ε γ) = value x := by
  rw [index, h]

theorem getRange_eq {xs : List γ} {start stop : Nat} (h : start ≤ stop ∧ stop ≤ xs.length) :
    getRange xs start stop = some ((xs.drop start).take (stop - start)) := if_pos h

theorem slice_eq {xs : List γ} {start stop : Nat} (h : start ≤ stop ∧ stop ≤ xs.length) :
    (slice xs start stop : Outcome ε (List γ)) = value ((xs.drop start).take (stop - start)) := by
  rw [slice, getRange_eq h]

end Slices

/-! ## Loops -/

/-- What a turn of a loop decides. -/
inductive Turn (σ : Type w) where
  | again (state : σ)
  | exit (state : σ)

section Loops

variable {σ : Type w} (turn : σ → Outcome ε (Turn σ))

/-- The loop, for as many turns as there is fuel. -/
def loop : Nat → σ → Option (Outcome ε σ)
  | 0, _ => none
  | fuel + 1, s =>
      match turn s with
      | value (.again s') => loop fuel s'
      | value (.exit s') => some (value s')
      | error e => some (error e)
      | panic p => some (panic p)

/-- How the loop ends from a state. -/
inductive Ends : σ → Outcome ε σ → Prop where
  | exit {s s' : σ} (h : turn s = value (.exit s')) : Ends s (value s')
  | error {s : σ} {e : ε} (h : turn s = error e) : Ends s (error e)
  | panic {s : σ} {p : Panic} (h : turn s = panic p) : Ends s (panic p)
  | again {s s' : σ} {r : Outcome ε σ} (h : turn s = value (.again s')) (hr : Ends s' r) : Ends s r

variable {turn}

theorem ends_of_loop {fuel : Nat} {s : σ} {r : Outcome ε σ} (h : loop turn fuel s = some r) :
    Ends turn s r := by
  induction fuel generalizing s with
  | zero => cases h
  | succ fuel ih =>
      rw [loop] at h
      split at h
      · rename_i hturn
        exact .again hturn (ih h)
      all_goals
        rename_i hturn
        obtain rfl := Option.some.inj h
      · exact .exit hturn
      · exact .error hturn
      · exact .panic hturn

/-- A loop ends in one way. -/
theorem Ends.unique {s : σ} {r r' : Outcome ε σ} (h : Ends turn s r) (h' : Ends turn s r') :
    r = r' := by
  -- A turn has one outcome, so both derivations follow the same rule.
  induction h with
  | exit h => cases h' <;> simp_all
  | error h => cases h' <;> simp_all
  | panic h => cases h' <;> simp_all
  | again h _ ih =>
      cases h' with
      | again h' hr' =>
          cases h.symm.trans h'
          exact ih hr'
      | _ => simp_all

variable (measure : σ → Nat) (Inv : σ → Prop)

/-- A measure that every further turn lowers bounds the turns. -/
theorem loop_ends (hagain : ∀ s s', Inv s → turn s = value (.again s') →
      Inv s' ∧ measure s' < measure s) {fuel : Nat} {s : σ} (hs : Inv s) (hfuel :
        measure s < fuel) :
    ∃ r, loop turn fuel s = some r := by
  induction fuel generalizing s with
  | zero => omega
  | succ fuel ih =>
      rw [loop]
      split
      · rename_i s' hturn
        obtain ⟨hinv, hlt⟩ := hagain s s' hs hturn
        exact ih hinv (by omega)
      all_goals exact ⟨_, rfl⟩

/-- With fuel above the measure the loop gives the one way it ends. -/
theorem loop_eq_some_iff (hagain : ∀ s s', Inv s → turn s = value (.again s') →
      Inv s' ∧ measure s' < measure s) {fuel : Nat} {s : σ} (hs : Inv s) (hfuel : measure s < fuel)
    {r : Outcome ε σ} : loop turn fuel s = some r ↔ Ends turn s r := by
  constructor
  · exact ends_of_loop
  · intro h
    obtain ⟨r', hr'⟩ := loop_ends measure Inv hagain hs hfuel
    rw [hr', h.unique (ends_of_loop hr')]

/-- A loop whose turns do not panic does not panic. -/
theorem Ends.safe (hsafe : ∀ s, Inv s → (turn s).Safe)
    (hagain : ∀ s s', Inv s → turn s = value (.again s') → Inv s') {s : σ} {r : Outcome ε σ}
    (h : Ends turn s r) (hs : Inv s) : r.Safe := by
  induction h with
  | exit _ => trivial
  | error _ => trivial
  | panic h =>
      have hpanic := hsafe _ hs
      rw [h] at hpanic
      exact hpanic
  | again h _ ih => exact ih (hagain _ _ hs h)

end Loops

end Outcome
