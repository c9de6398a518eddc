import Mathlib.Algebra.Order.Field.Rat
import Mathlib.Data.List.Induction
import Mathlib.Tactic.Linarith
import Waveform.Library.FixedWindow
import Waveform.Library.LabelledRun

/-!
# The lookup budget

`spend_lookup` of one gateway, called in any order for any purpose. A call reads the clock once, and
a second time when it opens a new window. Time is in seconds. The lock is never poisoned: under it
only counters change, and none comes near `u32::MAX` (`Ledger.used_le`).

- `lookup_budget_shares`: what each window and each minute grants, and which refusals there can be.
-/

set_option autoImplicit false

namespace Waveform.Accounts

open LabelledRun

/-- `LOOKUPS_PER_MINUTE`. -/
def lookupsPerMinute : Nat := 300

/-- `SELECTOR_LOOKUPS_PER_MINUTE`. -/
def selectorLookupsPerMinute : Nat := 100

/-- `SWEEP_LOOKUPS_PER_MINUTE`. -/
def sweepLookupsPerMinute : Nat := 50

/-- `LookupPurpose`. -/
inductive LookupPurpose where
  | authorization
  | selector
  | sweep
  deriving DecidableEq

/-- `AccountsError`, as far as the budget answers it. -/
inductive AccountsError where
  | unavailable
  deriving DecidableEq

/-- `LookupBudget`. -/
structure LookupBudget where
  windowStarted : ℚ
  used : Nat
  selector : Nat
  sweep : Nat

namespace LookupBudget

/-- The budget of a new window. -/
def opened (windowStarted : ℚ) : LookupBudget := ⟨windowStarted, 0, 0, 0⟩

/-- `window_started.elapsed()`, zero for a reading before the window's start. -/
def elapsed (b : LookupBudget) (now : ℚ) : ℚ := max 0 (now - b.windowStarted)

/-- A call whose first reading is `checked` opens a new window. -/
def Over (b : LookupBudget) (checked : ℚ) : Prop := 60 ≤ b.elapsed checked

instance (b : LookupBudget) (checked : ℚ) : Decidable (b.Over checked) :=
  inferInstanceAs (Decidable (_ ≤ _))

/-- The budget the call spends from: a window that is over is replaced by one that starts at the
second reading, `renewed`. -/
def current (b : LookupBudget) (checked renewed : ℚ) : LookupBudget :=
  if b.Over checked then opened renewed else b

/-- `share`: what the purpose has used and may use, where it has a ceiling of its own. -/
def share (b : LookupBudget) : LookupPurpose → Option (Nat × Nat)
  | .authorization => none
  | .selector => some (b.selector, selectorLookupsPerMinute)
  | .sweep => some (b.sweep, sweepLookupsPerMinute)

/-- Nothing is left for the purpose. -/
def exhausted (b : LookupBudget) (purpose : LookupPurpose) : Bool :=
  lookupsPerMinute ≤ b.used || (b.share purpose).any fun (used, limit) => limit ≤ used

/-- The counters of a granted lookup. -/
def charge (b : LookupBudget) : LookupPurpose → LookupBudget
  | .authorization => { b with used := b.used + 1 }
  | .selector => { b with used := b.used + 1, selector := b.selector + 1 }
  | .sweep => { b with used := b.used + 1, sweep := b.sweep + 1 }

@[simp] theorem charge_windowStarted (b : LookupBudget) (purpose : LookupPurpose) :
    (b.charge purpose).windowStarted = b.windowStarted := by cases purpose <;> rfl

@[simp] theorem charge_used (b : LookupBudget) (purpose : LookupPurpose) :
    (b.charge purpose).used = b.used + 1 := by cases purpose <;> rfl

theorem over_iff {b : LookupBudget} {checked : ℚ} :
    b.Over checked ↔ b.windowStarted + 60 ≤ checked := by
  show (60 : ℚ) ≤ max 0 (checked - b.windowStarted) ↔ _
  rw [le_max_iff]
  constructor
  · rintro (h | h)
    · exact absurd h (by norm_num)
    · linarith
  · intro h
    exact .inr (by linarith)

end LookupBudget

/-- `spend_lookup`, with the clock's readings. -/
def spendLookup (b : LookupBudget) (purpose : LookupPurpose) (checked renewed : ℚ) :
    Except AccountsError Unit × LookupBudget :=
  if (b.current checked renewed).exhausted purpose then
    (.error .unavailable, b.current checked renewed)
  else (.ok (), (b.current checked renewed).charge purpose)

/-- What a call can do: refuse and leave the counters, or grant and charge. -/
theorem spendLookup_cases (b : LookupBudget) (purpose : LookupPurpose) (checked renewed : ℚ) :
    ((b.current checked renewed).exhausted purpose = true ∧
      spendLookup b purpose checked renewed = (.error .unavailable, b.current checked renewed)) ∨
    ((b.current checked renewed).exhausted purpose = false ∧
      spendLookup b purpose checked renewed =
        (.ok (), (b.current checked renewed).charge purpose)) := by
  cases h : (b.current checked renewed).exhausted purpose with
  | true => exact .inl ⟨rfl, by rw [spendLookup, if_pos h]⟩
  | false => exact .inr ⟨rfl, by rw [spendLookup, h]; rfl⟩

/-! ## Calls in order -/

/-- The gateway's budget, with the last reading of the clock. -/
structure Lookups where
  budget : LookupBudget
  clock : ℚ

/-- A call of `spend_lookup` with the readings of the clock it takes; the second only where it opens
a new window. -/
structure SpendCall where
  purpose : LookupPurpose
  checked : ℚ
  renewed : ℚ

/-- Clock readings do not decrease. -/
def Timely (s : Lookups) (c : SpendCall) : Prop := s.clock ≤ c.checked ∧ c.checked ≤ c.renewed

instance (s : Lookups) (c : SpendCall) : Decidable (Timely s c) :=
    inferInstanceAs (Decidable (_ ∧ _))

/-- The gateway after the call. -/
def Lookups.after (s : Lookups) (c : SpendCall) : Lookups where
  budget := (spendLookup s.budget c.purpose c.checked c.renewed).2
  clock := if s.budget.Over c.checked then c.renewed else c.checked

/-- One call. -/
inductive Spends : Lookups → SpendCall → Lookups → Prop where
  | call {s : Lookups} {c : SpendCall} : Timely s c → Spends s c (s.after c)

theorem spends_iff {s s' : Lookups} {c : SpendCall} :
    Spends s c s' ↔ Timely s c ∧ s' = s.after c := by
  constructor
  · intro h
    cases h with
    | call htimely => exact ⟨htimely, rfl⟩
  · rintro ⟨htimely, rfl⟩
    exact .call htimely

/-- `AccountsGateway::new`: an unused budget whose window starts now. -/
def FreshLookups (s : Lookups) : Prop := s.budget = .opened s.clock

/-- A call in its place. -/
abbrev Spent := Transition Lookups SpendCall

/-- The call was granted. -/
def granted (e : Spent) : Bool :=
  (spendLookup e.pre.budget e.label.purpose e.label.checked e.label.renewed).1.toBool

/-- The window the call fell into, by its start. -/
def window (e : Spent) : ℚ := e.post.budget.windowStarted

/-- The lookups granted in a window. -/
def grantedIn (w : ℚ) (calls : List Spent) : Nat :=
  calls.countP fun e => granted e && decide (window e = w)

/-- Those for one purpose. -/
def grantedFor (purpose : LookupPurpose) (w : ℚ) (calls : List Spent) : Nat :=
  calls.countP fun e => granted e && decide (window e = w) && decide (e.label.purpose = purpose)

/-- The lookups granted to calls that read the clock between `a` and `a + 60`. -/
def grantedWithin (a : ℚ) (calls : List Spent) : Nat :=
  calls.countP fun e => granted e && decide (a ≤ e.label.checked ∧ e.label.checked ≤ a + 60)

theorem granted_iff {e : Spent} : granted e = true ↔
    (e.pre.budget.current e.label.checked e.label.renewed).exhausted e.label.purpose = false := by
  rw [granted]
  rcases spendLookup_cases e.pre.budget e.label.purpose e.label.checked e.label.renewed with
    ⟨hex, h⟩ | ⟨hex, h⟩
  · rw [h, hex]
    simp [Except.toBool]
  · rw [h, hex]
    simp [Except.toBool]

theorem granted_eq_false_iff {e : Spent} : granted e = false ↔
    (e.pre.budget.current e.label.checked e.label.renewed).exhausted e.label.purpose = true := by
  rw [← Bool.not_eq_true, granted_iff, Bool.not_eq_false]

/-- What a call leaves: the counters of the window it fell into, charged when it was granted. -/
theorem Spends.post {e : Spent} (h : Spends e.pre e.label e.post) :
    Timely e.pre e.label ∧
    e.post.clock = (if e.pre.budget.Over e.label.checked then e.label.renewed
      else e.label.checked) ∧
    e.post.budget =
      (if granted e then
        (e.pre.budget.current e.label.checked e.label.renewed).charge e.label.purpose
      else e.pre.budget.current e.label.checked e.label.renewed) := by
  obtain ⟨htimely, hpost⟩ := spends_iff.mp h
  refine ⟨htimely, by rw [hpost]; rfl, ?_⟩
  rw [hpost]
  rcases spendLookup_cases e.pre.budget e.label.purpose e.label.checked e.label.renewed with
    ⟨-, h⟩ | ⟨-, h⟩
  · simp [Lookups.after, granted, h, Except.toBool]
  · simp [Lookups.after, granted, h, Except.toBool]

theorem Spends.window_eq {e : Spent} (h : Spends e.pre e.label e.post) :
    window e = (e.pre.budget.current e.label.checked e.label.renewed).windowStarted := by
  rw [window, h.post.2.2]
  split
  · exact LookupBudget.charge_windowStarted _ _
  · rfl

/-! ## What the counters hold -/

theorem grantedIn_concat (w : ℚ) (calls : List Spent) (e : Spent) :
    grantedIn w (calls ++ [e]) =
      grantedIn w calls + if granted e = true ∧ window e = w then 1 else 0 := by
  simp [grantedIn, List.countP_append, List.countP_singleton]

theorem grantedFor_concat (purpose : LookupPurpose) (w : ℚ) (calls : List Spent) (e : Spent) :
    grantedFor purpose w (calls ++ [e]) = grantedFor purpose w calls +
      if granted e = true ∧ window e = w ∧ e.label.purpose = purpose then 1 else 0 := by
  simp [grantedFor, List.countP_append, List.countP_singleton, and_assoc]

/-- Every granted lookup is for one of the three purposes. -/
theorem grantedIn_eq_add (w : ℚ) (calls : List Spent) :
    grantedIn w calls = grantedFor .authorization w calls + grantedFor .selector w calls +
      grantedFor .sweep w calls := by
  induction calls using List.reverseRecOn with
  | nil => rfl
  | append_singleton calls e ih =>
      rw [grantedIn_concat, grantedFor_concat, grantedFor_concat, grantedFor_concat, ih]
      by_cases h : granted e = true ∧ window e = w
      · obtain ⟨hg, hw⟩ := h
        cases hp : e.label.purpose with
        | authorization => simp [hg, hw]; omega
        | selector => simp [hg, hw]; omega
        | sweep => simp [hg, hw]; omega
      · have hnone (purpose : LookupPurpose) :
            ¬(granted e = true ∧ window e = w ∧ e.label.purpose = purpose) :=
          fun hall => h ⟨hall.1, hall.2.1⟩
        rw [if_neg h, if_neg (hnone _), if_neg (hnone _), if_neg (hnone _)]
        rfl

/-- A purpose's ceiling in one window. -/
def ceiling : LookupPurpose → Option Nat
  | .authorization => none
  | .selector => some selectorLookupsPerMinute
  | .sweep => some sweepLookupsPerMinute

/-- The counters are the lookups granted in the budget's window. -/
structure Counted (calls : List Spent) (b : LookupBudget) : Prop where
  used_eq : b.used = grantedIn b.windowStarted calls
  selector_eq : b.selector = grantedFor .selector b.windowStarted calls
  sweep_eq : b.sweep = grantedFor .sweep b.windowStarted calls

/-- The share of a purpose is what it was granted in the window, beside its ceiling. -/
theorem Counted.share_eq {calls : List Spent} {b : LookupBudget} (h : Counted calls b)
    (purpose : LookupPurpose) :
    b.share purpose =
      (ceiling purpose).map fun limit => (grantedFor purpose b.windowStarted calls, limit) := by
  cases purpose with
  | authorization => rfl
  | selector => simp [LookupBudget.share, ceiling, h.selector_eq]
  | sweep => simp [LookupBudget.share, ceiling, h.sweep_eq]

/-- When nothing is left for a purpose. -/
theorem Counted.exhausted_iff {calls : List Spent} {b : LookupBudget} (h : Counted calls b)
    (purpose : LookupPurpose) : b.exhausted purpose = true ↔
      lookupsPerMinute ≤ grantedIn b.windowStarted calls ∨
        ∃ limit, ceiling purpose = some limit ∧
          limit ≤ grantedFor purpose b.windowStarted calls := by
  rw [LookupBudget.exhausted, h.share_eq, ← h.used_eq]
  cases ceiling purpose with
  | none => simp
  | some limit => simp

/-- A new window has granted nothing yet. -/
theorem counted_opened {calls : List Spent} {start : ℚ} (h : ∀ e ∈ calls, window e ≠ start) :
    Counted calls (.opened start) := by
  have hnone (p : Spent → Bool) :
      calls.countP (fun e => granted e && decide (window e = start) && p e) = 0 := by
    rw [List.countP_eq_zero]
    intro e he
    simp [h e he]
  refine ⟨?_, (hnone _).symm, (hnone _).symm⟩
  have hall := hnone fun _ => true
  simp only [Bool.and_true] at hall
  exact hall.symm

/-- A call keeps the counters right. -/
theorem Counted.concat {calls : List Spent} {e : Spent}
    (hstep : Spends e.pre e.label e.post)
    (h : Counted calls (e.pre.budget.current e.label.checked e.label.renewed)) :
    Counted (calls ++ [e]) e.post.budget := by
  have hw := hstep.window_eq
  obtain ⟨-, -, hpost⟩ := hstep.post
  have hpostw : e.post.budget.windowStarted = window e := rfl
  cases hg : granted e with
  | false =>
      rw [hg, if_neg Bool.false_ne_true] at hpost
      refine ⟨?_, ?_, ?_⟩
      · rw [grantedIn_concat, hpost, h.used_eq]
        simp [hg]
      · rw [grantedFor_concat, hpost, h.selector_eq]
        simp [hg]
      · rw [grantedFor_concat, hpost, h.sweep_eq]
        simp [hg]
  | true =>
      rw [hg, if_pos rfl] at hpost
      refine ⟨?_, ?_, ?_⟩
      · rw [grantedIn_concat, hpostw, if_pos ⟨hg, rfl⟩, hpost, LookupBudget.charge_used, h.used_eq,
          ← hw]
      · rw [grantedFor_concat, hpostw, hw, ← h.selector_eq, hpost]
        cases e.label.purpose <;> simp [LookupBudget.charge, hg]
      · rw [grantedFor_concat, hpostw, hw, ← h.sweep_eq, hpost]
        cases e.label.purpose <;> simp [LookupBudget.charge, hg]

/-- The call as a charge of its window. -/
def asCharge (e : Spent) : FixedWindow.Charge ℚ := ⟨window e, e.label.checked⟩

/-- What holds after any calls: the counters are right, no window is over its ceilings, and windows
follow each other a minute apart. -/
structure Ledger (calls : List Spent) (s : Lookups) : Prop where
  started : s.budget.windowStarted ≤ s.clock
  counted : Counted calls s.budget
  grantedIn_le : ∀ w, grantedIn w calls ≤ lookupsPerMinute
  grantedFor_le : ∀ purpose limit w, ceiling purpose = some limit →
    grantedFor purpose w calls ≤ limit
  inMinute : ∀ e ∈ calls, e.label.checked < window e + 60
  past : ∀ e ∈ calls, window e = s.budget.windowStarted ∨
    (e.label.checked < s.budget.windowStarted ∧ window e + 60 ≤ s.budget.windowStarted)
  follows : (calls.map asCharge).Pairwise (FixedWindow.Follows 60)

namespace Ledger

variable {calls : List Spent} {e : Spent}

/-- No counter comes near the width of its integer. -/
theorem used_le {s : Lookups} (h : Ledger calls s) : s.budget.used ≤ lookupsPerMinute := by
  rw [h.counted.used_eq]
  exact h.grantedIn_le _

theorem fresh {s : Lookups} (h : FreshLookups s) : Ledger [] s where
  started := by rw [h]; exact le_refl _
  counted := by rw [h]; exact counted_opened fun _ he => nomatch he
  grantedIn_le := fun _ => Nat.zero_le _
  grantedFor_le := fun _ _ _ _ => Nat.zero_le _
  inMinute := fun _ he => nomatch he
  past := fun _ he => nomatch he
  follows := .nil

/-- The window a call opens has not been open before. -/
theorem counted_current (h : Ledger calls e.pre) (ht : Timely e.pre e.label) :
    Counted calls (e.pre.budget.current e.label.checked e.label.renewed) := by
  rw [LookupBudget.current]
  split
  case isTrue hover =>
    have hlate := LookupBudget.over_iff.mp hover
    obtain ⟨-, hren⟩ := ht
    refine counted_opened fun d hd heq => ?_
    rcases h.past d hd with hw | ⟨-, hw⟩
    · linarith
    · linarith
  case isFalse => exact h.counted

/-- Where the call's window stands to the calls before it. -/
theorem past_current (h : Ledger calls e.pre) (hstep : Spends e.pre e.label e.post) :
    ∀ d ∈ calls, window d = window e ∨ (d.label.checked < window e ∧ window d + 60 ≤ window e ∧
      window d + 60 ≤ e.label.checked) := by
  intro d hd
  obtain ⟨⟨hclock, hren⟩, -, -⟩ := hstep.post
  have hstarted := h.started
  rw [hstep.window_eq, LookupBudget.current]
  split
  case isTrue hover =>
    -- the window before is over, and so is every older one
    have hlate := LookupBudget.over_iff.mp hover
    have hmin := h.inMinute d hd
    right
    show _ < e.label.renewed ∧ _ ≤ e.label.renewed ∧ _
    rcases h.past d hd with hw | ⟨hbefore, hw⟩
    · rw [hw] at hmin ⊢
      exact ⟨by linarith, by linarith, hlate⟩
    · exact ⟨by linarith, by linarith, by linarith⟩
  case isFalse =>
    rcases h.past d hd with hw | ⟨hbefore, hw⟩
    · exact .inl hw
    · exact .inr ⟨hbefore, hw, by linarith⟩

/-- A call keeps the ledger. -/
theorem step (h : Ledger calls e.pre) (hstep : Spends e.pre e.label e.post) :
    Ledger (calls ++ [e]) e.post := by
  obtain ⟨htimely, hclock, -⟩ := hstep.post
  have hcurrent := h.counted_current htimely
  have hwindow := hstep.window_eq
  have hpast := h.past_current hstep
  -- a granted call found its window and its share with room
  have hroom : granted e = true → grantedIn (window e) calls < lookupsPerMinute ∧
      ∀ limit, ceiling e.label.purpose = some limit →
        grantedFor e.label.purpose (window e) calls < limit := by
    intro hg
    have hnot := granted_iff.mp hg
    rw [← Bool.not_eq_true, hcurrent.exhausted_iff, ← hwindow] at hnot
    obtain ⟨hin, hfor⟩ := not_or.mp hnot
    exact ⟨not_le.mp hin, fun limit hlimit => not_le.mp fun hle => hfor ⟨limit, hlimit, hle⟩⟩
  refine ⟨?_, .concat hstep hcurrent, ?_, ?_, ?_, ?_, ?_⟩
  · show window e ≤ _
    rw [hwindow, hclock, LookupBudget.current]
    split
    · exact le_refl _
    · exact h.started.trans htimely.1
  · intro w
    rw [grantedIn_concat]
    split
    case isTrue hboth =>
      obtain ⟨hg, rfl⟩ := hboth
      exact (hroom hg).1
    case isFalse => exact h.grantedIn_le w
  · intro purpose limit w hlimit
    rw [grantedFor_concat]
    split
    case isTrue hall =>
      obtain ⟨hg, rfl, rfl⟩ := hall
      exact (hroom hg).2 limit hlimit
    case isFalse => exact h.grantedFor_le purpose limit w hlimit
  · intro d hd
    rcases List.mem_append.mp hd with hd | hd
    · exact h.inMinute d hd
    · obtain rfl := List.mem_singleton.mp hd
      rw [hwindow, LookupBudget.current]
      split
      case isTrue =>
        show d.label.checked < d.label.renewed + 60
        have := htimely.2
        linarith
      case isFalse hover =>
        rw [LookupBudget.over_iff, not_le] at hover
        exact hover
  · intro d hd
    rcases List.mem_append.mp hd with hd | hd
    · rcases hpast d hd with hw | ⟨hbefore, hw, -⟩
      · exact .inl hw
      · exact .inr ⟨hbefore, hw⟩
    · obtain rfl := List.mem_singleton.mp hd
      exact .inl rfl
  · rw [List.map_append, List.pairwise_append]
    refine ⟨h.follows, List.pairwise_singleton _ _, ?_⟩
    intro c hc f hf
    obtain ⟨d, hd, rfl⟩ := List.mem_map.mp hc
    obtain rfl := List.mem_singleton.mp hf
    rcases hpast d hd with hw | ⟨hbefore, -, hw⟩
    · exact .inl hw
    · exact .inr ⟨hbefore, hw⟩

/-- Every run keeps the ledger. -/
theorem run {s₀ s : Lookups} (hfresh : FreshLookups s₀) (h : Run Spends s₀ calls s) :
    Ledger calls s := by
  induction calls using List.reverseRecOn generalizing s with
  | nil =>
      obtain rfl := Run.nil_iff.mp h
      exact fresh hfresh
  | append_singleton calls e ih =>
      obtain ⟨hrun, hstep, rfl⟩ := Run.concat_iff.mp h
      exact (ih hrun).step hstep

end Ledger

/-! ## The shares -/

/-- The calls' charges are the granted lookups among them. -/
theorem grantedWithin_eq (a : ℚ) (calls : List Spent) :
    grantedWithin a calls = ((calls.filter granted).map asCharge).countP
      fun c => decide (FixedWindow.Within a 60 c) := by
  rw [List.countP_map, List.countP_filter]
  refine List.countP_congr fun e _ => ?_
  simp only [FixedWindow.Within, asCharge, Function.comp_apply, Bool.and_eq_true,
    decide_eq_true_eq, and_comm]
  exact and_congr_left' decide_eq_true_iff.symm

theorem grantedIn_eq (w : ℚ) (calls : List Spent) :
    grantedIn w calls = ((calls.filter granted).map asCharge).countP
      fun c => decide (c.window = w) := by
  rw [List.countP_map, List.countP_filter]
  refine List.countP_congr fun e _ => ?_
  simp only [asCharge, Function.comp_apply, Bool.and_eq_true, decide_eq_true_eq, and_comm]
  exact and_congr_right' decide_eq_true_iff.symm

/-- No minute grants more than two windows do. -/
theorem Ledger.grantedWithin_le {calls : List Spent} {s : Lookups} (h : Ledger calls s) (a : ℚ) :
    grantedWithin a calls ≤ 2 * lookupsPerMinute := by
  rw [grantedWithin_eq]
  refine FixedWindow.countP_interval_le ?_ (fun w => ?_) a
  · exact h.follows.sublist (List.filter_sublist.map _)
  · rw [← grantedIn_eq]
    exact h.grantedIn_le w

/-- What a refusal says about the window: it is full, or the purpose's ceiling is reached in it. -/
theorem Ledger.refused {calls : List Spent} {e : Spent} (h : Ledger calls e.pre)
    (hstep : Spends e.pre e.label e.post) (hno : granted e = false) :
    lookupsPerMinute ≤ grantedIn (window e) calls ∨
      ∃ limit, ceiling e.label.purpose = some limit ∧
        limit ≤ grantedFor e.label.purpose (window e) calls := by
  rw [hstep.window_eq]
  exact ((h.counted_current hstep.post.1).exhausted_iff _).mp (granted_eq_false_iff.mp hno)

/-- The shares of the lookup budget, over every run of calls: the ceilings of each window, which is
never older than a minute where a call falls into it; the only reasons of a refusal; and the bound
for any sixty seconds. -/
theorem lookup_budget_shares {s₀ s : Lookups} {calls : List Spent} (hfresh : FreshLookups s₀)
    (h : Run Spends s₀ calls s) :
    (∀ e ∈ calls, e.label.checked < window e + 60) ∧
    (∀ w, grantedIn w calls ≤ 300 ∧ grantedFor .selector w calls ≤ 100 ∧
      grantedFor .sweep w calls ≤ 50) ∧
    (∀ before e after, calls = before ++ e :: after → granted e = false →
      (e.label.purpose = .authorization → 150 ≤ grantedFor .authorization (window e) before) ∧
      (e.label.purpose = .selector → grantedFor .selector (window e) before = 100 ∨
        grantedIn (window e) before = 300) ∧
      (e.label.purpose = .sweep → grantedFor .sweep (window e) before = 50 ∨
        grantedIn (window e) before = 300)) ∧
    ∀ a, grantedWithin a calls ≤ 600 := by
  have hledger := Ledger.run hfresh h
  refine ⟨hledger.inMinute, fun w => ⟨hledger.grantedIn_le w, hledger.grantedFor_le _ _ w rfl,
    hledger.grantedFor_le _ _ w rfl⟩, ?_, hledger.grantedWithin_le⟩
  rintro before e after rfl hno
  obtain ⟨hrun, hstep, -⟩ := h.split_mem
  have hbefore := Ledger.run hfresh hrun
  have hin := hbefore.grantedIn_le (window e)
  have hselector := hbefore.grantedFor_le .selector _ (window e) rfl
  have hsweep := hbefore.grantedFor_le .sweep _ (window e) rfl
  simp only [lookupsPerMinute, selectorLookupsPerMinute,
    sweepLookupsPerMinute] at hin hselector hsweep
  have hwhy := hbefore.refused hstep hno
  refine ⟨fun hp => ?_, fun hp => ?_, fun hp => ?_⟩
  · -- the others hold at most 150 of the 300
    rw [hp] at hwhy
    rcases hwhy with hfull | ⟨limit, hlimit, -⟩
    · have hsum := grantedIn_eq_add (window e) before
      simp only [lookupsPerMinute] at hfull
      omega
    · cases hlimit
  · rw [hp] at hwhy
    rcases hwhy with hfull | ⟨limit, hlimit, hspent⟩
    · exact .inr (le_antisymm hin hfull)
    · cases hlimit
      exact .inl (le_antisymm hselector hspent)
  · rw [hp] at hwhy
    rcases hwhy with hfull | ⟨limit, hlimit, hspent⟩
    · exact .inr (le_antisymm hin hfull)
    · cases hlimit
      exact .inl (le_antisymm hsweep hspent)

/-- A gateway started at zero, and the calls of a sweep that runs out of its share at the first
second and goes on a minute later, next to other callers. -/
def newLookups : Lookups := ⟨.opened 0, 0⟩

def sweepingCalls : List SpendCall :=
  List.replicate 51 ⟨.sweep, 1, 1⟩ ++
    [⟨.authorization, 2, 2⟩, ⟨.sweep, 60, 61⟩, ⟨.selector, 62, 62⟩]

theorem lookup_budget_shares_sample :
    (play Lookups.after newLookups sweepingCalls).map granted =
      List.replicate 50 true ++ [false, true, true, true] ∧
    ∀ a, grantedWithin a (play Lookups.after newLookups sweepingCalls) ≤ 600 :=
  ⟨by decide +kernel, (@lookup_budget_shares newLookups _ _ rfl
    (run_play Lookups.after Timely (fun _ _ => Spends.call) (by decide +kernel))).2.2.2⟩

end Waveform.Accounts
