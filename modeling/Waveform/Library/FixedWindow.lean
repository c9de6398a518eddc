import Mathlib.Algebra.Order.Group.Defs
import Mathlib.Data.List.Basic
import Mathlib.Tactic.Linarith

/-!
# Fixed windows and sliding intervals

A limiter that counts in windows of its own: each charge falls into the window that is open at its
moment, and a new window opens only when the last one is at least `width` old. A bound on what one
window takes is then a bound on any interval of that length, twice as large.

- `exists_two_windows`: the charges of an interval lie in two windows.
- `countP_interval_le`: at most `2 * limit` charges lie in an interval.
-/

set_option autoImplicit false

namespace FixedWindow

variable {Time : Type} [AddCommGroup Time] [LinearOrder Time] [IsOrderedAddMonoid Time]

/-- A charge: when its window opened and the moment it was taken. -/
structure Charge (Time : Type) where
  window : Time
  moment : Time

/-- What a later charge owes to an earlier one: the same window, or one that opened after the
earlier charge, with the earlier window full `width` old. -/
def Follows (width : Time) (earlier later : Charge Time) : Prop :=
  earlier.window = later.window ∨
    (earlier.moment < later.window ∧ earlier.window + width ≤ later.moment)

/-- The charge lies in the closed interval of length `width` from `a` on. -/
def Within (a width : Time) (c : Charge Time) : Prop := a ≤ c.moment ∧ c.moment ≤ a + width

instance (a width : Time) : DecidablePred (Within a width) := fun _ =>
  inferInstanceAs (Decidable (_ ∧ _))

/-- Three windows do not fit: the second opened after the first charge, and the third charge came
`width` after that. -/
theorem window_eq_of_within {a width : Time} {c d e : Charge Time} (hc : a ≤ c.moment)
    (he : e.moment ≤ a + width) (hopen : c.moment < d.window) (hde : Follows width d e) :
    d.window = e.window := by
  rcases hde with heq | ⟨-, hlate⟩
  · exact heq
  · exfalso
    have hstart : a < d.window := lt_of_le_of_lt hc hopen
    have hpast : a + width < d.window + width := add_lt_add_left hstart width
    exact absurd (hpast.trans_le (hlate.trans he)) (lt_irrefl _)

/-- The charges of an interval, in their order, lie in the first one's window and one other. -/
theorem exists_two_windows {a width : Time} {c : Charge Time} {rest : List (Charge Time)}
    (hl : (c :: rest).Pairwise (Follows width)) (hin : ∀ d ∈ c :: rest, Within a width d) :
    ∃ w, ∀ d ∈ c :: rest, d.window = c.window ∨ d.window = w := by
  have hc := (hin c List.mem_cons_self).1
  induction rest with
  | nil =>
      refine ⟨c.window, fun d hd => ?_⟩
      rw [List.mem_singleton] at hd
      exact .inl (by rw [hd])
  | cons d rest ih =>
      rw [List.pairwise_cons, List.pairwise_cons] at hl
      obtain ⟨hfirst, hnext, hrest⟩ := hl
      rcases hfirst d List.mem_cons_self with heq | ⟨hopen, -⟩
      · -- still the first window: the rest decides
        have hshort : (c :: rest).Pairwise (Follows width) :=
          List.pairwise_cons.mpr ⟨fun e he => hfirst e (List.mem_cons_of_mem _ he), hrest⟩
        obtain ⟨w, hw⟩ := ih hshort fun e he => hin e (by
          rcases List.mem_cons.mp he with rfl | he
          · exact List.mem_cons_self
          · exact List.mem_cons_of_mem _ (List.mem_cons_of_mem _ he))
        refine ⟨w, fun e he => ?_⟩
        rcases List.mem_cons.mp he with rfl | he
        · exact .inl rfl
        · rcases List.mem_cons.mp he with rfl | he
          · exact .inl heq.symm
          · exact hw e (List.mem_cons_of_mem _ he)
      · -- a second window has opened: no third one does
        refine ⟨d.window, fun e he => ?_⟩
        rcases List.mem_cons.mp he with rfl | he
        · exact .inl rfl
        · rcases List.mem_cons.mp he with rfl | hmem
          · exact .inr rfl
          · have hend := (hin e (List.mem_cons_of_mem _ he)).2
            exact .inr (window_eq_of_within hc hend hopen (hnext e hmem)).symm

omit [AddCommGroup Time] [IsOrderedAddMonoid Time] in
/-- Charges that lie in two windows are at most what the two windows took. -/
theorem length_le_of_two_windows {limit : Nat} {v w : Time} {l : List (Charge Time)}
    (htwo : ∀ d ∈ l, d.window = v ∨ d.window = w)
    (hlimit : ∀ u, l.countP (fun c => decide (c.window = u)) ≤ limit) :
    l.length ≤ 2 * limit := by
  have hsplit : l.length ≤ l.countP (fun c => decide (c.window = v)) +
      l.countP (fun c => decide (c.window = w)) := by
    clear hlimit
    induction l with
    | nil => exact Nat.zero_le _
    | cons d l ih =>
        have hrest := ih fun e he => htwo e (List.mem_cons_of_mem _ he)
        rw [List.length_cons, List.countP_cons, List.countP_cons]
        rcases htwo d List.mem_cons_self with hv | hw
        · rw [if_pos (decide_eq_true hv)]
          omega
        · rw [if_pos (decide_eq_true hw)]
          omega
  have hv := hlimit v
  have hw := hlimit w
  omega

/-- Where no window takes more than `limit` charges, no interval of the windows' length takes more
than twice as many. -/
theorem countP_interval_le {width : Time} {limit : Nat} {l : List (Charge Time)}
    (hl : l.Pairwise (Follows width))
    (hlimit : ∀ w, l.countP (fun c => decide (c.window = w)) ≤ limit) (a : Time) :
    l.countP (fun c => decide (Within a width c)) ≤ 2 * limit := by
  rw [List.countP_eq_length_filter]
  have hsub := List.filter_sublist (p := fun c => decide (Within a width c)) (l := l)
  have hin : ∀ c ∈ l.filter (fun c => decide (Within a width c)), Within a width c :=
    fun c hc => of_decide_eq_true (List.mem_filter.mp hc).2
  have hpair := hl.sublist hsub
  have hfew : ∀ w, (l.filter (fun c => decide (Within a width c))).countP
      (fun c => decide (c.window = w)) ≤ limit := fun w => (hsub.countP_le).trans (hlimit w)
  cases hf : l.filter (fun c => decide (Within a width c)) with
  | nil => exact Nat.zero_le _
  | cons c rest =>
      rw [hf] at hin hpair hfew
      obtain ⟨w, hw⟩ := exists_two_windows hpair hin
      exact length_le_of_two_windows hw hfew

end FixedWindow
