import Mathlib.Algebra.Order.Group.Defs
import Mathlib.Data.List.Basic

/-!
# A quota over a sliding window, with stamps out of order

A limiter that admits an entry while fewer than `limit` of the entries it holds are stamped later
than `width` before the new entry's stamp. The stamps need not rise: an entry may be stamped when it
starts to wait and be admitted long after others that started later.

- `Admitted.countP_le`: no more than `limit` entries have stamps less than `width` apart.
- `Admitted.countP_from`, `Admitted.countP_until`: no half-open interval of length `width` holds
  more.
-/

set_option autoImplicit false

namespace SlidingWindow

variable {Time : Type} [AddCommGroup Time] [LinearOrder Time] {width stamp : Time} {limit : Nat}
  {stamps : List Time}

/-- How many of the stamps count against a new one. -/
def recent (width stamp : Time) (stamps : List Time) : Nat :=
  stamps.countP fun other => decide (stamp - width < other)

/-- Stamps in the order they were admitted, the last one first. -/
inductive Admitted (width : Time) (limit : Nat) : List Time → Prop where
  | nil : Admitted width limit []
  | cons {stamp : Time} {stamps : List Time} :
      recent width stamp stamps < limit → Admitted width limit stamps →
        Admitted width limit (stamp :: stamps)

/-- The stamps that pass a test lie less than `width` apart. -/
def Close (width : Time) (p : Time → Bool) (stamps : List Time) : Prop :=
  ∀ first ∈ stamps, ∀ second ∈ stamps, p first = true → p second = true → first - width < second

theorem Close.tail {p : Time → Bool} (h : Close width p (stamp :: stamps)) :
    Close width p stamps := by
  intro first hfirst second hsecond
  exact h first (List.mem_cons_of_mem _ hfirst) second (List.mem_cons_of_mem _ hsecond)

/-- **However the stamps are ordered, those that lie less than `width` apart are at most `limit`.**
The one admitted last counted all the others. -/
theorem Admitted.countP_le {p : Time → Bool} (h : Admitted width limit stamps)
    (hclose : Close width p stamps) : stamps.countP p ≤ limit := by
  induction h with
  | nil => exact Nat.zero_le _
  | @cons stamp stamps hroom _ ih =>
      by_cases hp : p stamp = true
      · -- each other stamp that passes was counted when this one was admitted
        have hcounted : stamps.countP p ≤ recent width stamp stamps := by
          apply List.countP_mono_left
          intro other hother hpass
          apply decide_eq_true
          exact hclose stamp List.mem_cons_self other (List.mem_cons_of_mem _ hother) hp hpass
        rw [List.countP_cons_of_pos hp]
        exact Nat.succ_le_of_lt (lt_of_le_of_lt hcounted hroom)
      · rw [List.countP_cons_of_neg hp]
        exact ih hclose.tail

section Interval

variable [IsOrderedAddMonoid Time]

/-- The stamps of an interval that holds its first moment but not its last one. -/
theorem Admitted.countP_from (h : Admitted width limit stamps) (a : Time) :
    stamps.countP (fun stamp => decide (a ≤ stamp) && decide (stamp < a + width)) ≤ limit := by
  apply h.countP_le
  intro first _ second _ hfirst hsecond
  simp only [Bool.and_eq_true, decide_eq_true_eq] at hfirst hsecond
  have hstart : first - width < a := sub_lt_iff_lt_add.mpr hfirst.2
  exact lt_of_lt_of_le hstart hsecond.1

/-- The stamps of an interval that holds its last moment but not its first one. -/
theorem Admitted.countP_until (h : Admitted width limit stamps) (a : Time) :
    stamps.countP (fun stamp => decide (a < stamp) && decide (stamp ≤ a + width)) ≤ limit := by
  apply h.countP_le
  intro first _ second _ hfirst hsecond
  simp only [Bool.and_eq_true, decide_eq_true_eq] at hfirst hsecond
  have hstart : first - width ≤ a := sub_le_iff_le_add.mpr hfirst.2
  exact lt_of_le_of_lt hstart hsecond.1

end Interval

end SlidingWindow
