import Mathlib.Algebra.Order.BigOperators.Group.List
import Waveform.Library.Cancellable

/-!
# What a program may cost

Each query has a cost that its exchange does not exceed: a time, say, that it is given. A program
costs at most a limit when the costs along every run add up to no more. Costs are of any ordered
additive monoid.

- `CostsAtMost.ask`, `CostsAtMost.bind`, `CostsAtMost.andThen`, `CostsAtMost.asking`: the limits of
  the parts add up.
- `staysWithin_iff`: when every exchange spends no more than its cost, the run spends no more than
  the limit; and a limit that every such run keeps is one of the costs.
-/

set_option autoImplicit false

universe u v w

namespace Dialogue

variable {Query : Type u} {Answer : Query → Type u} {M : Type w} [AddCommMonoid M] [PartialOrder M]
  [IsOrderedAddMonoid M]

/-- The costs along a run. -/
def total (cost : Query → M) (tr : List (Exchange Query Answer)) : M :=
  (tr.map fun e => cost e.query).sum

/-- The costs along every run add up to a limit at most. -/
def CostsAtMost {α : Type v} (cost : Query → M) (limit : M) (p : Dialogue Query Answer α) : Prop :=
  ∀ tr a, Runs p tr a → total cost tr ≤ limit

section Rules

variable {α β ε : Type v} {cost : Query → M} {limit limit' : M}

omit [PartialOrder M] [IsOrderedAddMonoid M] in
theorem total_cons (e : Exchange Query Answer) (tr : List (Exchange Query Answer)) :
    total cost (e :: tr) = cost e.query + total cost tr :=
  List.sum_cons

omit [PartialOrder M] [IsOrderedAddMonoid M] in
theorem total_append (tr tr' : List (Exchange Query Answer)) :
    total cost (tr ++ tr') = total cost tr + total cost tr' := by
  rw [total, List.map_append, List.sum_append]
  rfl

omit [IsOrderedAddMonoid M] in
theorem CostsAtMost.mono {p : Dialogue Query Answer α} (h : CostsAtMost cost limit p)
    (hle : limit ≤ limit') : CostsAtMost cost limit' p :=
  fun tr a hrun => (h tr a hrun).trans hle

omit [IsOrderedAddMonoid M] in
/-- A program that asks nothing costs nothing. -/
theorem CostsAtMost.done (a : α) : CostsAtMost cost 0 (done a : Dialogue Query Answer α) := by
  intro tr b hrun
  obtain ⟨rfl, rfl⟩ := runs_done_iff.mp hrun
  exact le_of_eq List.sum_nil

/-- A query comes first. -/
theorem CostsAtMost.ask {q : Query} {next : Answer q → Dialogue Query Answer α}
    (h : ∀ answer, CostsAtMost cost limit (next answer)) :
    CostsAtMost cost (cost q + limit) (ask q next) := by
  intro tr a hrun
  obtain ⟨answer, rest, rfl, hrest⟩ := runs_ask_iff.mp hrun
  rw [total_cons]
  exact add_le_add_right (h answer rest a hrest) _

/-- What comes after a query has what is left of the limit. -/
theorem CostsAtMost.ask_le {q : Query} {next : Answer q → Dialogue Query Answer α}
    (hle : cost q + limit ≤ limit') (h : ∀ answer, CostsAtMost cost limit (next answer)) :
    CostsAtMost cost limit' (Dialogue.ask q next) :=
  (CostsAtMost.ask h).mono hle

/-- **The rule of sequences.** -/
theorem CostsAtMost.bind {p : Dialogue Query Answer α} {f : α → Dialogue Query Answer β}
    (hp : CostsAtMost cost limit p) (hf : ∀ a, CostsAtMost cost limit' (f a)) :
    CostsAtMost cost (limit + limit') (p.bind f) := by
  intro tr b hrun
  obtain ⟨tr₁, a, tr₂, rfl, hfirst, hsecond⟩ := runs_bind_iff.mp hrun
  rw [total_append]
  exact add_le_add (hp tr₁ a hfirst) (hf a tr₂ b hsecond)

/-- The rule of sequences that an error ends: then the second limit is not used up. -/
theorem CostsAtMost.andThen {p : Dialogue Query Answer (Except ε α)}
    {f : α → Dialogue Query Answer (Except ε β)} (hp : CostsAtMost cost limit p)
    (hnonneg : 0 ≤ limit') (hf : ∀ a, CostsAtMost cost limit' (f a)) :
    CostsAtMost cost (limit + limit') (p.andThen f) := by
  refine hp.bind fun result => ?_
  cases result with
  | ok a => exact hf a
  | error error => exact (CostsAtMost.done _).mono hnonneg

end Rules

section Asking

variable {α : Type v} {Query' : Type u} {Answer' : Query' → Type u} {embed : Query → Query'}
  {restrict : ∀ q, Answer' (embed q) → Answer q} {p : Dialogue Query Answer α}

omit [PartialOrder M] [IsOrderedAddMonoid M] in
/-- A part that asks other queries runs as its program does, at the same costs. -/
theorem runs_asking_total (cost : Query' → M) {tr : List (Exchange Query' Answer')} {a : α}
    (hrun : Runs (p.asking embed restrict) tr a) :
    ∃ tr', Runs p tr' a ∧ total (fun q => cost (embed q)) tr' = total cost tr := by
  induction p generalizing tr with
  | done b =>
      obtain ⟨rfl, rfl⟩ := runs_done_iff.mp hrun
      exact ⟨[], .done _, rfl⟩
  | ask q next ih =>
      obtain ⟨answer, rest, rfl, hrest⟩ := runs_ask_iff.mp hrun
      obtain ⟨tr', hrun', htotal⟩ := ih (restrict q answer) hrest
      refine ⟨_, .ask (restrict q answer) hrun', ?_⟩
      rw [total_cons, total_cons, htotal]

omit [IsOrderedAddMonoid M] in
/-- Such a part costs what its program costs. -/
theorem CostsAtMost.asking {cost : Query' → M} {limit : M}
    (h : CostsAtMost (fun q => cost (embed q)) limit p) :
    CostsAtMost cost limit (p.asking embed restrict) := by
  intro tr a hrun
  obtain ⟨tr', hrun', htotal⟩ := runs_asking_total cost hrun
  exact htotal.symm.trans_le (h tr' a hrun')

end Asking

/-! ## Time spent -/

/-- However long the exchanges of a run take, each within its cost, the run keeps to the limit. -/
def StaysWithin {α : Type v} (cost : Query → M) (limit : M) (p : Dialogue Query Answer α) : Prop :=
  ∀ tr a, Runs p tr a → ∀ spent : List M, List.Forall₂ (fun t e => t ≤ cost e.query) spent tr →
    spent.sum ≤ limit

/-- **The costs decide**: the run that takes longest spends all of them. -/
theorem staysWithin_iff {α : Type v} {cost : Query → M} {limit : M} {p : Dialogue Query Answer α} :
    StaysWithin cost limit p ↔ CostsAtMost cost limit p := by
  constructor
  · intro h tr a hrun
    refine h tr a hrun (tr.map fun e => cost e.query) ?_
    rw [List.forall₂_map_left_iff, List.forall₂_same]
    intro e _
    exact le_rfl
  · intro h tr a hrun spent hspent
    have hcosts : List.Forall₂ (· ≤ ·) spent (tr.map fun e => cost e.query) :=
      List.forall₂_map_right_iff.mpr hspent
    exact hcosts.sum_le_sum.trans (h tr a hrun)

end Dialogue
