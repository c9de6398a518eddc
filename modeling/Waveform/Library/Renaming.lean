import Mathlib.Data.List.Nodup

/-!
# Renamings

A renaming is a list of pairs of an old and a new name. It is valid when no name is renamed twice,
no two names get the same new one, and no new name is an old one, so that it may be applied in any
order and again.

- `apply`: the renaming of one name; `apply_of_mem`, `apply_of_not_mem`.
- `Valid.apply_not_old`: an old name is gone. `Valid.apply_inj`: names that are not new ones stay
  apart.
- `apply_append`: a later renaming is applied to what an earlier one left.
-/

set_option autoImplicit false

namespace Renaming

universe u

variable {Name : Type u}

/-- No name is renamed twice, no two get the same name, and no new name is renamed. -/
structure Valid (pairs : List (Name × Name)) : Prop where
  olds : (pairs.map Prod.fst).Nodup
  news : (pairs.map Prod.snd).Nodup
  unchained : ∀ pair ∈ pairs, ∀ other ∈ pairs, pair.1 ≠ other.2

theorem Valid.nil : Valid ([] : List (Name × Name)) :=
  ⟨List.nodup_nil, List.nodup_nil, fun _ hpair => absurd hpair List.not_mem_nil⟩

variable [DecidableEq Name]

/-- The name after a renaming. -/
def apply (pairs : List (Name × Name)) (name : Name) : Name :=
  ((pairs.find? fun pair => pair.1 = name).map Prod.snd).getD name

variable {pairs earlier later : List (Name × Name)} {name other : Name}

theorem apply_of_not_mem (h : name ∉ pairs.map Prod.fst) : apply pairs name = name := by
  have hnone : (pairs.find? fun pair => decide (pair.1 = name)) = none := by
    refine List.find?_eq_none.mpr fun pair hpair hname => h ?_
    exact List.mem_map.mpr ⟨pair, hpair, of_decide_eq_true hname⟩
  unfold apply
  rw [hnone]
  rfl

/-- What a name is renamed to is in the list, or it is not renamed. -/
theorem apply_cases (pairs : List (Name × Name)) (name : Name) :
    (name, apply pairs name) ∈ pairs ∨ (name ∉ pairs.map Prod.fst ∧ apply pairs name = name) := by
  cases hfound : pairs.find? fun pair => decide (pair.1 = name) with
  | some pair =>
      left
      have hname : pair.1 = name :=
        of_decide_eq_true (@List.find?_some _ (fun pair : Name × Name => decide (pair.1 = name))
          pair pairs hfound)
      have hmem := List.mem_of_find?_eq_some hfound
      unfold apply
      rw [hfound, ← hname]
      exact hmem
  | none =>
      have hnot : name ∉ pairs.map Prod.fst := by
        intro hmem
        obtain ⟨pair, hpair, hname⟩ := List.mem_map.mp hmem
        exact List.find?_eq_none.mp hfound pair hpair (decide_eq_true hname)
      exact .inr ⟨hnot, apply_of_not_mem hnot⟩

theorem Valid.apply_of_mem (h : Valid pairs) (hmem : (name, other) ∈ pairs) :
    apply pairs name = other := by
  rcases apply_cases pairs name with hfound | ⟨hnot, _⟩
  · exact (Prod.mk.inj (List.inj_on_of_nodup_map h.olds hfound hmem rfl)).2
  · exact absurd (List.mem_map.mpr ⟨_, hmem, rfl⟩) hnot

/-- **An old name is gone.** -/
theorem Valid.apply_not_old (h : Valid pairs) (name : Name) :
    apply pairs name ∉ pairs.map Prod.fst := by
  rcases apply_cases pairs name with hfound | ⟨hnot, hsame⟩
  · intro hmem
    obtain ⟨pair, hpair, hname⟩ := List.mem_map.mp hmem
    exact h.unchained pair hpair _ hfound hname
  · rwa [hsame]

/-- **Names that are not new ones stay apart.** -/
theorem Valid.apply_inj (h : Valid pairs) (hname : name ∉ pairs.map Prod.snd)
    (hother : other ∉ pairs.map Prod.snd)
    (hsame : apply pairs name = apply pairs other) : name = other := by
  rcases apply_cases pairs name with hfound | ⟨_, hkept⟩
  · rcases apply_cases pairs other with hfound' | ⟨_, hkept'⟩
    · exact (Prod.mk.inj (List.inj_on_of_nodup_map h.news hfound hfound' hsame)).1
    · exact absurd (List.mem_map.mpr ⟨_, hfound, hsame.trans hkept'⟩) hother
  · rcases apply_cases pairs other with hfound' | ⟨_, hkept'⟩
    · exact absurd (List.mem_map.mpr ⟨_, hfound', hsame.symm.trans hkept⟩) hname
    · exact hkept.symm.trans (hsame.trans hkept')

omit [DecidableEq Name] in
theorem Valid.left (h : Valid (earlier ++ later)) : Valid earlier where
  olds := (List.nodup_append.mp (List.map_append ▸ h.olds)).1
  news := (List.nodup_append.mp (List.map_append ▸ h.news)).1
  unchained := fun pair hpair other hother =>
    h.unchained pair (List.mem_append_left _ hpair) other (List.mem_append_left _ hother)

/-- **One renaming after another** is that of both lists. -/
theorem Valid.apply_append (h : Valid (earlier ++ later)) (name : Name) :
    apply (earlier ++ later) name = apply later (apply earlier name) := by
  rcases apply_cases earlier name with hfound | ⟨hnot, hkept⟩
  · -- the name that it got is not renamed again
    rw [h.apply_of_mem (List.mem_append_left _ hfound)]
    refine (apply_of_not_mem fun hmem => ?_).symm
    obtain ⟨pair, hpair, hname⟩ := List.mem_map.mp hmem
    exact h.unchained pair (List.mem_append_right _ hpair) _ (List.mem_append_left _ hfound) hname
  · rw [hkept]
    unfold apply
    rw [List.find?_append]
    have hnone : (earlier.find? fun pair => decide (pair.1 = name)) = none := by
      refine List.find?_eq_none.mpr fun pair hpair hname => hnot ?_
      exact List.mem_map.mpr ⟨pair, hpair, of_decide_eq_true hname⟩
    rw [hnone]
    rfl

end Renaming
