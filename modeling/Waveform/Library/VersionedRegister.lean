import Mathlib.Order.Lattice
import Mathlib.Data.List.Basic

/-!
# A register that versioned writes raise

A register holds a value and its version. A write carries a version and a change of the value, and
takes effect when its version is higher. What a list of writes leaves is decided by the write that
raises the version last: the first one of the highest version.

- `exists_lastRaise`: no write raises the version, or one raises it last.
- `writes_of_lastRaise`: what the writes leave then, and `writes_of_le`: what they leave otherwise.
- `newest_writes`, `Newest.unique`: the version they leave, whatever their order.
-/

set_option autoImplicit false

universe u v

/-- A value and its version. -/
structure VersionedRegister (ν : Type u) (α : Type v) where
  version : ν
  value : α

namespace VersionedRegister

/-- A change of the value, at a version. -/
structure Write (ν : Type u) (α : Type v) where
  version : ν
  change : α → α

variable {ν : Type u} {α : Type v} [LinearOrder ν]

/-- The register after a write. -/
def write (r : VersionedRegister ν α) (w : Write ν α) : VersionedRegister ν α :=
  if r.version < w.version then ⟨w.version, w.change r.value⟩ else r

/-- The register after a list of writes. -/
def writes (r : VersionedRegister ν α) (ws : List (Write ν α)) : VersionedRegister ν α :=
  ws.foldl write r

/-- The write raises the version last: it is the first one of the highest version. -/
structure LastRaise (r : VersionedRegister ν α) (before : List (Write ν α)) (w : Write ν α)
    (after : List (Write ν α)) : Prop where
  raises : r.version < w.version
  first : ∀ other ∈ before, other.version < w.version
  highest : ∀ other ∈ after, other.version ≤ w.version

variable {r : VersionedRegister ν α} {w : Write ν α} {ws before after : List (Write ν α)}

@[simp] theorem writes_nil : r.writes [] = r := rfl

@[simp] theorem writes_cons : r.writes (w :: ws) = (r.write w).writes ws := rfl

theorem writes_append (r : VersionedRegister ν α) (ws ws' : List (Write ν α)) :
    r.writes (ws ++ ws') = (r.writes ws).writes ws' :=
  List.foldl_append

theorem write_of_lt (h : r.version < w.version) : r.write w = ⟨w.version, w.change r.value⟩ :=
  if_pos h

theorem write_of_le (h : w.version ≤ r.version) : r.write w = r := if_neg (not_lt.mpr h)

/-- Writes of lower versions leave the register. -/
theorem writes_of_le (h : ∀ w ∈ ws, w.version ≤ r.version) : r.writes ws = r := by
  induction ws with
  | nil => rfl
  | cons w ws ih =>
      have hhead := write_of_le (h w List.mem_cons_self)
      rw [writes_cons, hhead]
      exact ih fun other hmem => h other (List.mem_cons_of_mem _ hmem)

/-- Writes below a version leave the register below it. -/
theorem writes_lt {version : ν} (hr : r.version < version) (h : ∀ w ∈ ws, w.version < version) :
    (r.writes ws).version < version := by
  induction ws generalizing r with
  | nil => exact hr
  | cons w ws ih =>
      rw [writes_cons]
      apply ih
      · unfold write
        split
        · exact h w List.mem_cons_self
        · exact hr
      · exact fun other hmem => h other (List.mem_cons_of_mem _ hmem)

/-- No write raises the version, or one raises it last. -/
theorem exists_lastRaise (r : VersionedRegister ν α) (ws : List (Write ν α)) :
    (∀ w ∈ ws, w.version ≤ r.version) ∨
      ∃ before w after, ws = before ++ w :: after ∧ LastRaise r before w after := by
  -- The threshold rises with the writes passed, so the induction is over all registers.
  induction ws generalizing r with
  | nil => exact .inl (List.forall_mem_nil _)
  | cons w ws ih =>
      by_cases hw : w.version ≤ r.version
      · rcases ih r with hle | ⟨before, last, after, rfl, hlast⟩
        · refine .inl fun other hmem => ?_
          rcases List.mem_cons.mp hmem with rfl | hmem
          · exact hw
          · exact hle other hmem
        · refine .inr ⟨w :: before, last, after, rfl, hlast.raises, ?_, hlast.highest⟩
          intro other hmem
          rcases List.mem_cons.mp hmem with rfl | hmem
          · exact lt_of_le_of_lt hw hlast.raises
          · exact hlast.first other hmem
      · have hraise : r.version < w.version := not_le.mp hw
        rcases ih ⟨w.version, w.change r.value⟩ with hle | ⟨before, last, after, rfl, hlast⟩
        · exact .inr ⟨[], w, ws, rfl, hraise, List.forall_mem_nil _, hle⟩
        · refine .inr ⟨w :: before, last, after, rfl, lt_trans hraise hlast.raises, ?_,
            hlast.highest⟩
          intro other hmem
          rcases List.mem_cons.mp hmem with rfl | hmem
          · exact hlast.raises
          · exact hlast.first other hmem

/-- The write that raises the version last decides what is left. -/
theorem writes_of_lastRaise (h : LastRaise r before w after) :
    r.writes (before ++ w :: after) = ⟨w.version, w.change (r.writes before).value⟩ := by
  rw [writes_append, writes_cons, write_of_lt (writes_lt h.raises h.first)]
  exact writes_of_le h.highest

/-- The version that is left. -/
theorem writes_version (r : VersionedRegister ν α) (ws : List (Write ν α)) :
    (r.writes ws).version = (ws.map Write.version).foldl max r.version := by
  induction ws generalizing r with
  | nil => rfl
  | cons w ws ih =>
      rw [writes_cons, ih, List.map_cons, List.foldl_cons]
      congr 1
      rcases lt_or_ge r.version w.version with hlt | hge
      · rw [write_of_lt hlt, max_eq_right hlt.le]
      · rw [write_of_le hge, max_eq_left hge]

/-- The highest version of the register and the writes. -/
structure Newest (r : VersionedRegister ν α) (ws : List (Write ν α)) (version : ν) : Prop where
  among : version = r.version ∨ ∃ w ∈ ws, w.version = version
  start : r.version ≤ version
  bound : ∀ w ∈ ws, w.version ≤ version

/-- The writes leave the highest version. -/
theorem newest_writes (r : VersionedRegister ν α) (ws : List (Write ν α)) :
    Newest r ws (r.writes ws).version := by
  rcases exists_lastRaise r ws with hle | ⟨before, w, after, rfl, hlast⟩
  · rw [writes_of_le hle]
    exact ⟨.inl rfl, le_refl _, hle⟩
  · rw [writes_of_lastRaise hlast]
    refine ⟨.inr ⟨w, by simp, rfl⟩, le_of_lt hlast.raises, ?_⟩
    intro other hother
    rcases List.mem_append.mp hother with hother | hother
    · exact le_of_lt (hlast.first other hother)
    · rcases List.mem_cons.mp hother with rfl | hother
      · exact le_refl _
      · exact hlast.highest other hother

/-- It does not depend on the order of the writes, nor on how often each is there. -/
theorem Newest.unique {ws' : List (Write ν α)} {version version' : ν} (h : Newest r ws version)
    (h' : Newest r ws' version')
    (hsame : ∀ v, (∃ w ∈ ws, w.version = v) ↔ ∃ w ∈ ws', w.version = v) : version = version' := by
  apply le_antisymm
  · rcases h.among with rfl | hmem
    · exact h'.start
    · obtain ⟨w, hw, rfl⟩ := (hsame version).mp hmem
      exact h'.bound w hw
  · rcases h'.among with rfl | hmem
    · exact h.start
    · obtain ⟨w, hw, rfl⟩ := (hsame version').mpr hmem
      exact h.bound w hw

end VersionedRegister
