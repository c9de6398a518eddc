import Mathlib.Algebra.Group.Nat.Defs
import Mathlib.Data.List.Basic

/-!
# Length-prefixed byte strings

A message that concatenates fields, each after its length in eight big-endian bytes, can be read in
one way only. This is what a keyed digest of such a message binds.

- `lengthPrefixed_append_inj`: a field and the rest of the message are determined by it.
- `flatMap_lengthPrefixed_inj`: so is a whole list of fields.
- `label_append_inj`: and so is a label that a zero byte ends.
-/

set_option autoImplicit false

namespace LengthPrefixed

/-! ## Fixed-width numbers -/

/-- A number in `width` bytes, the most significant first. -/
def bigEndian : Nat → Nat → List UInt8
  | 0, _ => []
  | width + 1, n => bigEndian width (n / 256) ++ [UInt8.ofNat n]

/-- The number that bytes spell, the most significant first. -/
def readBigEndian (bytes : List UInt8) : Nat :=
  bytes.foldl (fun n byte => n * 256 + byte.toNat) 0

@[simp] theorem length_bigEndian (width n : Nat) : (bigEndian width n).length = width := by
  induction width generalizing n with
  | zero => rfl
  | succ width ih => simp [bigEndian, ih]

/-- A number that fits in the width is read back. -/
theorem readBigEndian_bigEndian {width n : Nat} (h : n < 256 ^ width) :
    readBigEndian (bigEndian width n) = n := by
  induction width generalizing n with
  | zero =>
      have hzero : n = 0 := by simpa using h
      subst hzero
      rfl
  | succ width ih =>
      have hhigh : n / 256 < 256 ^ width := by
        apply Nat.div_lt_of_lt_mul
        rwa [Nat.mul_comm, ← Nat.pow_succ]
      have hread := ih hhigh
      unfold readBigEndian at hread
      simp only [bigEndian, readBigEndian, List.foldl_append, List.foldl_cons, List.foldl_nil,
        hread, UInt8.toNat_ofNat']
      omega

theorem bigEndian_inj {width m n : Nat} (hm : m < 256 ^ width) (hn : n < 256 ^ width)
    (h : bigEndian width m = bigEndian width n) : m = n := by
  rw [← readBigEndian_bigEndian hm, h, readBigEndian_bigEndian hn]

/-! ## Fields -/

/-- Longest field whose length fits in its prefix. -/
def maxLength : Nat := 2 ^ 64 - 1

/-- A field after its length in eight bytes, which saturates. -/
def lengthPrefixed (field : List UInt8) : List UInt8 :=
  bigEndian 8 (min field.length maxLength) ++ field

theorem lengthPrefixed_ne_nil (field : List UInt8) : lengthPrefixed field ≠ [] := by
  intro h
  have hlength := congrArg List.length h
  simp [lengthPrefixed] at hlength

/-- A field and what follows it are determined by the bytes. -/
theorem lengthPrefixed_append_inj {a b s t : List UInt8} (ha : a.length ≤ maxLength)
    (hb : b.length ≤ maxLength) (h : lengthPrefixed a ++ s = lengthPrefixed b ++ t) :
    a = b ∧ s = t := by
  simp only [lengthPrefixed, Nat.min_eq_left ha, Nat.min_eq_left hb, List.append_assoc] at h
  obtain ⟨hstart, hrest⟩ := List.append_inj h (by simp)
  have hfits : maxLength < 256 ^ 8 := by decide
  have hlength : a.length = b.length :=
    bigEndian_inj (Nat.lt_of_le_of_lt ha hfits) (Nat.lt_of_le_of_lt hb hfits) hstart
  exact List.append_inj hrest hlength

/-- A list of fields is determined by its bytes. -/
theorem flatMap_lengthPrefixed_inj {xs ys : List (List UInt8)}
    (hxs : ∀ field ∈ xs, field.length ≤ maxLength) (hys : ∀ field ∈ ys, field.length ≤ maxLength)
    (h : xs.flatMap lengthPrefixed = ys.flatMap lengthPrefixed) : xs = ys := by
  induction xs generalizing ys with
  | nil =>
      cases ys with
      | nil => rfl
      | cons y ys =>
          have hnil : lengthPrefixed y ++ ys.flatMap lengthPrefixed = [] := h.symm
          exact absurd (List.append_eq_nil_iff.mp hnil).1 (lengthPrefixed_ne_nil y)
  | cons x xs ih =>
      cases ys with
      | nil =>
          have hnil : lengthPrefixed x ++ xs.flatMap lengthPrefixed = [] := h
          exact absurd (List.append_eq_nil_iff.mp hnil).1 (lengthPrefixed_ne_nil x)
      | cons y ys =>
          obtain ⟨hfield, hrest⟩ := lengthPrefixed_append_inj (hxs x List.mem_cons_self)
            (hys y List.mem_cons_self) h
          have htail := ih (fun field hmem => hxs field (List.mem_cons_of_mem _ hmem))
            (fun field hmem => hys field (List.mem_cons_of_mem _ hmem)) hrest
          rw [hfield, htail]

/-! ## Labels -/

/-- A label without zero bytes and what follows the zero byte that ends it are determined by the
bytes. -/
theorem label_append_inj {label label' s t : List UInt8} (h : 0 ∉ label) (h' : 0 ∉ label')
    (heq : label ++ 0 :: s = label' ++ 0 :: t) : label = label' ∧ s = t := by
  induction label generalizing label' with
  | nil =>
      cases label' with
      | nil => exact ⟨rfl, (List.cons.inj heq).2⟩
      | cons byte' label' =>
          have hzero : 0 = byte' := (List.cons.inj heq).1
          exact absurd (hzero ▸ List.mem_cons_self) h'
  | cons byte label ih =>
      cases label' with
      | nil =>
          have hzero : byte = 0 := (List.cons.inj heq).1
          exact absurd (hzero ▸ List.mem_cons_self) h
      | cons byte' label' =>
          obtain ⟨hbyte, hrest⟩ := List.cons.inj heq
          obtain ⟨hlabel, hafter⟩ := ih (fun hmem => h (List.mem_cons_of_mem _ hmem))
            (fun hmem => h' (List.mem_cons_of_mem _ hmem)) hrest
          rw [hbyte, hlabel]
          exact ⟨rfl, hafter⟩

end LengthPrefixed
