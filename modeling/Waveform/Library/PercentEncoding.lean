import Mathlib.Data.List.Basic

/-!
# Percent encoding

A byte of a set is written as a percent sign and two hexadecimal digits. Decoding reads such escapes
once; a percent sign that no two digits follow stands for itself.

- `decode_encode`: what is encoded with percent signs in the set is read back.
- `decode_of_noPercent`: what has no percent sign is not changed, and `decode_eq_self_iff`: nothing
  else is, where an escape stands in it.
-/

set_option autoImplicit false

namespace PercentEncoding

/-- The percent sign. -/
def percent : UInt8 := 37

/-- The hexadecimal digit of four bits, as it is written. -/
def hexDigit (n : Nat) : UInt8 := UInt8.ofNat (if n < 10 then n + 48 else n + 55)

/-- The four bits of a hexadecimal digit of either case. -/
def hexValue (digit : UInt8) : Option Nat :=
  if 48 ≤ digit.toNat ∧ digit.toNat ≤ 57 then some (digit.toNat - 48)
  else if 65 ≤ digit.toNat ∧ digit.toNat ≤ 70 then some (digit.toNat - 55)
  else if 97 ≤ digit.toNat ∧ digit.toNat ≤ 102 then some (digit.toNat - 87)
  else none

/-- The byte of an escape. -/
def escaped (high low : UInt8) : Option UInt8 :=
  match hexValue high, hexValue low with
  | some high, some low => some (UInt8.ofNat (16 * high + low))
  | _, _ => none

/-- Reads the escapes, once. -/
def decode : List UInt8 → List UInt8
  | b :: high :: low :: rest =>
      if b = percent then
        match escaped high low with
        | some value => value :: decode rest
        | none => b :: decode (high :: low :: rest)
      else b :: decode (high :: low :: rest)
  | bytes => bytes

/-- One byte as an escape. -/
def escape (b : UInt8) : List UInt8 := [percent, hexDigit (b.toNat / 16), hexDigit (b.toNat % 16)]

/-- Writes the bytes of a set as escapes. -/
def encode (set : UInt8 → Bool) (bytes : List UInt8) : List UInt8 :=
  bytes.flatMap fun b => if set b then escape b else [b]

theorem hexValue_hexDigit {n : Nat} (h : n < 16) : hexValue (hexDigit n) = some n := by
  have hall : ∀ i : Fin 16, hexValue (hexDigit i) = some i.val := by decide
  exact hall ⟨n, h⟩

/-- An escape is read back. -/
theorem decode_escape (b : UInt8) (rest : List UInt8) :
    decode (escape b ++ rest) = b :: decode rest := by
  have hb : b.toNat < 256 := b.toNat_lt
  have hescaped : escaped (hexDigit (b.toNat / 16)) (hexDigit (b.toNat % 16)) = some b := by
    unfold escaped
    rw [hexValue_hexDigit (by omega), hexValue_hexDigit (by omega)]
    have hvalue : 16 * (b.toNat / 16) + b.toNat % 16 = b.toNat := by omega
    simp only [hvalue, UInt8.ofNat_toNat]
  change (if percent = percent then _ else _) = _
  rw [if_pos rfl, hescaped]
  rfl

/-- Any other byte stands for itself. -/
theorem decode_cons {b : UInt8} (h : b ≠ percent) (rest : List UInt8) :
    decode (b :: rest) = b :: decode rest := by
  match rest with
  | [] => rfl
  | [_] => rfl
  | _ :: _ :: _ => rw [decode, if_neg h]

/-- **What is encoded is read back**, where percent signs are in the set. -/
theorem decode_encode {set : UInt8 → Bool} (h : set percent = true) (bytes : List UInt8) :
    decode (encode set bytes) = bytes := by
  induction bytes with
  | nil => rfl
  | cons b bytes ih =>
      change decode ((if set b then escape b else [b]) ++ encode set bytes) = b :: bytes
      by_cases hb : set b = true
      · rw [if_pos hb, decode_escape, ih]
      · have hne : b ≠ percent := by
          rintro rfl
          exact hb h
        rw [if_neg hb, List.singleton_append, decode_cons hne, ih]

/-- What has no percent sign is not changed. -/
theorem decode_of_noPercent {bytes : List UInt8} (h : percent ∉ bytes) : decode bytes = bytes := by
  induction bytes with
  | nil => rfl
  | cons b bytes ih =>
      obtain ⟨hb, hrest⟩ := not_or.mp (mt List.mem_cons.mpr h)
      rw [decode_cons (Ne.symm hb), ih hrest]

/-- An escape stands somewhere in the bytes. -/
def hasEscape : List UInt8 → Bool
  | b :: high :: low :: rest => (b == percent && (escaped high low).isSome) ||
      hasEscape (high :: low :: rest)
  | _ => false

theorem length_decode_le (bytes : List UInt8) : (decode bytes).length ≤ bytes.length := by
  fun_induction decode bytes with
  | case1 high low rest value hvalue ih => simp only [List.length_cons]; omega
  | case2 high low rest hvalue ih => simp only [List.length_cons] at ih ⊢; omega
  | case3 b high low rest hb ih => simp only [List.length_cons] at ih ⊢; omega
  | case4 bytes => exact Nat.le_refl _

/-- Reading an escape makes the bytes fewer. -/
theorem length_decode_lt {bytes : List UInt8} (h : hasEscape bytes = true) :
    (decode bytes).length < bytes.length := by
  fun_induction decode bytes with
  | case1 high low rest value hvalue ih =>
      have hrest := length_decode_le rest
      simp only [List.length_cons]
      omega
  | case2 high low rest hvalue ih =>
      simp only [hasEscape, hvalue, Option.isSome_none, Bool.and_false, Bool.false_or] at h
      have hrest := ih h
      simp only [List.length_cons] at hrest ⊢
      omega
  | case3 b high low rest hb ih =>
      simp only [hasEscape, beq_eq_false_iff_ne.mpr hb, Bool.false_and, Bool.false_or] at h
      have hrest := ih h
      simp only [List.length_cons] at hrest ⊢
      omega
  | case4 bytes hshort =>
      exfalso
      match bytes, hshort with
      | [], _ => cases h
      | [_], _ => cases h
      | [_, _], _ => cases h
      | b :: high :: low :: rest, hshort => exact hshort b high low rest rfl

/-- What has no escape is not changed. -/
theorem decode_of_noEscape {bytes : List UInt8} (h : hasEscape bytes = false) :
    decode bytes = bytes := by
  fun_induction decode bytes with
  | case1 high low rest value hvalue ih =>
      simp [hasEscape, hvalue] at h
  | case2 high low rest hvalue ih =>
      simp only [hasEscape, Bool.or_eq_false_iff] at h
      rw [ih h.2]
  | case3 b high low rest hb ih =>
      simp only [hasEscape, Bool.or_eq_false_iff] at h
      rw [ih h.2]
  | case4 bytes => rfl

/-- The bytes that decoding leaves alone are those without an escape. -/
theorem decode_eq_self_iff {bytes : List UInt8} : decode bytes = bytes ↔
    hasEscape bytes = false := by
  constructor
  · intro h
    by_contra hescape
    have hlt := length_decode_lt (Bool.not_eq_false _ ▸ hescape)
    rw [h] at hlt
    exact Nat.lt_irrefl _ hlt
  · exact decode_of_noEscape

/-- What stands outside the set is written as it is. -/
theorem mem_encode {set : UInt8 → Bool} {bytes : List UInt8} {b : UInt8}
    (h : b ∈ encode set bytes) :
    (b ∈ bytes ∧ set b = false) ∨ ∃ a ∈ bytes, set a = true ∧ b ∈ escape a := by
  obtain ⟨a, ha, hb⟩ := List.mem_flatMap.mp h
  by_cases hset : set a = true
  · rw [if_pos hset] at hb
    exact .inr ⟨a, ha, hset, hb⟩
  · rw [if_neg hset] at hb
    obtain rfl := List.mem_singleton.mp hb
    exact .inl ⟨ha, Bool.eq_false_iff.mpr hset⟩

end PercentEncoding
