import Mathlib.Data.List.Basic

/-!
# URL-safe Base64

Three bytes become four characters of six bits each; what is left of one or two bytes becomes two or
three characters, which padding makes four.

- `encode_inj`: different bytes have different spellings.
- `decode_encode`, `unpad_pad`: what is spelled is read back, with padding or without.
-/

set_option autoImplicit false

namespace Base64

/-- The character of six bits. -/
def digit (n : Nat) : Char :=
  if n < 26 then Char.ofNat (n + 65)
  else if n < 52 then Char.ofNat (n + 71)
  else if n < 62 then Char.ofNat (n - 4)
  else if n = 62 then '-'
  else '_'

/-- Bytes spelled without padding. -/
def encode : List UInt8 → List Char
  | [] => []
  | [a] => [digit (a.toNat / 4), digit (a.toNat % 4 * 16)]
  | [a, b] =>
      [digit (a.toNat / 4), digit (a.toNat % 4 * 16 + b.toNat / 16), digit (b.toNat % 16 * 4)]
  | a :: b :: c :: rest =>
      digit (a.toNat / 4) :: digit (a.toNat % 4 * 16 + b.toNat / 16) ::
        digit (b.toNat % 16 * 4 + c.toNat / 64) :: digit (c.toNat % 64) :: encode rest

/-- The six bits of a character. -/
def digitValue (c : Char) : Nat :=
  if c = '-' then 62
  else if c = '_' then 63
  else if c.toNat < 58 then c.toNat + 4
  else if c.toNat < 91 then c.toNat - 65
  else c.toNat - 71

theorem digitValue_digit {n : Nat} (h : n < 64) : digitValue (digit n) = n := by
  have hall : ∀ i : Fin 64, digitValue (digit i) = i := by decide
  exact hall ⟨n, h⟩

theorem digit_inj {m n : Nat} (hm : m < 64) (hn : n < 64) (h : digit m = digit n) : m = n := by
  rw [← digitValue_digit hm, h, digitValue_digit hn]

/-- Two bytes agree when their upper and their lower parts do. -/
theorem byte_eq {a a' : UInt8} {d : Nat} (hdiv : a.toNat / d = a'.toNat / d)
    (hmod : a.toNat % d = a'.toNat % d) : a = a' := by
  apply UInt8.toNat_inj.mp
  rw [← Nat.div_add_mod a.toNat d, ← Nat.div_add_mod a'.toNat d, hdiv, hmod]

/-- **The spelling determines the bytes.** -/
theorem encode_inj {bytes bytes' : List UInt8} (h : encode bytes = encode bytes') :
    bytes = bytes' := by
  fun_induction encode bytes generalizing bytes' with
  | case1 =>
      cases bytes' with
      | nil => rfl
      | cons a rest =>
          rcases rest with _ | ⟨b, _ | ⟨c, rest⟩⟩ <;> exact absurd h (by simp [encode])
  | case2 a =>
      rcases bytes' with _ | ⟨a', _ | ⟨b', _ | ⟨c', rest'⟩⟩⟩
      · exact absurd h (by simp [encode])
      · simp only [encode, List.cons.injEq, and_true] at h
        have ha := a.toNat_lt
        have ha' := a'.toNat_lt
        have h₀ := digit_inj (by omega) (by omega) h.1
        have h₁ := digit_inj (by omega) (by omega) h.2
        rw [@byte_eq a a' 4 h₀ (by omega)]
      · exact absurd h (by simp [encode])
      · exact absurd h (by simp [encode])
  | case3 a b =>
      rcases bytes' with _ | ⟨a', _ | ⟨b', _ | ⟨c', rest'⟩⟩⟩
      · exact absurd h (by simp [encode])
      · exact absurd h (by simp [encode])
      · simp only [encode, List.cons.injEq, and_true] at h
        have ha := a.toNat_lt
        have ha' := a'.toNat_lt
        have hb := b.toNat_lt
        have hb' := b'.toNat_lt
        have h₀ := digit_inj (by omega) (by omega) h.1
        have h₁ := digit_inj (by omega) (by omega) h.2.1
        have h₂ := digit_inj (by omega) (by omega) h.2.2
        rw [@byte_eq a a' 4 h₀ (by omega), @byte_eq b b' 16 (by omega) (by omega)]
      · exact absurd h (by simp [encode])
  | case4 a b c rest ih =>
      rcases bytes' with _ | ⟨a', _ | ⟨b', _ | ⟨c', rest'⟩⟩⟩
      · exact absurd h (by simp [encode])
      · exact absurd h (by simp [encode])
      · exact absurd h (by simp [encode])
      · simp only [encode, List.cons.injEq] at h
        obtain ⟨h₀, h₁, h₂, h₃, hrest⟩ := h
        have ha := a.toNat_lt
        have ha' := a'.toNat_lt
        have hb := b.toNat_lt
        have hb' := b'.toNat_lt
        have hc := c.toNat_lt
        have hc' := c'.toNat_lt
        have h₀ := digit_inj (by omega) (by omega) h₀
        have h₁ := digit_inj (by omega) (by omega) h₁
        have h₂ := digit_inj (by omega) (by omega) h₂
        have h₃ := digit_inj (by omega) (by omega) h₃
        rw [@byte_eq a a' 4 h₀ (by omega), @byte_eq b b' 16 (by omega) (by omega),
          @byte_eq c c' 64 (by omega) h₃, ih hrest]

/-! ## Reading -/

/-- The bytes of a spelling without padding. -/
def decode : List Char → Option (List UInt8)
  | [] => some []
  | [_] => none
  | [a, b] => some [UInt8.ofNat (digitValue a * 4 + digitValue b / 16)]
  | [a, b, c] =>
      some [UInt8.ofNat (digitValue a * 4 + digitValue b / 16),
        UInt8.ofNat (digitValue b % 16 * 16 + digitValue c / 4)]
  | a :: b :: c :: d :: rest =>
      (decode rest).map fun bytes =>
        UInt8.ofNat (digitValue a * 4 + digitValue b / 16) ::
          UInt8.ofNat (digitValue b % 16 * 16 + digitValue c / 4) ::
            UInt8.ofNat (digitValue c % 4 * 64 + digitValue d) :: bytes

theorem ofNat_eq {n : Nat} {b : UInt8} (h : n = b.toNat) : UInt8.ofNat n = b := by
  rw [h, UInt8.ofNat_toNat]

/-- **What is spelled is read back.** -/
theorem decode_encode (bytes : List UInt8) : decode (encode bytes) = some bytes := by
  fun_induction encode bytes with
  | case1 => rfl
  | case2 a =>
      have ha := a.toNat_lt
      rw [decode, digitValue_digit (by omega), digitValue_digit (by omega),
        @ofNat_eq _ a (by omega)]
  | case3 a b =>
      have ha := a.toNat_lt
      have hb := b.toNat_lt
      rw [decode, digitValue_digit (by omega), digitValue_digit (by omega),
        digitValue_digit (by omega),
        @ofNat_eq _ a (by omega), @ofNat_eq _ b (by omega)]
  | case4 a b c rest ih =>
      have ha := a.toNat_lt
      have hb := b.toNat_lt
      have hc := c.toNat_lt
      rw [decode, ih, digitValue_digit (by omega), digitValue_digit (by omega),
        digitValue_digit (by omega),
        digitValue_digit (by omega), @ofNat_eq _ a (by omega), @ofNat_eq _ b (by omega),
        @ofNat_eq _ c (by omega)]
      rfl

/-- A spelling with its padding. -/
def pad (spelling : List Char) : List Char :=
  spelling ++ List.replicate ((4 - spelling.length % 4) % 4) '='

/-- A spelling without its padding. -/
def unpad (spelling : List Char) : List Char := spelling.takeWhile (· != '=')

theorem digit_ne_padding {n : Nat} (h : n < 64) : (digit n != '=') = true := by
  have hall : ∀ i : Fin 64, (digit i != '=') = true := by decide
  exact hall ⟨n, h⟩

theorem bne_padding_of_mem_encode {bytes : List UInt8} {c : Char} (h : c ∈ encode bytes) :
    (c != '=') = true := by
  fun_induction encode bytes with
  | case1 => cases h
  | case2 a =>
      have ha := a.toNat_lt
      simp only [List.mem_cons, List.not_mem_nil, or_false] at h
      rcases h with rfl | rfl <;> exact digit_ne_padding (by omega)
  | case3 a b =>
      have ha := a.toNat_lt
      have hb := b.toNat_lt
      simp only [List.mem_cons, List.not_mem_nil, or_false] at h
      rcases h with rfl | rfl | rfl <;> exact digit_ne_padding (by omega)
  | case4 a b c' rest ih =>
      have ha := a.toNat_lt
      have hb := b.toNat_lt
      have hc := c'.toNat_lt
      simp only [List.mem_cons] at h
      rcases h with rfl | rfl | rfl | rfl | h
      · exact digit_ne_padding (by omega)
      · exact digit_ne_padding (by omega)
      · exact digit_ne_padding (by omega)
      · exact digit_ne_padding (by omega)
      · exact ih h

/-- **Padding is taken off again.** -/
theorem unpad_pad (bytes : List UInt8) : unpad (pad (encode bytes)) = encode bytes := by
  rw [unpad, pad, List.takeWhile_append_of_pos fun c hc => bne_padding_of_mem_encode hc]
  cases (4 - (encode bytes).length % 4) % 4 with
  | zero => simp
  | succ n => rw [List.replicate_succ, List.takeWhile_cons_of_neg (by decide), List.append_nil]

end Base64
