import Mathlib.Data.List.Basic

/-!
# Bytes of a text

What the digests and the idempotency keys hash: a text as UTF-8.
-/

set_option autoImplicit false

namespace Waveform.Domain

/-- `str::as_bytes`. -/
def utf8 (text : String) : List UInt8 := text.toList.flatMap String.utf8EncodeChar

/-- The bytes determine the text. -/
theorem utf8_inj {text text' : String} (h : utf8 text = utf8 text') : text = text' := by
  apply String.toByteArray_inj.mp
  rw [← String.utf8Encode_toList, ← String.utf8Encode_toList]
  unfold List.utf8Encode
  unfold utf8 at h
  rw [h]

theorem utf8_length (text : String) : (utf8 text).length = text.utf8ByteSize := by
  rw [utf8, ← String.size_toByteArray, ← String.utf8Encode_toList]
  simp [List.utf8Encode]

/-- A character takes four bytes at most. -/
theorem utf8_length_le (text : String) : (utf8 text).length ≤ 4 * text.toList.length := by
  unfold utf8
  induction text.toList with
  | nil => exact Nat.le_refl 0
  | cons c chars ih =>
      have hchar : (String.utf8EncodeChar c).length ≤ 4 := by
        rw [String.length_utf8EncodeChar]
        exact Char.utf8Size_le_four c
      simp only [List.flatMap_cons, List.length_append, List.length_cons]
      omega

/-- A character takes a byte at least. -/
theorem length_le_utf8ByteSize (text : String) : text.length ≤ text.utf8ByteSize := by
  rw [← utf8_length, ← String.length_toList]
  unfold utf8
  induction text.toList with
  | nil => exact Nat.le_refl 0
  | cons c chars ih =>
      have hchar : 1 ≤ (String.utf8EncodeChar c).length := by
        rw [String.length_utf8EncodeChar]
        exact Char.utf8Size_pos c
      simp only [List.flatMap_cons, List.length_append, List.length_cons]
      omega

/-- The text of bytes that are all ASCII. -/
def asciiText (bytes : List UInt8) : String := String.ofList (bytes.map fun b => Char.ofNat b.toNat)

theorem utf8_asciiText {bytes : List UInt8} (h : ∀ b ∈ bytes, b.toNat < 128) :
    utf8 (asciiText bytes) = bytes := by
  have hone : ∀ b : UInt8, b.toNat < 128 → String.utf8EncodeChar (Char.ofNat b.toNat) = [b] := by
    intro b hb
    have hall : ∀ i : Fin 128, String.utf8EncodeChar (Char.ofNat i.val) =
      [UInt8.ofNat i.val] := by decide
    have hbyte := hall ⟨b.toNat, hb⟩
    simpa using hbyte
  unfold utf8 asciiText
  rw [String.toList_ofList]
  induction bytes with
  | nil => rfl
  | cons b bytes ih =>
      rw [List.map_cons, List.flatMap_cons, hone b (h b List.mem_cons_self),
        ih fun d hd => h d (List.mem_cons_of_mem _ hd)]
      rfl

end Waveform.Domain
