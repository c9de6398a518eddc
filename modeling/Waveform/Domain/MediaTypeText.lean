import Mathlib.Algebra.Group.Nat.Defs
import Waveform.Domain.TtsOptions
import Waveform.Library.Outcome

/-!
# Media types as text

A media type is an essence and parameters behind semicolons. Both readers of raw PCM descriptions
take it apart with the same operations of `str`, over characters here.

- `parseUnsigned_decimal`: an integer that is written is read back at any width that holds it.
-/

set_option autoImplicit false

namespace Waveform.Domain

/-- `str::trim`. -/
def trim (chars : List Char) : List Char :=
  ((chars.dropWhile isWhitespace).reverse.dropWhile isWhitespace).reverse

/-- `to_ascii_lowercase`. -/
def toAsciiLowercase (chars : List Char) : List Char := chars.map Char.toLower

/-- `eq_ignore_ascii_case`. -/
def eqIgnoreAsciiCase (chars : List Char) (other : String) : Bool :=
  toAsciiLowercase chars == toAsciiLowercase other.toList

/-- `split(';')`. -/
def pieces (mediaType : String) : List (List Char) := mediaType.toList.splitOn ';'

/-- The first piece, trimmed. -/
def essence (mediaType : String) : List Char := trim ((pieces mediaType).headD [])

/-- `split_once('=')`. -/
def splitOnceEq (chars : List Char) : Option (List Char × List Char) :=
  match chars.dropWhile (· != '=') with
  | [] => none
  | _ :: value => some (chars.takeWhile (· != '='), value)

/-- The digits of `parse` for an unsigned integer: a plus sign may come first. -/
def unsignedDigits : List Char → List Char
  | '+' :: digits => digits
  | digits => digits

/-- `parse` into an unsigned integer of a width: decimal digits only, at least one, in range. -/
def parseUnsigned (width : Nat) (chars : List Char) : Option Nat :=
  if (unsignedDigits chars).isEmpty || !(unsignedDigits chars).all Char.isDigit then none
  else Outcome.tryFrom width (Nat.ofDigitChars 10 (unsignedDigits chars) 0)

/-- `to_string` of an unsigned integer. -/
def decimal (n : Nat) : List Char := Nat.toDigits 10 n

theorem parseUnsigned_lt {width n : Nat} {chars : List Char}
    (h : parseUnsigned width chars = some n) :
    n < 2 ^ width := by
  unfold parseUnsigned at h
  split at h
  · cases h
  · obtain ⟨hlt, hn⟩ := Option.ite_none_right_eq_some.mp h
    exact Option.some.inj hn ▸ hlt

theorem isDigit_of_mem_decimal {n : Nat} {c : Char} (h : c ∈ decimal n) : c.isDigit = true :=
  Nat.isDigit_of_mem_toDigits (by decide) (by decide) h

/-- An integer that is written is read back. -/
theorem parseUnsigned_decimal {width n : Nat} (h : n < 2 ^ width) :
    parseUnsigned width (decimal n) = some n := by
  have hdigits : unsignedDigits (decimal n) = decimal n := by
    match hd : decimal n with
    | [] => rfl
    | c :: rest =>
        have hc := isDigit_of_mem_decimal (hd ▸ List.mem_cons_self : c ∈ decimal n)
        unfold unsignedDigits
        split
        · rename_i heq
          obtain ⟨rfl, -⟩ := List.cons.inj heq
          cases hc
        · rfl
  have hne : (decimal n).isEmpty = false := by
    simp [decimal]
  have hall : (decimal n).all Char.isDigit = true :=
    List.all_eq_true.mpr fun c hc => isDigit_of_mem_decimal hc
  have hvalue : Nat.ofDigitChars 10 (decimal n) 0 = n := Nat.ofDigitChars_ten_toDigits
  rw [parseUnsigned, hdigits, hne, hall, hvalue]
  exact Outcome.tryFrom_eq h

/-! ## Texts without white space -/

theorem trim_eq_self {chars : List Char} (h : ∀ c ∈ chars, isWhitespace c = false) :
    trim chars = chars := by
  have hkeep : ∀ {l : List Char}, (∀ c ∈ l, isWhitespace c = false) →
      l.dropWhile isWhitespace = l := by
    intro l hl
    cases l with
    | nil => rfl
    | cons c rest => rw [List.dropWhile_cons_of_neg (by simp [hl c List.mem_cons_self])]
  rw [trim, hkeep h, hkeep fun c hc => h c (List.mem_reverse.mp hc), List.reverse_reverse]

theorem splitOnceEq_append {name value : List Char} (h : '=' ∉ name) :
    splitOnceEq (name ++ '=' :: value) = some (name, value) := by
  have hname : ∀ c ∈ name, (c != '=') = true := by
    intro c hc
    refine bne_iff_ne.mpr ?_
    rintro rfl
    exact h hc
  have hdrop : (name ++ '=' :: value).dropWhile (· != '=') = '=' :: value := by
    rw [List.dropWhile_append_of_pos hname]
    simp
  have htake : (name ++ '=' :: value).takeWhile (· != '=') = name := by
    rw [List.takeWhile_append_of_pos hname]
    simp
  simp only [splitOnceEq, hdrop, htake]

/-- A digit is neither white space nor one of the signs between the parts. -/
theorem digit_plain {c : Char} (h : c.isDigit = true) : isWhitespace c = false ∧ c ≠ ';' ∧
    c ≠ '=' := by
  have hrange : 48 ≤ c.toNat ∧ c.toNat ≤ 57 := by
    simp only [Char.isDigit, Bool.and_eq_true, decide_eq_true_eq] at h
    exact ⟨h.1, h.2⟩
  have hall : ∀ i : Fin 58, 48 ≤ i.val →
      isWhitespace (Char.ofNat i.val) = false ∧ Char.ofNat i.val ≠ ';' ∧
        Char.ofNat i.val ≠ '=' := by decide
  have hc := hall ⟨c.toNat, by omega⟩ hrange.1
  rwa [Char.ofNat_toNat] at hc

end Waveform.Domain
