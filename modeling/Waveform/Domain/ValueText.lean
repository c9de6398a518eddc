import Mathlib.Algebra.Group.Nat.Defs
import Waveform.Domain.Media
import Mathlib.Data.List.Induction

/-!
# Values as text

`Uuid::parse_str` takes 32 hexadecimal digits, or the hyphenated form, bare, in braces or as a URN,
in either case of letters. A UUID is written in the hyphenated lower-case form, which is read back
(`parseStr?_hyphenated`). URLs and instants are read and written by libraries, of which only what
the program relies on is said (`UrlText`, `Rfc3339`).
-/

set_option autoImplicit false

namespace Waveform.Domain

/-! ## UUIDs -/

namespace Uuid

/-- The value of a hexadecimal digit. -/
def hexDigit? (c : Char) : Option Nat :=
  if '0' ≤ c ∧ c ≤ '9' then some (c.toNat - '0'.toNat)
  else if 'a' ≤ c ∧ c ≤ 'f' then some (c.toNat - 'a'.toNat + 10)
  else if 'A' ≤ c ∧ c ≤ 'F' then some (c.toNat - 'A'.toNat + 10)
  else none

/-- The number that hexadecimal digits write. -/
def ofHex (digits : List Char) : Option Nat :=
  digits.foldl
    (fun number c => number.bind fun high => (hexDigit? c).map fun low => 16 * high + low) (some 0)

/-- The digits of the hyphenated form. -/
def unhyphenated (chars : List Char) : Option (List Char) :=
  if chars.length = 36 ∧ chars[8]? = some '-' ∧ chars[13]? = some '-' ∧ chars[18]? = some '-' ∧
      chars[23]? = some '-' then
    some (chars.take 8 ++ (chars.drop 9).take 4 ++ (chars.drop 14).take 4 ++
      (chars.drop 19).take 4 ++
      chars.drop 24)
  else none

/-- `Uuid::parse_str`. -/
def parseStr? (value : String) : Option Uuid :=
  let chars := value.toList
  if chars.length = 32 then ofHex chars
  else if chars.length = 36 then (unhyphenated chars).bind ofHex
  else if chars.length = 38 ∧ chars.head? = some '\x7b' ∧ chars.getLast? = some '\x7d' then
    (unhyphenated (chars.drop 1).dropLast).bind ofHex
  else if chars.length = 45 ∧ chars.take 9 = "urn:uuid:".toList then
    (unhyphenated (chars.drop 9)).bind ofHex
  else none

theorem hexDigit?_digitChar {digit : Nat} (h : digit < 16) :
    hexDigit? (Nat.digitChar digit) = some digit := by
  have hall : ∀ digit < 16, hexDigit? (Nat.digitChar digit) = some digit := by decide
  exact hall digit h

theorem hexDigit?_lt {c : Char} {digit : Nat} (h : hexDigit? c = some digit) : digit < 16 := by
  unfold hexDigit? at h
  split at h
  · rename_i hrange
    have hle : c.toNat ≤ '9'.toNat := hrange.2
    have hnine : '9'.toNat = 57 := rfl
    have hzero : '0'.toNat = 48 := rfl
    obtain rfl := Option.some.inj h
    omega
  · split at h
    · rename_i hrange
      have hle : c.toNat ≤ 'f'.toNat := hrange.2
      have hf : 'f'.toNat = 102 := rfl
      have ha : 'a'.toNat = 97 := rfl
      obtain rfl := Option.some.inj h
      omega
    · obtain ⟨hrange, hsame⟩ := Option.ite_none_right_eq_some.mp h
      have hle : c.toNat ≤ 'F'.toNat := hrange.2
      have hf : 'F'.toNat = 70 := rfl
      have ha : 'A'.toNat = 65 := rfl
      obtain rfl := Option.some.inj hsame
      omega

theorem ofHex_append (digits : List Char) (c : Char) :
    ofHex (digits ++ [c]) =
      (ofHex digits).bind fun high => (hexDigit? c).map fun low => 16 * high + low := by
  unfold ofHex
  rw [List.foldl_append]
  rfl

/-- Digits of a width write the number modulo what the width holds. -/
theorem ofHex_fixedDigits (width number : Nat) :
    ofHex (fixedDigits 16 width number) = some (number % 16 ^ width) := by
  induction width generalizing number with
  | zero => simp [fixedDigits, ofHex, Nat.mod_one]
  | succ width ih =>
      have hdigit := hexDigit?_digitChar (Nat.mod_lt number (by decide : 16 > 0))
      have hsum : 16 * (number / 16 % 16 ^ width) + number % 16 = number % 16 ^ (width + 1) := by
        rw [Nat.pow_succ, Nat.mul_comm (16 ^ width) 16, Nat.mod_mul]
        omega
      rw [fixedDigits, ofHex_append, ih, hdigit, ← hsum]
      rfl

/-- The hyphens are where they are expected, and the digits around them. -/
theorem unhyphenated_append {first second third fourth last : List Char} (hfirst : first.length = 8)
    (hsecond : second.length = 4) (hthird : third.length = 4) (hfourth : fourth.length = 4)
    (hlast : last.length = 12) :
    unhyphenated (first ++ '-' :: second ++ '-' :: third ++ '-' :: fourth ++ '-' :: last) =
      some (first ++ second ++ third ++ fourth ++ last) := by
  unfold unhyphenated
  rw [if_pos]
  · have hdrop : ∀ {part : List Char} {count : Nat}, part.length < count → part.drop count = [] :=
      fun h => List.drop_eq_nil_of_le (Nat.le_of_lt h)
    simp (disch := omega) [List.drop_append, hdrop, hfirst, hsecond, hthird, hfourth]
  · simp [hfirst, hsecond, hthird, hfourth, hlast]

theorem unhyphenated_hyphenated (uuid : Uuid) :
    unhyphenated uuid.hyphenated = some (fixedDigits 16 32 uuid) := by
  have hlength : (fixedDigits 16 32 uuid).length = 32 := fixedDigits_length 16 32 uuid
  unfold hyphenated
  generalize fixedDigits 16 32 uuid = digits at hlength ⊢
  dsimp only
  rw [unhyphenated_append]
  · -- Consecutive parts of the digits are the digits.
    have h12 : digits.take 8 ++ (digits.drop 8).take 4 = digits.take 12 := List.take_add.symm
    have h16 : digits.take 12 ++ (digits.drop 12).take 4 = digits.take 16 := List.take_add.symm
    have h20 : digits.take 16 ++ (digits.drop 16).take 4 = digits.take 20 := List.take_add.symm
    rw [h12, h16, h20, List.take_append_drop]
  all_goals simp [hlength]

/-- Digits that are read hold in their width. -/
theorem ofHex_lt {digits : List Char} {number : Nat} (h : ofHex digits = some number) :
    number < 16 ^ digits.length := by
  induction digits using List.reverseRecOn generalizing number with
  | nil =>
      obtain rfl := Option.some.inj h
      exact Nat.one_pos
  | append_singleton digits c ih =>
      rw [ofHex_append] at h
      obtain ⟨high, hhigh, hlow⟩ := Option.bind_eq_some_iff.mp h
      obtain ⟨low, hdigit, rfl⟩ := Option.map_eq_some_iff.mp hlow
      have hhighLt := ih hhigh
      have hlowLt : low < 16 := hexDigit?_lt hdigit
      rw [List.length_append, List.length_singleton, Nat.pow_succ]
      omega

theorem length_of_unhyphenated {chars digits : List Char} (h : unhyphenated chars = some digits) :
    digits.length = 32 := by
  obtain ⟨⟨hlength, _⟩, hdigits⟩ := Option.ite_none_right_eq_some.mp h
  obtain rfl := Option.some.inj hdigits
  simp [hlength]

/-- What is read is a number of 128 bits. -/
theorem parseStr?_lt {value : String} {uuid : Uuid} (h : parseStr? value = some uuid) :
    uuid < 2 ^ 128 := by
  have hhex : ∀ {digits : List Char}, digits.length = 32 → ofHex digits = some uuid →
      uuid < 2 ^ 128 := by
    intro digits hlength hdigits
    have hlt := ofHex_lt hdigits
    rw [hlength] at hlt
    exact Nat.lt_of_lt_of_eq hlt (by decide)
  have hbind : ∀ {chars : List Char}, (unhyphenated chars).bind ofHex = some uuid →
      uuid < 2 ^ 128 := by
    intro chars hchars
    obtain ⟨digits, hdigits, hnumber⟩ := Option.bind_eq_some_iff.mp hchars
    exact hhex (length_of_unhyphenated hdigits) hnumber
  unfold parseStr? at h
  dsimp only at h
  split at h
  · rename_i hlength
    exact hhex hlength h
  · split at h
    · exact hbind h
    · split at h
      · exact hbind h
      · split at h
        · exact hbind h
        · cases h

/-- **A UUID is read back from what it is written as.** -/
theorem parseStr?_hyphenated {uuid : Uuid} (h : uuid < 2 ^ 128) :
    parseStr? (String.ofList uuid.hyphenated) = some uuid := by
  have hlength : uuid.hyphenated.length = 36 := by
    simp [hyphenated]
  have hnumber : ofHex (fixedDigits 16 32 uuid) = some uuid := by
    rw [ofHex_fixedDigits, Nat.mod_eq_of_lt (Nat.lt_of_lt_of_eq h (by decide))]
  unfold parseStr?
  rw [String.toList_ofList]
  simp [hlength, unhyphenated_hyphenated, hnumber]

end Uuid

/-! ## URLs -/

/-- How URLs are read and written. A URL that was read is read again from what it is written as. -/
structure UrlText where
  parse : String → Option Url
  asStr : Url → String
  parse_asStr : ∀ text url, parse text = some url → parse (asStr url) = some url

/-! ## Instants

Instants count from the earliest `OffsetDateTime`, the start of the year -9999. -/

/-- Seconds up to 1970. -/
def unixEpoch : Nat := 377705116800

/-- Seconds up to the year 0. -/
def yearZero : Nat := 315537897600

/-- Seconds up to the year 10000, at which the instants of the type end. -/
def yearTenThousand : Nat := 631107417600

/-- How instants are written as RFC 3339, in UTC: the years from 0 to 9999 are, and all digits of
the fraction. -/
structure Rfc3339 where
  format : Nat → Option String
  defined : ∀ instant, yearZero * microsPerSecond ≤ instant →
    instant < yearTenThousand * microsPerSecond → (format instant).isSome = true
  distinct : ∀ instant other text, format instant = some text → format other = some text →
    instant = other

end Waveform.Domain
