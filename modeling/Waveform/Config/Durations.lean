import Mathlib.Algebra.Group.Nat.Defs
import Mathlib.Order.Lattice
import Waveform.Domain.MediaTypeText
import Waveform.Library.Outcome

/-!
# Durations of the environment

A duration is read from an environment variable as whole seconds within a range, with a default for
a variable that is not set or blank. The sums of the deadline checks saturate.

- `parseU64_decimal`: a number that is written is read back.
- `durationSeconds_unset`, `durationSeconds_ok`: the default, and the range.
-/

set_option autoImplicit false

namespace Waveform.Config

open Domain (trim unsignedDigits decimal isDigit_of_mem_decimal)

/-! ## Durations -/

/-- The nanoseconds of `Duration::MAX`. -/
def maxNanos : Nat := (2 ^ 64 - 1) * 10 ^ 9 + 999999999

/-- `std::time::Duration`, in nanoseconds. -/
@[ext] structure Duration where
  nanos : Nat
  bounded : nanos ≤ maxNanos
  deriving DecidableEq

namespace Duration

instance : LinearOrder Duration := LinearOrder.lift' Duration.nanos fun _ _ h => Duration.ext h

theorem le_iff {a b : Duration} : a ≤ b ↔ a.nanos ≤ b.nanos := Iff.rfl

@[simp] theorem nanos_max (a b : Duration) : (max a b).nanos = max a.nanos b.nanos := by
  rcases le_total a b with h | h
  · rw [max_eq_right h, max_eq_right (le_iff.mp h)]
  · rw [max_eq_left h, max_eq_left (le_iff.mp h)]

/-- `Duration::from_secs`. -/
def fromSecs (seconds : UInt64) : Duration where
  nanos := seconds.toNat * 10 ^ 9
  bounded := by
    have hlt := seconds.toNat_lt
    unfold maxNanos
    omega

theorem fromSecs_le {a b : UInt64} (h : a ≤ b) : fromSecs a ≤ fromSecs b :=
  Nat.mul_le_mul_right _ (UInt64.le_iff_toNat_le.mp h)

/-- `saturating_add`. -/
def saturatingAdd (a b : Duration) : Duration :=
  ⟨min (a.nanos + b.nanos) maxNanos, Nat.min_le_right _ _⟩

/-- `saturating_mul`. -/
def saturatingMul (a : Duration) (n : Nat) : Duration :=
  ⟨min (a.nanos * n) maxNanos, Nat.min_le_right _ _⟩

end Duration

/-! ## Variables -/

/-- `SettingsError`. -/
inductive SettingsError where
  | missing (name : String)
  | nonUnicode (name : String)
  | invalid (name : String) (reason : String)
  deriving DecidableEq

/-- `EnvironmentSource`. -/
structure EnvironmentSource where
  read : String → Except SettingsError (Option String)

/-- `optional`. -/
def optional (source : EnvironmentSource) (name : String) :
    Except SettingsError (Option (List Char)) := do
  let value ← source.read name
  return (value.map fun value => trim value.toList).filter fun value => !value.isEmpty

/-- `value_or`. -/
def valueOr (source : EnvironmentSource) (name : String) (default : List Char) :
    Except SettingsError (List Char) := do
  return (← optional source name).getD default

/-- The errors of `parse::<u64>`. -/
inductive ParseIntError where
  | empty
  | invalidDigit
  | posOverflow
  deriving DecidableEq

/-- Their texts. -/
def ParseIntError.text : ParseIntError → String
  | .empty => "cannot parse integer from empty string"
  | .invalidDigit => "invalid digit found in string"
  | .posOverflow => "number too large to fit in target type"

/-- The loop of `parse`. A character that is no digit is noticed before an overflow there. -/
def parseDigits : UInt64 → List Char → Except ParseIntError UInt64
  | value, [] => .ok value
  | value, c :: rest =>
      if c.isDigit then
        if h : 10 * value.toNat + (c.toNat - '0'.toNat) < 2 ^ 64 then
          parseDigits (UInt64.ofNatLT (10 * value.toNat + (c.toNat - '0'.toNat)) h) rest
        else .error .posOverflow
      else .error .invalidDigit

/-- `parse::<u64>`. -/
def parseU64 : List Char → Except ParseIntError UInt64
  | [] => .error .empty
  | ['+'] => .error .invalidDigit
  | text => parseDigits 0 (unsignedDigits text)

/-- `parse_or`, at `u64`. -/
def parseOr (source : EnvironmentSource) (name : String) (default : List Char) :
    Except SettingsError UInt64 := do
  let value ← valueOr source name default
  (parseU64 value).mapError fun error => .invalid name error.text

/-- `validate_range`. -/
def validateRange (name : String) (value minimum maximum : UInt64) : Except SettingsError UInt64 :=
  if value < minimum ∨ maximum < value then
    .error (.invalid name s!"must be between {minimum} and {maximum}")
  else .ok value

/-- `u64_in_range`. -/
def u64InRange (source : EnvironmentSource) (name : String) (default minimum maximum : UInt64) :
    Except SettingsError UInt64 := do
  let value ← parseOr source name (decimal default.toNat)
  validateRange name value minimum maximum

/-- `duration_seconds`. -/
def durationSeconds (source : EnvironmentSource) (name : String)
    (default minimum maximum : UInt64) :
    Except SettingsError Duration := do
  return .fromSecs (← u64InRange source name default minimum maximum)

/-! ## Numbers that are written -/

/-- Reading digits never makes a number smaller. -/
theorem le_ofDigitChars (digits : List Char) (value : Nat) :
    value ≤ Nat.ofDigitChars 10 digits value := by
  induction digits generalizing value with
  | nil => exact Nat.le_refl value
  | cons c rest ih =>
      rw [Nat.ofDigitChars_cons]
      refine le_trans ?_ (ih _)
      omega

/-- Digits of a number in range are read as that number: no part of it is out of range. -/
theorem parseDigits_ok {value : UInt64} {digits : List Char}
    (hdigits : ∀ c ∈ digits, c.isDigit = true)
    (hlt : Nat.ofDigitChars 10 digits value.toNat < 2 ^ 64) :
    parseDigits value digits =
      .ok (UInt64.ofNatLT (Nat.ofDigitChars 10 digits value.toNat) hlt) := by
  induction digits generalizing value with
  | nil =>
      simp only [parseDigits, Nat.ofDigitChars_nil, UInt64.ofNatLT_toNat]
  | cons c rest ih =>
      obtain ⟨hc, hrest⟩ := List.forall_mem_cons.mp hdigits
      have hnext : 10 * value.toNat + (c.toNat - '0'.toNat) < 2 ^ 64 := by
        rw [Nat.ofDigitChars_cons] at hlt
        exact (le_ofDigitChars rest _).trans_lt hlt
      rw [parseDigits, if_pos hc, dif_pos hnext, ih hrest]
      · simp only [Nat.ofDigitChars_cons, UInt64.toNat_ofNatLT]
      · rw [UInt64.toNat_ofNatLT, ← Nat.ofDigitChars_cons]
        exact hlt

/-- The digits of a number are all there is to read of it. -/
theorem parseU64_of_digits {digits : List Char} (hne : digits ≠ [])
    (hdigits : ∀ c ∈ digits, c.isDigit = true) : parseU64 digits = parseDigits 0 digits := by
  match digits, hne with
  | c :: rest, _ =>
      have hc : c ≠ '+' := by
        rintro rfl
        cases hdigits '+' List.mem_cons_self
      unfold parseU64
      split
      · contradiction
      · rename_i heq
        exact absurd (List.cons.inj heq).1 hc
      · unfold unsignedDigits
        split
        · rename_i heq
          exact absurd (List.cons.inj heq).1 hc
        · rfl

/-- A number that is written is read back. -/
theorem parseU64_decimal (n : UInt64) : parseU64 (decimal n.toNat) = .ok n := by
  have hdigits : ∀ c ∈ decimal n.toNat, c.isDigit = true := fun c => isDigit_of_mem_decimal
  have hvalue : Nat.ofDigitChars 10 (decimal n.toNat) (0 : UInt64).toNat = n.toNat :=
    Nat.ofDigitChars_ten_toDigits
  have hlt : Nat.ofDigitChars 10 (decimal n.toNat) (0 : UInt64).toNat < 2 ^ 64 :=
    hvalue.trans_lt n.toNat_lt
  rw [parseU64_of_digits (by simp [decimal]) hdigits, parseDigits_ok hdigits hlt]
  congr 1
  apply UInt64.toNat_inj.mp
  rw [UInt64.toNat_ofNatLT, hvalue]

/-! ## What is read -/

section Read

variable {source : EnvironmentSource} {name : String} {default minimum maximum : UInt64}

/-- A variable that is not set has its default, when that is in range. -/
theorem durationSeconds_unset (hunset : source.read name = .ok none) (hmin : minimum ≤ default)
    (hmax : default ≤ maximum) :
    durationSeconds source name default minimum maximum = .ok (.fromSecs default) := by
  have hvalue : parseOr source name (decimal default.toNat) = .ok default := by
    simp only [parseOr, valueOr, optional, hunset]
    show (parseU64 (decimal default.toNat)).mapError _ = _
    rw [parseU64_decimal]
    rfl
  have hrange : validateRange name default minimum maximum = .ok default :=
    if_neg (not_or.mpr ⟨UInt64.not_lt.mpr hmin, UInt64.not_lt.mpr hmax⟩)
  simp only [durationSeconds, u64InRange, hvalue]
  show (Duration.fromSecs <$> validateRange name default minimum maximum) = _
  rw [hrange]
  rfl

/-- A duration that is read is in range. -/
theorem durationSeconds_ok {duration : Duration}
    (h : durationSeconds source name default minimum maximum = .ok duration) :
    .fromSecs minimum ≤ duration ∧ duration ≤ .fromSecs maximum := by
  obtain ⟨seconds, hseconds, hduration⟩ := Except.bind_eq_ok.mp h
  obtain ⟨value, _, hrange⟩ := Except.bind_eq_ok.mp hseconds
  cases hduration
  unfold validateRange at hrange
  split at hrange
  · cases hrange
  · rename_i hin
    cases hrange
    obtain ⟨hmin, hmax⟩ := not_or.mp hin
    exact ⟨Duration.fromSecs_le (UInt64.not_lt.mp hmin),
      Duration.fromSecs_le (UInt64.not_lt.mp hmax)⟩

end Read

end Waveform.Config
