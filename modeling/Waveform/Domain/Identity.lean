import Mathlib.Order.Basic

/-!
# Identities and instants

The identifiers that key Waveform's tables: the private storage key of an account (`ActorId`), the
request id a client may send as `X-Request-ID` (`RequestId`), and the app that called for an
account (`ApplicationId`). The source builds `ActorId`, `RequestId` and `IdempotencyLeaseId` only
from UUIDs that are not nil, so each carries that fact.

Instants are PostgreSQL `timestamptz` values counted in microseconds, and durations are counted in
the same unit, so that `now + interval` is addition.
-/

set_option autoImplicit false

namespace Waveform.Domain

/-- A UUID as a number; only equality and the nil value matter to the program. -/
abbrev Uuid := Nat

/-- The nil UUID, which is also the production plane. -/
def Uuid.nil : Uuid := 0

theorem Uuid.one_ne_nil : (1 : Uuid) ≠ Uuid.nil := by decide

theorem Uuid.two_ne_nil : (2 : Uuid) ≠ Uuid.nil := by decide

theorem Uuid.five_ne_nil : (5 : Uuid) ≠ Uuid.nil := by decide

theorem Uuid.six_ne_nil : (6 : Uuid) ≠ Uuid.nil := by decide

theorem Uuid.seven_ne_nil : (7 : Uuid) ≠ Uuid.nil := by decide

/-- Microseconds in a second. -/
def microsPerSecond : Nat := 1000000

/-- Kind of account that may perform a speech operation. -/
inductive ActorKind where
  | carbon
  | silicon
  deriving DecidableEq, Repr

namespace ActorKind

/-- Stable storage and wire label. -/
def asStr : ActorKind → String
  | carbon => "carbon"
  | silicon => "silicon"

end ActorKind

/-- Private, stable storage key of an account. -/
structure ActorId where
  asUuid : Uuid
  nonNil : asUuid ≠ Uuid.nil
  deriving DecidableEq

/-- Account kind plus private storage key. -/
structure Actor where
  kind : ActorKind
  id : ActorId
  deriving DecidableEq

/-- Correlation identifier of one request, chosen by the client or generated. -/
structure RequestId where
  asUuid : Uuid
  nonNil : asUuid ≠ Uuid.nil
  deriving DecidableEq

/-- Opaque ownership token of an idempotency lease. -/
structure IdempotencyLeaseId where
  asUuid : Uuid
  nonNil : asUuid ≠ Uuid.nil
  deriving DecidableEq

/-! ## Accounts -/

/-- A hexadecimal digit as UUIDs are printed. -/
def lowerHexDigit (c : Char) : Bool := c.isDigit || decide ('a' ≤ c ∧ c ≤ 'f')

/-- The hyphenated lower-case form of a UUID, the only one that `Uuid::to_string` gives back. -/
def hyphenatedUuid (value : List Char) : Bool :=
  decide (value.length = 36) && value.zipIdx.all fun (c, i) =>
    if i ∈ [8, 13, 18, 23] then c = '-' else lowerHexDigit c

/-- What `AccountUuid::from_str` accepts. -/
def accountUuidValid (value : String) : Bool :=
  decide (1 ≤ value.utf8ByteSize ∧ value.utf8ByteSize ≤ 64) &&
    (value.toList.all Char.isAlphanum || hyphenatedUuid value.toList)

/-- Permanent Silicon Accounts identifier, compared exactly. -/
structure AccountUuid where
  asStr : String
  valid : accountUuidValid asStr = true
  deriving DecidableEq

/-- `AccountUuid::from_str`. -/
def AccountUuid.fromStr? (value : String) : Option AccountUuid :=
  if h : accountUuidValid value = true then some ⟨value, h⟩ else none

@[simp] theorem AccountUuid.fromStr?_asStr (uuid : AccountUuid) :
    AccountUuid.fromStr? uuid.asStr = some uuid := by
  simp [AccountUuid.fromStr?, uuid.valid]

/-- The handle of a public id: 1 to 64 of the lower-case letters, digits, `_` and `-`. -/
def publicIdHandle (handle : List Char) : Bool :=
  decide (1 ≤ handle.length ∧ handle.length ≤ 64) &&
    handle.all fun c => c.isLower || c.isDigit || c = '_' || c = '-'

/-- The account kind named by a public id prefix, when the value is a well-formed public id. -/
def publicIdKind (value : String) : Option ActorKind :=
  match value.toList with
  | 'c' :: ':' :: handle => if publicIdHandle handle then some .carbon else none
  | 's' :: 'i' :: ':' :: handle => if publicIdHandle handle then some .silicon else none
  | _ => none

/-- A well-formed public id has between 3 and 67 characters. -/
theorem publicIdKind_length {value : String} {kind : ActorKind}
    (h : publicIdKind value = some kind) : 3 ≤ value.length ∧ value.length ≤ 67 := by
  rw [← String.length_toList]
  unfold publicIdKind at h
  split at h
  all_goals
    first
      | contradiction
      | rename_i handle heq
        obtain ⟨hhandle, _⟩ := Option.ite_none_right_eq_some.mp h
        have hlength : 1 ≤ handle.length ∧ handle.length ≤ 64 :=
          of_decide_eq_true (Bool.and_eq_true_iff.mp hhandle).1
        rw [heq]
        simp only [List.length_cons]
        omega

/-- The characters of a public id. -/
def publicIdChar (c : Char) : Bool := c = ':' || c.isLower || c.isDigit || c = '_' || c = '-'

/-- A well-formed public id is made of them. -/
theorem publicIdKind_chars {value : String} {kind : ActorKind}
    (h : publicIdKind value = some kind) :
    ∀ c ∈ value.toList, publicIdChar c = true := by
  have hhandle : ∀ handle : List Char, publicIdHandle handle = true →
      ∀ c ∈ handle, publicIdChar c = true := by
    intro handle hvalid c hc
    have hall := List.all_eq_true.mp (Bool.and_eq_true_iff.mp hvalid).2 c hc
    unfold publicIdChar
    simp only [Bool.or_assoc, Bool.or_eq_true] at hall ⊢
    exact .inr hall
  unfold publicIdKind at h
  split at h
  · next handle heq =>
      obtain ⟨hvalid, _⟩ := Option.ite_none_right_eq_some.mp h
      rw [heq]
      simp only [List.mem_cons, forall_eq_or_imp]
      exact ⟨by decide, by decide, hhandle handle hvalid⟩
  · next handle heq =>
      obtain ⟨hvalid, _⟩ := Option.ite_none_right_eq_some.mp h
      rw [heq]
      simp only [List.mem_cons, forall_eq_or_imp]
      exact ⟨by decide, by decide, by decide, hhandle handle hvalid⟩
  · contradiction

/-! ## Applications and requests -/

/-- The id of an application. -/
structure ApplicationId where
  value : String
  deriving DecidableEq

/-- `RequestId::new`: the nil UUID is refused. -/
def RequestId.new? (value : Uuid) : Option RequestId :=
  if h : value = Uuid.nil then none else some ⟨value, h⟩

@[simp] theorem RequestId.new?_asUuid (requestId : RequestId) :
    RequestId.new? requestId.asUuid = some requestId := by
  simp [RequestId.new?, requestId.nonNil]

end Waveform.Domain
