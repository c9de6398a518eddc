import Waveform.Domain.Bytes

/-!
# native.env

How the deployment scripts read the service's environment file, and what they write in its place. A
value is read from the text of the file, whose lines end at every line boundary of `str.splitlines`;
the file is rewritten by its bytes, whose lines end at `\n`, `\r` and `\r\n` alone. A line of bytes
may so hold several lines of text.

- `envValue_ok_iff`: a key is read unless the file is no UTF-8 or names it twice.
- `linesOfBytes_flatten`, `afterLineFeeds_flatten`: the lines of bytes are the file.
- `substituteLimit_of_forall`: without the body limit the file keeps every byte.
-/

set_option autoImplicit false

namespace Waveform.Deploy

open Waveform.Domain

/-- What the helpers raise: `RuntimeError` with its message, the error of `bytes.decode`, or what
the operating system, a program or a service made of a call. -/
inductive Failure where
  | runtime (message : String)
  | unicodeDecode
  | external
  deriving DecidableEq, Repr

/-- `require` of `upgrade.py`. -/
def require (condition : Bool) (message : String) : Except Failure Unit :=
  if condition then .ok () else .error (.runtime message)

theorem require_ok_iff {condition : Bool} {message : String} {result : Unit} :
    require condition message = .ok result ↔ condition = true := by
  unfold require
  cases condition <;> simp

/-! ## Text -/

/-- `bytes.decode("utf-8")`. -/
def decode (content : List UInt8) : Option (List Char) :=
  content.toByteArray.utf8Decode?.map Array.toList

/-- The characters that end a line of a `str`, `\r\n` apart. -/
def lineBoundaries : List Nat := [0x0a, 0x0b, 0x0c, 0x0d, 0x1c, 0x1d, 0x1e, 0x85, 0x2028, 0x2029]

/-- The characters `str.strip` removes. -/
def whitespace : List Nat :=
  [0x09, 0x0a, 0x0b, 0x0c, 0x0d, 0x1c, 0x1d, 0x1e, 0x1f, 0x20, 0x85, 0xa0, 0x1680, 0x2000, 0x2001,
    0x2002, 0x2003,
    0x2004, 0x2005, 0x2006, 0x2007, 0x2008, 0x2009, 0x200a, 0x2028, 0x2029, 0x202f, 0x205f, 0x3000]

/-- `str.splitlines`, with the line read so far, reversed. -/
def splitlinesFrom (line : List Char) : List Char → List (List Char)
  | [] => if line.isEmpty then [] else [line.reverse]
  | '\r' :: '\n' :: rest => line.reverse :: splitlinesFrom [] rest
  | c :: rest =>
      if lineBoundaries.contains c.toNat then line.reverse :: splitlinesFrom [] rest
      else splitlinesFrom (c :: line) rest

/-- `str.splitlines()`. -/
def splitlines (text : List Char) : List (List Char) := splitlinesFrom [] text

/-- `str.strip()`. -/
def strip (text : List Char) : List Char :=
  let blank := fun c : Char => whitespace.contains c.toNat
  ((text.dropWhile blank).reverse.dropWhile blank).reverse

/-- A value between two equal quotes is what they enclose. -/
def unquoted (value : List Char) : List Char :=
  if 2 ≤ value.length ∧ value.head? = value.getLast? ∧
    value.head?.any ("\"'".toList.contains ·) = true then
    (value.drop 1).dropLast
  else value

/-- The value a line of text gives a key. -/
def lineValue (key : String) (line : List Char) : Option (List Char) :=
  if (key ++ "=").toList.isPrefixOf line then
    some (unquoted (strip ((line.dropWhile (· ≠ '=')).drop 1)))
  else none

/-- The values of a key, in the order of their lines. -/
def lineValues (key : String) (text : List Char) : List (List Char) :=
  (splitlines text).filterMap (lineValue key)

/-- `env_value`. -/
def envValue (content : List UInt8) (key : String) : Except Failure (Option (List Char)) := do
  let text ← match decode content with
    | some text => .ok text
    | none => .error .unicodeDecode
  let values := lineValues key text
  require (decide (values.length ≤ 1)) ("Duplicate " ++ key ++ " in native.env")
  pure values.head?

/-- **A key is read unless the file is no UTF-8 or names it twice.** -/
theorem envValue_ok_iff {content : List UInt8} {key : String} {value : Option (List Char)} :
    envValue content key = .ok value ↔
      ∃ text, decode content = some text ∧ (lineValues key text).length ≤ 1 ∧
        value = (lineValues key text).head? := by
  unfold envValue
  cases hdecode : decode content with
  | none => simp [bind, Except.bind]
  | some text =>
      by_cases hlength : (lineValues key text).length ≤ 1
      · simp [bind, Except.bind, pure, Except.pure, require, hlength, eq_comm]
      · simp [bind, Except.bind, require, hlength]

/-- A value Python takes for true: neither `None` nor empty. -/
def truthy : Option (List Char) → Bool
  | some (_ :: _) => true
  | _ => false

/-- `value or default`. -/
def valueOr (value : Option (List Char)) (default : String) : List Char :=
  match value with
  | some (c :: rest) => c :: rest
  | _ => default.toList

/-! ## Lines of bytes -/

/-- `bytes.splitlines(keepends=True)`, with the line read so far, reversed. -/
def linesOfBytesFrom (line : List UInt8) : List UInt8 → List (List UInt8)
  | [] => if line.isEmpty then [] else [line.reverse]
  | [b] => [(b :: line).reverse]
  | b :: b' :: rest =>
      if b = 0x0d ∧ b' = 0x0a then (b' :: b :: line).reverse :: linesOfBytesFrom [] rest
      else if b = 0x0a ∨ b = 0x0d then (b :: line).reverse :: linesOfBytesFrom [] (b' :: rest)
      else linesOfBytesFrom (b :: line) (b' :: rest)

/-- `bytes.splitlines(keepends=True)`. -/
def linesOfBytes (content : List UInt8) : List (List UInt8) := linesOfBytesFrom [] content

/-- The lines at whose starts `(?m)^` matches, each with its `\n`, with the line read so far,
reversed. -/
def afterLineFeedsFrom (line : List UInt8) : List UInt8 → List (List UInt8)
  | [] => [line.reverse]
  | b :: rest =>
      if b = 0x0a then (b :: line).reverse :: afterLineFeedsFrom [] rest
      else afterLineFeedsFrom (b :: line) rest

/-- The lines at whose starts `(?m)^` matches. -/
def afterLineFeeds (content : List UInt8) : List (List UInt8) := afterLineFeedsFrom [] content

theorem afterLineFeeds_flatten (content : List UInt8) :
    (afterLineFeeds content).flatten = content := by
  have hfrom : ∀ line, (afterLineFeedsFrom line content).flatten = line.reverse ++ content := by
    induction content with
    | nil => simp [afterLineFeedsFrom]
    | cons b rest ih =>
        intro line
        by_cases hfeed : b = 0x0a
        · simp [afterLineFeedsFrom, hfeed, ih]
        · simp [afterLineFeedsFrom, hfeed, ih]
  exact hfrom []

/-! ## The body limit -/

def BODY_LIMIT : String := "WAVEFORM_JSON_BODY_LIMIT_BYTES"

/-- One match of the substitution: the value up to the end of the line. -/
def limitLine (line : List UInt8) : List UInt8 :=
  let key := utf8 (BODY_LIMIT ++ "=")
  if key.isPrefixOf line then
    utf8 (BODY_LIMIT ++ "=327680") ++ (line.drop key.length).dropWhile fun b => b ≠ 0x0d ∧ b ≠ 0x0a
  else line

/-- `re.sub` of `upgrade_env`. -/
def substituteLimit (content : List UInt8) : List UInt8 :=
  (afterLineFeeds content).flatMap limitLine

/-- Without the body limit the file keeps every byte. -/
theorem substituteLimit_of_forall {content : List UInt8}
    (h : ∀ line ∈ afterLineFeeds content, (utf8 (BODY_LIMIT ++ "=")).isPrefixOf line = false) :
    substituteLimit content = content := by
  have hkept : ∀ line ∈ afterLineFeeds content, limitLine line = line := by
    intro line hline
    simp only [limitLine, h line hline, Bool.false_eq_true, if_false]
  unfold substituteLimit
  rw [List.flatMap_def, List.map_congr_left hkept, List.map_id', afterLineFeeds_flatten]

/-- `upgrade_env`. -/
def upgradeEnv (content : List UInt8) : Except Failure (List UInt8) := do
  let limit ← envValue content BODY_LIMIT
  if limit ≠ some "65536".toList then pure content else pure (substituteLimit content)

/-! ## The settings of sign-in -/

def APP_ID : String := "waveform"

def DEFAULT_ACCOUNTS_URL : String := "https://accounts.teamofsilicons.com"

/-- Settings of the earlier sign-in and distribution systems. -/
def RETIRED_KEYS : List String := [
  "WAVEFORM_IAM_BASE_URL", "WAVEFORM_IAM_APP_ID", "WAVEFORM_IAM_APP_SECRET",
  "WAVEFORM_IAM_TOKEN_INTROSPECTION_PATH", "WAVEFORM_IAM_OBO_VERIFY_PATH", "WAVEFORM_IAM_AUDIENCE",
  "WAVEFORM_IAM_TTS_ACTION", "WAVEFORM_IAM_STT_ACTION", "WAVEFORM_IAM_TIMEOUT_SECONDS",
  "WAVEFORM_WEBHOOK_SIGNING_SECRET", "WAVEFORM_WEBHOOK_KEY_VERSION", "WAVEFORM_WEBHOOK_PUBLIC_URL",
  "WAVEFORM_HONEYCOMB_SERVICE_TOKEN", "SILICON_IAM_CLIENT_AUTO_UPDATE",
  "WAVEFORM_BRIEFCASE_CDN_ORIGIN",
  "WAVEFORM_BRIEFCASE_AUDIENCE", "BRIEFCASE_CLIENT_AUTO_UPDATE"]

/-- The retired keys of a list that the file sets, in the order of the list. -/
def retiredIn (content : List UInt8) : List String → Except Failure (List String)
  | [] => pure []
  | key :: keys => do
      let value ← envValue content key
      let rest ← retiredIn content keys
      pure (if value.isSome then key :: rest else rest)

/-- `accounts_identity`. -/
def accountsIdentity (content : List UInt8) : Except Failure Unit := do
  let retired ← retiredIn content RETIRED_KEYS
  require retired.isEmpty ("native.env still has settings of the earlier sign-in system (" ++
    ", ".intercalate retired ++
      "); run deploy/native/accounts_cutover.py once instead of upgrade.py")
  let appId ← envValue content "WAVEFORM_APP_ID"
  require (valueOr appId APP_ID == APP_ID.toList) "native.env names another app than waveform"
  let secret ← envValue content "WAVEFORM_APP_SECRET"
  require (truthy secret) "native.env has no WAVEFORM_APP_SECRET"

/-- `earlier_env`. -/
def earlierEnv (content : List UInt8) : Except Failure Unit := do
  let appId ← envValue content "WAVEFORM_IAM_APP_ID"
  require (appId == some APP_ID.toList)
    ("native.env is not the earlier sign-in configuration (no " ++
    "WAVEFORM_IAM_APP_ID=waveform); if the cutover already ran, deploy later releases with upgrade.py")

/-! ## The cutover's file -/

def DEFAULTS : List (String × String) :=
  [("ACCOUNTS_URL", DEFAULT_ACCOUNTS_URL), ("WAVEFORM_BRIEFCASE_APP_ID", "briefcase")]

/-- `dict.update` with one setting: a key keeps its place. -/
def setting (wanted : List (String × String)) (entry : String × String) : List (String × String) :=
  if wanted.any (·.1 = entry.1) then wanted.map fun old => if old.1 = entry.1 then entry else old
  else wanted ++ [entry]

def upperOrUnderscore (b : UInt8) : Bool := (0x41 ≤ b && b ≤ 0x5a) || b == 0x5f

/-- `KEY_LINE`: an upper-case letter, then letters, digits and underscores, up to `=`. -/
def keyOfLine (line : List UInt8) : Option (List UInt8) :=
  let key := line.takeWhile fun b => upperOrUnderscore b || (0x30 ≤ b && b ≤ 0x39)
  if key.head?.any (fun b => 0x41 ≤ b && b ≤ 0x5a) = true ∧ (line.drop key.length).head? = some 0x3d
    then some key
  else none

/-- The line ending of a line, or the file's. -/
def lineEnding (newline line : List UInt8) : List UInt8 :=
  let ending := (line.reverse.takeWhile fun b => b = 0x0d ∨ b = 0x0a).reverse
  if ending.isEmpty then newline else ending

/-- The loop of `cutover_env`: the wanted keys seen, and the lines of the new file. -/
def cutoverLines (newline : List UInt8) (wanted : List (String × String)) :
    List (List UInt8) → List String → Except Failure (List String × List (List UInt8))
  | [], seen => pure (seen, [])
  | line :: rest, seen =>
      let key := keyOfLine line
      if RETIRED_KEYS.any fun retired => key = some (utf8 retired)
        then cutoverLines newline wanted rest seen
      else match wanted.find? fun entry => key = some (utf8 entry.1) with
        | some entry => do
            require (!seen.contains entry.1) ("native.env sets " ++ entry.1 ++ " twice")
            let (seen', lines) ← cutoverLines newline wanted rest (entry.1 :: seen)
            pure (seen', (utf8 (entry.1 ++ "=" ++ entry.2) ++ lineEnding newline line) :: lines)
        | none => do
            let (seen', lines) ← cutoverLines newline wanted rest seen
            pure (seen', line :: lines)

/-- The last line gets the newline it lacks. -/
def closeLast (newline : List UInt8) : List (List UInt8) → List (List UInt8)
  | [] => []
  | [line] => [if line.getLast? = some 0x0a then line else line ++ newline]
  | line :: lines => line :: closeLast newline lines

/-- The two settings the new file must have besides the secret. -/
def cutoverKeys : List String := ["WAVEFORM_ACCOUNTS_WEBHOOK_SECRET", "WAVEFORM_ENCRYPTION_KEY"]

/-- `cutover_env`. -/
def cutoverEnv (old : List UInt8) (accounts : List (String × String)) :
    Except Failure (List UInt8) := do
  let newline : List UInt8 :=
    if old.tails.any ([0x0d, 0x0a].isPrefixOf ·) then [0x0d, 0x0a] else [0x0a]
  let wanted := accounts.foldl setting DEFAULTS
  let (seen, lines) ← cutoverLines newline wanted (linesOfBytes old) []
  let added := (wanted.filter fun entry => !seen.contains entry.1).map fun entry =>
    utf8 (entry.1 ++ "=" ++ entry.2) ++ newline
  let content ← upgradeEnv ((closeLast newline lines ++ added).flatten)
  accountsIdentity content
  cutoverKeys.forM fun key => do
    let value ← envValue content key
    require (truthy value) ("the new native.env would have no " ++ key)
  pure content

end Waveform.Deploy
