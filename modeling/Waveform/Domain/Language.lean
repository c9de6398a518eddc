import Mathlib.Data.String.Basic
import Mathlib.Data.List.Basic
import Waveform.Domain.Speech
import Waveform.Domain.TtsOptions

/-!
# Language hints

BCP 47 tags as `canonicalize` reads them. The source walks an index over the subtags; here each
stage takes what it accepts from the front of the subtags that are left, and puts the canonical
spelling behind what it was given.

- `canonicalize_clean`: an accepted tag is spelled with letters, digits and hyphens only.
-/

set_option autoImplicit false

namespace Waveform.Domain

/-- `MAX_LANGUAGE_TAG_LENGTH`. -/
def maxLanguageTagLength : Nat := 64

/-- Language-hint validation failure. -/
inductive LanguageHintError where
  | empty
  | tooLong
  | nonAscii
  | invalidSyntax
  deriving DecidableEq, Repr

/-- A subtag, as its characters. -/
abbrev Subtag := List Char

namespace Subtag

/-- `to_ascii_lowercase`. -/
def lower (subtag : Subtag) : Subtag := subtag.map Char.toLower

/-- `to_ascii_uppercase`. -/
def upper (subtag : Subtag) : Subtag := subtag.map Char.toUpper

/-- The first character in upper case, the others in lower case. -/
def titled (subtag : Subtag) : Subtag :=
  match subtag.lower with
  | first :: rest => first.toUpper :: rest
  | [] => []

/-- `is_alpha`. -/
def isAlpha (subtag : Subtag) : Bool := subtag.all Char.isAlpha

/-- `is_region`. -/
def isRegion (subtag : Subtag) : Bool :=
  (subtag.length == 2 && subtag.isAlpha) || (subtag.length == 3 && subtag.all Char.isDigit)

/-- A subtag has 1 to 8 letters and digits. -/
def wellFormed (subtag : Subtag) : Bool :=
  !subtag.isEmpty && decide (subtag.length ≤ 8) && subtag.all Char.isAlphanum

/-- `is_variant`. -/
def isVariant (subtag : Subtag) : Bool :=
  (decide (5 ≤ subtag.length) && decide (subtag.length ≤ 8)) ||
    (subtag.length == 4 && subtag.head?.any Char.isDigit)

/-- `eq_ignore_ascii_case("x")`. -/
def isX (subtag : Subtag) : Bool := subtag.lower == ['x']

end Subtag

/-- Canonical subtags read so far, and the subtags that are left. -/
abbrev TagState := List Subtag × List Subtag

/-- The loop over the extended language subtags, three at most. -/
def takeExtlangs : Nat → TagState → TagState
  | count + 1, (canonical, subtag :: rest) =>
      if subtag.length == 3 && subtag.isAlpha then
        takeExtlangs count (canonical ++ [subtag.lower], rest)
      else (canonical, subtag :: rest)
  | _, state => state

/-- The script subtag. -/
def takeScript : TagState → TagState
  | (canonical, subtag :: rest) =>
      if subtag.length == 4 && subtag.isAlpha then (canonical ++ [subtag.titled], rest)
      else (canonical, subtag :: rest)
  | state => state

/-- The region subtag. -/
def takeRegion : TagState → TagState
  | (canonical, subtag :: rest) =>
      if subtag.isRegion then (canonical ++ [subtag.upper], rest) else (canonical, subtag :: rest)
  | state => state

/-- The loop over the variants; none may repeat. -/
def takeVariants (seen : List Subtag) (canonical : List Subtag) :
    List Subtag → Option TagState
  | [] => some (canonical, [])
  | subtag :: rest =>
      if subtag.isVariant then
        if seen.contains subtag.lower then none
        else takeVariants (subtag.lower :: seen) (canonical ++ [subtag.lower]) rest
      else some (canonical, subtag :: rest)

/-- Where the loops over the extensions are: before a singleton, right behind one, or behind a
subtag of an extension. -/
inductive ExtensionPart where
  | outside
  | singleton
  | subtags
  deriving DecidableEq

/-- The loop over the extensions and the loop within it over the subtags of one: a singleton that is
new and not `x`, then at least one subtag. -/
def takeExtensions (seen : List Subtag) (part : ExtensionPart) (canonical : List Subtag) :
    List Subtag → Option TagState
  | [] => if part = .singleton then none else some (canonical, [])
  | subtag :: rest =>
      if part ≠ .outside && decide (2 ≤ subtag.length) && decide (subtag.length ≤ 8) then
        takeExtensions seen .subtags (canonical ++ [subtag.lower]) rest
      -- The inner loop ends here; it must have taken something.
      else if part = .singleton then none
      else if subtag.length == 1 && !subtag.isX then
        if seen.contains subtag.lower then none
        else takeExtensions (subtag.lower :: seen) .singleton (canonical ++ [subtag.lower]) rest
      else some (canonical, subtag :: rest)

/-- The private-use subtags, which end the tag. -/
def takePrivateUse : TagState → Option TagState
  | (canonical, subtag :: rest) =>
      if subtag.isX then
        if rest.isEmpty then none
        else some (canonical ++ [['x']] ++ rest.map Subtag.lower, [])
      else some (canonical, subtag :: rest)
  | state => some state

/-- `GRANDFATHERED`: each tag with its canonical spelling. -/
def grandfathered : List (String × String) :=
  [("art-lojban", "jbo"), ("cel-gaulish", "cel-gaulish"), ("en-gb-oed", "en-GB-oxendict"),
    ("i-ami", "ami"), ("i-bnn", "bnn"), ("i-default", "i-default"), ("i-enochian", "i-enochian"),
    ("i-hak", "hak"), ("i-klingon", "tlh"), ("i-lux", "lb"), ("i-mingo", "i-mingo"),
    ("i-navajo", "nv"), ("i-pwn", "pwn"), ("i-tao", "tao"), ("i-tay", "tay"), ("i-tsu", "tsu"),
    ("no-bok", "nb"), ("no-nyn", "nn"), ("sgn-be-fr", "sfb"), ("sgn-be-nl", "vgt"),
    ("sgn-ch-de", "sgg"), ("zh-guoyu", "cmn"), ("zh-hakka", "hak"), ("zh-min", "zh-min"),
    ("zh-min-nan", "nan"), ("zh-xiang", "hsn")]

/-- `canonical_grandfathered`. -/
def canonicalGrandfathered (value : List Char) : Option String :=
  (grandfathered.find? fun entry => value.map Char.toLower == entry.1.toList).map Prod.snd

/-- The primary language, and the extended languages that a short one may have. -/
def takeLanguage (language : Subtag) (rest : List Subtag) : TagState :=
  if language.length ≤ 3 then takeExtlangs 3 ([language.lower], rest) else ([language.lower], rest)

/-- The subtags of a `langtag` in their canonical spelling. -/
def canonicalLangtag (language : Subtag) (rest : List Subtag) : Option (List Subtag) :=
  if !(decide (2 ≤ language.length) && decide (language.length ≤ 8)) || !language.isAlpha then none
  else
    let state := takeRegion (takeScript (takeLanguage language rest))
    (takeVariants [] state.1 state.2).bind fun state =>
      (takeExtensions [] .outside state.1 state.2).bind fun state =>
        (takePrivateUse state).bind fun state =>
          if state.2.isEmpty then some state.1 else none

/-- The canonical spelling of the subtags of a tag. -/
def canonicalSubtags : List Subtag → Option (List Subtag)
  | [] => none
  | first :: rest =>
      if first.isX then
        if rest.isEmpty then none else some ((first :: rest).map Subtag.lower)
      else canonicalLangtag first rest

/-- `value != value.trim()`. -/
def hasOuterWhitespace (value : List Char) : Bool :=
  value.head?.any isWhitespace || value.getLast?.any isWhitespace

/-- `join("-")`. -/
def joinSubtags (subtags : List Subtag) : String :=
  String.ofList (List.intercalate ['-'] subtags)

/-- `canonicalize`. -/
def canonicalize (value : String) : Except LanguageHintError String :=
  let chars := value.toList
  if chars.isEmpty then .error .empty
  else if maxLanguageTagLength < value.utf8ByteSize then .error .tooLong
  else if !chars.all (fun c => decide (c.toNat < 128)) then .error .nonAscii
  else if hasOuterWhitespace chars || chars.contains '_' then .error .invalidSyntax
  else match canonicalGrandfathered chars with
    | some canonical => .ok canonical
    | none =>
        let subtags := chars.splitOn '-'
        if subtags.any fun subtag => !Subtag.wellFormed subtag then .error .invalidSyntax
        else match canonicalSubtags subtags with
          | some canonical => .ok (joinSubtags canonical)
          | none => .error .invalidSyntax

/-- `LanguageHint::from_str`. -/
def LanguageHint.fromStr? (value : String) : Except LanguageHintError LanguageHint :=
  (canonicalize value).map LanguageHint.mk

/-- `primary_language`: up to the first hyphen. -/
def LanguageHint.primaryLanguage (hint : LanguageHint) : String :=
  String.ofList (hint.asStr.toList.takeWhile (· != '-'))

example : canonicalize "ZH-hant-tw-u-NU-hanidec-x-PRIVATE" =
    .ok "zh-Hant-TW-u-nu-hanidec-x-private" := by decide +kernel

/-! ## The spelling of an accepted tag -/

/-- Letters and digits only. -/
def Subtag.Clean (subtag : Subtag) : Prop := ∀ c ∈ subtag, c.isAlphanum = true

/-- The subtags read and the subtags left are letters and digits only. -/
def TagState.Clean (state : TagState) : Prop :=
  (∀ subtag ∈ state.1, Subtag.Clean subtag) ∧ ∀ subtag ∈ state.2, Subtag.Clean subtag

theorem isAlphanum_iff {c : Char} : c.isAlphanum = true ↔
    (65 ≤ c.toNat ∧ c.toNat ≤ 90) ∨ (97 ≤ c.toNat ∧ c.toNat ≤ 122) ∨
      (48 ≤ c.toNat ∧ c.toNat ≤ 57) := by
  change ((decide (65 ≤ c.val ∧ c.val ≤ 90) || (decide (97 ≤ c.val) && decide (c.val ≤ 122))) ||
    (decide (48 ≤ c.val) && decide (c.val ≤ 57))) = true ↔ _
  simp [UInt32.le_iff_toNat_le, or_assoc]

theorem isAlphanum_toLower {c : Char} (h : c.isAlphanum = true) : c.toLower.isAlphanum = true := by
  unfold Char.toLower
  split
  · rename_i hupper
    have hle : 65 ≤ c.toNat ∧ c.toNat ≤ 90 := hupper
    have hval : (c.val + ('a'.val - 'A'.val)).toNat = c.toNat + 32 := by
      rw [UInt32.toNat_add]
      change (c.toNat + 32) % 2 ^ 32 = c.toNat + 32
      omega
    refine isAlphanum_iff.mpr (.inr (.inl ?_))
    change 97 ≤ (c.val + ('a'.val - 'A'.val)).toNat ∧ (c.val + ('a'.val - 'A'.val)).toNat ≤ 122
    omega
  · exact h

theorem isAlphanum_toUpper {c : Char} (h : c.isAlphanum = true) : c.toUpper.isAlphanum = true := by
  unfold Char.toUpper
  split
  · rename_i hlower
    have hle : 97 ≤ c.toNat ∧ c.toNat ≤ 122 := hlower
    have hval : (c.val + ('A'.val - 'a'.val)).toNat = c.toNat - 32 := by
      rw [UInt32.toNat_add]
      change (c.toNat + 4294967264) % 2 ^ 32 = c.toNat - 32
      omega
    refine isAlphanum_iff.mpr (.inl ?_)
    change 65 ≤ (c.val + ('A'.val - 'a'.val)).toNat ∧ (c.val + ('A'.val - 'a'.val)).toNat ≤ 90
    omega
  · exact h

namespace Subtag

variable {subtag : Subtag}

theorem Clean.lower (h : subtag.Clean) : (Subtag.lower subtag).Clean := by
  intro c hc
  obtain ⟨d, hd, rfl⟩ := List.mem_map.mp hc
  exact isAlphanum_toLower (h d hd)

theorem Clean.upper (h : subtag.Clean) : (Subtag.upper subtag).Clean := by
  intro c hc
  obtain ⟨d, hd, rfl⟩ := List.mem_map.mp hc
  exact isAlphanum_toUpper (h d hd)

theorem Clean.titled (h : subtag.Clean) : (Subtag.titled subtag).Clean := by
  have hlower := h.lower
  unfold Subtag.titled
  split
  · rename_i first rest heq
    rw [heq] at hlower
    intro c hc
    rcases List.mem_cons.mp hc with rfl | hc
    · exact isAlphanum_toUpper (hlower first List.mem_cons_self)
    · exact hlower c (List.mem_cons_of_mem _ hc)
  · intro c hc
    exact nomatch hc

theorem clean_of_wellFormed (h : Subtag.wellFormed subtag = true) : subtag.Clean := by
  simp only [Subtag.wellFormed, Bool.and_eq_true, List.all_eq_true] at h
  exact h.2

end Subtag

namespace TagState

variable {canonical rest : List Subtag} {subtag spelled : Subtag}

/-- Taking a subtag under a clean spelling. -/
theorem Clean.take (h : TagState.Clean (canonical, subtag :: rest)) (hspelled : spelled.Clean) :
    TagState.Clean (canonical ++ [spelled], rest) := by
  constructor
  · intro other hother
    rcases List.mem_append.mp hother with hother | hother
    · exact h.1 other hother
    · rw [List.mem_singleton.mp hother]
      exact hspelled
  · intro other hother
    exact h.2 other (List.mem_cons_of_mem _ hother)

theorem Clean.head (h : TagState.Clean (canonical, subtag :: rest)) : subtag.Clean :=
  h.2 subtag List.mem_cons_self

end TagState

theorem takeExtlangs_clean {count : Nat} {state : TagState} (h : TagState.Clean state) :
    TagState.Clean (takeExtlangs count state) := by
  induction count generalizing state with
  | zero => exact h
  | succ count ih =>
      obtain ⟨canonical, rest⟩ := state
      cases rest with
      | nil => exact h
      | cons subtag rest =>
          rw [takeExtlangs]
          split
          · exact ih (h.take h.head.lower)
          · exact h

theorem takeScript_clean {state : TagState} (h : TagState.Clean state) :
    TagState.Clean (takeScript state) := by
  obtain ⟨canonical, rest⟩ := state
  cases rest with
  | nil => exact h
  | cons subtag rest =>
      rw [takeScript]
      split
      · exact h.take h.head.titled
      · exact h

theorem takeRegion_clean {state : TagState} (h : TagState.Clean state) :
    TagState.Clean (takeRegion state) := by
  obtain ⟨canonical, rest⟩ := state
  cases rest with
  | nil => exact h
  | cons subtag rest =>
      rw [takeRegion]
      split
      · exact h.take h.head.upper
      · exact h

theorem takeVariants_clean {seen canonical rest : List Subtag} {state : TagState}
    (h : TagState.Clean (canonical, rest))
    (htake : takeVariants seen canonical rest = some state) : TagState.Clean state := by
  induction rest generalizing seen canonical with
  | nil =>
      obtain rfl := Option.some.inj htake
      exact h
  | cons subtag rest ih =>
      rw [takeVariants] at htake
      split at htake
      · split at htake
        · exact nomatch htake
        · exact ih (h.take h.head.lower) htake
      · obtain rfl := Option.some.inj htake
        exact h

theorem takeExtensions_clean {seen canonical rest : List Subtag} {part : ExtensionPart}
    {state : TagState} (h : TagState.Clean (canonical, rest))
    (htake : takeExtensions seen part canonical rest = some state) : TagState.Clean state := by
  induction rest generalizing seen part canonical with
  | nil =>
      obtain ⟨_, heq⟩ := Option.ite_none_left_eq_some.mp htake
      obtain rfl := Option.some.inj heq
      exact h
  | cons subtag rest ih =>
      rw [takeExtensions] at htake
      split at htake
      · exact ih (h.take h.head.lower) htake
      · split at htake
        · exact nomatch htake
        · split at htake
          · split at htake
            · exact nomatch htake
            · exact ih (h.take h.head.lower) htake
          · obtain rfl := Option.some.inj htake
            exact h

theorem takePrivateUse_clean {state state' : TagState} (h : TagState.Clean state)
    (htake : takePrivateUse state = some state') : TagState.Clean state' := by
  obtain ⟨canonical, rest⟩ := state
  cases rest with
  | nil =>
      obtain rfl := Option.some.inj htake
      exact h
  | cons subtag rest =>
      rw [takePrivateUse] at htake
      split at htake
      · obtain ⟨_, heq⟩ := Option.ite_none_left_eq_some.mp htake
        obtain rfl := Option.some.inj heq
        have hx : Subtag.Clean ['x'] := by simp [Subtag.Clean]
        refine ⟨?_, fun _ hnone => nomatch hnone⟩
        intro other hother
        rcases List.mem_append.mp hother with hother | hother
        · exact (h.take hx).1 other hother
        · obtain ⟨private', hprivate, rfl⟩ := List.mem_map.mp hother
          exact Subtag.Clean.lower (h.2 private' (List.mem_cons_of_mem _ hprivate))
      · obtain rfl := Option.some.inj htake
        exact h

theorem takeLanguage_clean {language : Subtag} {rest : List Subtag}
    (h : ∀ subtag ∈ language :: rest, Subtag.Clean subtag) :
    TagState.Clean (takeLanguage language rest) := by
  have hstart : TagState.Clean ([language.lower], rest) := by
    refine ⟨?_, fun subtag hsubtag => h subtag (List.mem_cons_of_mem _ hsubtag)⟩
    intro subtag hsubtag
    rw [List.mem_singleton.mp hsubtag]
    exact (h language List.mem_cons_self).lower
  unfold takeLanguage
  split
  · exact takeExtlangs_clean hstart
  · exact hstart

theorem canonicalLangtag_clean {language : Subtag} {rest canonical : List Subtag}
    (h : ∀ subtag ∈ language :: rest, Subtag.Clean subtag)
    (hcanonical : canonicalLangtag language rest = some canonical) :
    ∀ subtag ∈ canonical, Subtag.Clean subtag := by
  obtain ⟨_, hcanonical⟩ := Option.ite_none_left_eq_some.mp hcanonical
  obtain ⟨variants, hvariants, hcanonical⟩ := Option.bind_eq_some_iff.mp hcanonical
  obtain ⟨extensions, hextensions, hcanonical⟩ := Option.bind_eq_some_iff.mp hcanonical
  obtain ⟨final, hfinal, hcanonical⟩ := Option.bind_eq_some_iff.mp hcanonical
  obtain ⟨_, heq⟩ := Option.ite_none_right_eq_some.mp hcanonical
  obtain rfl := Option.some.inj heq
  have hregion := takeRegion_clean (takeScript_clean (takeLanguage_clean h))
  have hread := takeExtensions_clean (takeVariants_clean hregion hvariants) hextensions
  exact (takePrivateUse_clean hread hfinal).1

theorem canonicalSubtags_clean {subtags canonical : List Subtag}
    (h : ∀ subtag ∈ subtags, Subtag.Clean subtag)
    (hcanonical : canonicalSubtags subtags = some canonical) :
    ∀ subtag ∈ canonical, Subtag.Clean subtag := by
  cases subtags with
  | nil => exact nomatch hcanonical
  | cons first rest =>
      rw [canonicalSubtags] at hcanonical
      split at hcanonical
      · obtain ⟨_, heq⟩ := Option.ite_none_left_eq_some.mp hcanonical
        obtain rfl := Option.some.inj heq
        intro subtag hsubtag
        obtain ⟨original, horiginal, rfl⟩ := List.mem_map.mp hsubtag
        exact Subtag.Clean.lower (h original horiginal)
      · exact canonicalLangtag_clean h hcanonical

/-- A character of a canonical tag. -/
def tagChar (c : Char) : Bool := c.isAlphanum || c == '-'

theorem joinSubtags_clean {subtags : List Subtag} (h : ∀ subtag ∈ subtags, Subtag.Clean subtag) :
    (joinSubtags subtags).toList.all tagChar = true := by
  rw [joinSubtags, String.toList_ofList, List.all_eq_true]
  induction subtags with
  | nil => intro c hc; exact nomatch hc
  | cons first rest ih =>
      have hfirst : ∀ c ∈ first, tagChar c = true := by
        intro c hc
        simp [tagChar, h first List.mem_cons_self c hc]
      cases rest with
      | nil => simpa using hfirst
      | cons second rest =>
          intro c hc
          rw [List.intercalate_cons_cons] at hc
          rcases List.mem_append.mp hc with hc | hc
          · rcases List.mem_append.mp hc with hc | hc
            · exact hfirst c hc
            · rw [List.mem_singleton.mp hc]
              rfl
          · exact ih (fun subtag hsubtag => h subtag (List.mem_cons_of_mem _ hsubtag)) c hc

/-- **An accepted tag is spelled with letters, digits and hyphens.** -/
theorem canonicalize_clean {value canonical : String} (h : canonicalize value = .ok canonical) :
    canonical.toList.all tagChar = true := by
  unfold canonicalize at h
  dsimp only at h
  split at h
  · exact nomatch h
  split at h
  · exact nomatch h
  split at h
  · exact nomatch h
  split at h
  · exact nomatch h
  split at h
  · rename_i canonical' hgrandfathered
    cases h
    obtain ⟨entry, hentry, rfl⟩ := Option.map_eq_some_iff.mp hgrandfathered
    have hall : ∀ entry ∈ grandfathered, entry.2.toList.all tagChar = true := by decide +kernel
    exact hall entry (List.mem_of_find?_eq_some hentry)
  · split at h
    · exact nomatch h
    · rename_i hwellFormed
      split at h
      · rename_i canonical' hcanonical
        cases h
        apply joinSubtags_clean
        apply canonicalSubtags_clean _ hcanonical
        intro subtag hsubtag
        apply Subtag.clean_of_wellFormed
        simp only [List.any_eq_true, not_exists, not_and, Bool.not_eq_true', Bool.not_eq_false]
          at hwellFormed
        exact hwellFormed subtag hsubtag
      · exact nomatch h

end Waveform.Domain
