import Mathlib
import Waveform.Domain.Bytes
import Waveform.Domain.LanguageGrammar

/-!
# Language hints and ASCII case

The parser looks at a text through its lower-case spelling only, and what it returns has the
lower-case spelling of what it read. So a canonical tag is parsed like the tag it came from.

The lemmas about the case of ASCII characters are reached by importing Mathlib whole only.

- `canonicalize_asciiLower`: the case of a text does not show.
- `canonicalSubtags_lower`: the case is all that the canonical spelling changes.
- `languageHint_grammar`: what is accepted, and that the canonical spelling is stable.
-/

set_option autoImplicit false

namespace Waveform.Domain

/-! ## Characters -/

section Characters

variable (c : Char)

@[simp] theorem isDigit_toLower : c.toLower.isDigit = c.isDigit := by
  by_cases hupper : c.isUpper = true
  · have halpha : c.isAlpha = true := by simp [Char.isAlpha, hupper]
    have hlower : c.toLower.isAlpha = true := by simpa using halpha
    have hdigit : ∀ {d : Char}, d.isAlpha = true → d.isDigit = false := by
      intro d hd
      by_contra hnot
      rw [not_isAlpha_of_digit (by simpa using hnot)] at hd
      cases hd
    rw [hdigit halpha, hdigit hlower]
  · rw [Char.toLower_eq_of_not_isUpper hupper]

@[simp] theorem isAlphanum_toLower_eq : c.toLower.isAlphanum = c.isAlphanum := by
  simp [Char.isAlphanum]

/-- A letter is a letter in lower case, and nothing else becomes one. -/
theorem toLower_cases : (c.isAlpha = true ∧ c.toLower.isAlpha = true) ∨ c.toLower = c := by
  by_cases hupper : c.isUpper = true
  · have halpha : c.isAlpha = true := by simp [Char.isAlpha, hupper]
    exact .inl ⟨halpha, by simpa using halpha⟩
  · exact .inr (Char.toLower_eq_of_not_isUpper hupper)

/-- A property that no letter has is not changed. -/
theorem toLower_of_not_alpha {p : Char → Bool} (h : ∀ d : Char, d.isAlpha = true → p d = false) :
    p c.toLower = p c := by
  rcases toLower_cases c with ⟨halpha, hlower⟩ | heq
  · rw [h c halpha, h _ hlower]
  · rw [heq]

theorem isWhitespace_toLower : isWhitespace c.toLower = isWhitespace c := by
  apply toLower_of_not_alpha c (p := isWhitespace)
  intro d hd
  rw [isAlpha_iff] at hd
  simp only [isWhitespace, Bool.or_eq_false_iff, Bool.and_eq_false_iff, decide_eq_false_iff_not,
    beq_eq_false_iff_ne]
  omega

theorem beq_toLower {mark : Char} (hmark : mark.isAlpha = false) :
    (c.toLower == mark) = (c == mark) := by
  apply toLower_of_not_alpha c (p := (· == mark))
  intro d hd
  rw [beq_eq_false_iff_ne]
  rintro rfl
  rw [hd] at hmark
  cases hmark

theorem isAscii_toLower : decide (c.toLower.toNat < 128) = decide (c.toNat < 128) := by
  rcases toLower_cases c with ⟨halpha, hlower⟩ | heq
  · rw [isAlpha_iff] at halpha hlower
    rw [decide_eq_decide]
    omega
  · rw [heq]

theorem utf8Size_toLower : c.toLower.utf8Size = c.utf8Size := by
  rcases toLower_cases c with ⟨halpha, hlower⟩ | heq
  · have hone : ∀ d : Char, d.isAlpha = true → d.utf8Size = 1 := by
      intro d hd
      rw [isAlpha_iff] at hd
      apply Char.utf8Size_eq_one_iff.mpr
      apply UInt32.le_iff_toNat_le.mpr
      change d.toNat ≤ 127
      omega
    rw [hone c halpha, hone _ hlower]
  · rw [heq]

end Characters

/-! ## Subtags -/

namespace Subtag

variable (subtag : Subtag)

@[simp] theorem length_lower : (lower subtag).length = subtag.length := List.length_map _

theorem all_lower {p : Char → Bool} (h : ∀ c, p c.toLower = p c) :
    (lower subtag).all p = subtag.all p := by
  rw [lower, List.all_map]
  congr 1
  exact funext h

@[simp] theorem isAlpha_lower : isAlpha (lower subtag) = isAlpha subtag :=
  all_lower subtag Char.isAlpha_toLower_eq_isAlpha

@[simp] theorem isRegion_lower : isRegion (lower subtag) = isRegion subtag := by
  simp only [isRegion, length_lower, isAlpha_lower, all_lower subtag isDigit_toLower]

@[simp] theorem isVariant_lower : isVariant (lower subtag) = isVariant subtag := by
  have hhead : (lower subtag).head?.any Char.isDigit = subtag.head?.any Char.isDigit := by
    cases subtag with
    | nil => rfl
    | cons c chars => exact isDigit_toLower c
  simp only [isVariant, length_lower, hhead]

@[simp] theorem wellFormed_lower : wellFormed (lower subtag) = wellFormed subtag := by
  have hempty : (lower subtag).isEmpty = subtag.isEmpty := by cases subtag <;> rfl
  simp only [wellFormed, length_lower, hempty, all_lower subtag isAlphanum_toLower_eq]

@[simp] theorem lower_lower : lower (lower subtag) = lower subtag := by
  simp [lower, Function.comp_def]

@[simp] theorem upper_lower : upper (lower subtag) = upper subtag := by
  simp [lower, upper, Function.comp_def]

@[simp] theorem lower_upper : lower (upper subtag) = lower subtag := by
  simp [lower, upper, Function.comp_def]

@[simp] theorem titled_lower : titled (lower subtag) = titled subtag := by
  simp only [titled, lower_lower]

@[simp] theorem lower_titled : lower (titled subtag) = lower subtag := by
  cases subtag with
  | nil => rfl
  | cons c chars => simp [titled, lower, Function.comp_def]

@[simp] theorem isX_lower : isX (lower subtag) = isX subtag := by
  simp only [isX, lower_lower]

end Subtag

/-! ## The stages do not see the case -/

namespace TagState

/-- The subtags that are left, in lower case. -/
def lowerRest (state : TagState) : TagState := (state.1, state.2.map Subtag.lower)

/-- All subtags of a state, in lower case. -/
def lowered (state : TagState) : List Subtag :=
  state.1.map Subtag.lower ++ state.2.map Subtag.lower

/-- Taking a subtag under another case of its spelling. -/
theorem lowered_take {canonical rest : List Subtag} {subtag spelled : Subtag}
    (h : spelled.lower = subtag.lower) :
    lowered (canonical ++ [spelled], rest) = lowered (canonical, subtag :: rest) := by
  simp [lowered, h]

end TagState

section Stages

open TagState

theorem takeExtlangs_lowerRest (count : Nat) (state : TagState) :
    takeExtlangs count state.lowerRest = (takeExtlangs count state).lowerRest := by
  obtain ⟨canonical, rest⟩ := state
  induction count generalizing canonical rest with
  | zero => cases rest <;> rfl
  | succ count ih =>
      cases rest with
      | nil => rfl
      | cons subtag rest =>
          simp only [lowerRest, List.map_cons, takeExtlangs, Subtag.length_lower,
            Subtag.isAlpha_lower, Subtag.lower_lower]
          split
          · exact ih _ rest
          · rfl

theorem takeExtlangs_lowered (count : Nat) (state : TagState) :
    (takeExtlangs count state).lowered = state.lowered := by
  obtain ⟨canonical, rest⟩ := state
  induction count generalizing canonical rest with
  | zero => cases rest <;> rfl
  | succ count ih =>
      cases rest with
      | nil => rfl
      | cons subtag rest =>
          rw [takeExtlangs]
          split
          · rw [ih, lowered_take (Subtag.lower_lower subtag)]
          · rfl

theorem takeScript_lowerRest (state : TagState) :
    takeScript state.lowerRest = (takeScript state).lowerRest := by
  obtain ⟨canonical, rest⟩ := state
  cases rest with
  | nil => rfl
  | cons subtag rest =>
      simp only [lowerRest, List.map_cons, takeScript, Subtag.length_lower, Subtag.isAlpha_lower,
        Subtag.titled_lower]
      split <;> rfl

theorem takeScript_lowered (state : TagState) : (takeScript state).lowered = state.lowered := by
  obtain ⟨canonical, rest⟩ := state
  cases rest with
  | nil => rfl
  | cons subtag rest =>
      rw [takeScript]
      split
      · exact lowered_take (Subtag.lower_titled subtag)
      · rfl

theorem takeRegion_lowerRest (state : TagState) :
    takeRegion state.lowerRest = (takeRegion state).lowerRest := by
  obtain ⟨canonical, rest⟩ := state
  cases rest with
  | nil => rfl
  | cons subtag rest =>
      simp only [lowerRest, List.map_cons, takeRegion, Subtag.isRegion_lower, Subtag.upper_lower]
      split <;> rfl

theorem takeRegion_lowered (state : TagState) : (takeRegion state).lowered = state.lowered := by
  obtain ⟨canonical, rest⟩ := state
  cases rest with
  | nil => rfl
  | cons subtag rest =>
      rw [takeRegion]
      split
      · exact lowered_take (Subtag.lower_upper subtag)
      · rfl

theorem takeVariants_lowerRest (seen canonical rest : List Subtag) :
    takeVariants seen canonical (rest.map Subtag.lower) =
      (takeVariants seen canonical rest).map lowerRest := by
  induction rest generalizing seen canonical with
  | nil => rfl
  | cons subtag rest ih =>
      simp only [List.map_cons, takeVariants, Subtag.isVariant_lower, Subtag.lower_lower]
      split
      · split
        · rfl
        · exact ih _ _
      · rfl

theorem takeVariants_lowered {seen canonical rest : List Subtag} {state : TagState}
    (h : takeVariants seen canonical rest = some state) :
    state.lowered = lowered (canonical, rest) := by
  induction rest generalizing seen canonical with
  | nil =>
      obtain rfl := Option.some.inj h
      rfl
  | cons subtag rest ih =>
      rw [takeVariants] at h
      split at h
      · obtain ⟨_, h⟩ := Option.ite_none_left_eq_some.mp h
        rw [ih h, lowered_take (Subtag.lower_lower subtag)]
      · obtain rfl := Option.some.inj h
        rfl

theorem takeExtensions_lowerRest (seen : List Subtag) (part : ExtensionPart)
    (canonical rest : List Subtag) :
    takeExtensions seen part canonical (rest.map Subtag.lower) =
      (takeExtensions seen part canonical rest).map lowerRest := by
  induction rest generalizing seen part canonical with
  | nil =>
      simp only [List.map_nil, takeExtensions]
      split <;> rfl
  | cons subtag rest ih =>
      simp only [List.map_cons, takeExtensions, Subtag.length_lower, Subtag.isX_lower,
        Subtag.lower_lower]
      split
      · exact ih _ _ _
      · split
        · rfl
        · split
          · split
            · rfl
            · exact ih _ _ _
          · rfl

theorem takeExtensions_lowered {seen : List Subtag} {part : ExtensionPart}
    {canonical rest : List Subtag} {state : TagState}
    (h : takeExtensions seen part canonical rest = some state) :
    state.lowered = lowered (canonical, rest) := by
  induction rest generalizing seen part canonical with
  | nil =>
      obtain ⟨_, h⟩ := Option.ite_none_left_eq_some.mp h
      obtain rfl := Option.some.inj h
      rfl
  | cons subtag rest ih =>
      rw [takeExtensions] at h
      split at h
      · rw [ih h, lowered_take (Subtag.lower_lower subtag)]
      · obtain ⟨_, h⟩ := Option.ite_none_left_eq_some.mp h
        split at h
        · obtain ⟨_, h⟩ := Option.ite_none_left_eq_some.mp h
          rw [ih h, lowered_take (Subtag.lower_lower subtag)]
        · obtain rfl := Option.some.inj h
          rfl

theorem takePrivateUse_lowerRest (state : TagState) :
    takePrivateUse state.lowerRest = (takePrivateUse state).map lowerRest := by
  obtain ⟨canonical, rest⟩ := state
  cases rest with
  | nil => rfl
  | cons subtag rest =>
      have hempty : (rest.map Subtag.lower).isEmpty = rest.isEmpty := by cases rest <;> rfl
      have hlower : (rest.map Subtag.lower).map Subtag.lower = rest.map Subtag.lower := by
        simp [Function.comp_def]
      simp only [lowerRest, List.map_cons, takePrivateUse, Subtag.isX_lower, hempty, hlower]
      split
      · split <;> rfl
      · rfl

theorem takePrivateUse_lowered {state state' : TagState} (h : takePrivateUse state = some state') :
    state'.lowered = state.lowered := by
  obtain ⟨canonical, rest⟩ := state
  cases rest with
  | nil =>
      obtain rfl := Option.some.inj h
      rfl
  | cons subtag rest =>
      rw [takePrivateUse] at h
      split at h
      · rename_i hx
        obtain ⟨_, h⟩ := Option.ite_none_left_eq_some.mp h
        obtain rfl := Option.some.inj h
        have hsubtag : subtag.lower = ['x'] := beq_iff_eq.mp hx
        have hxx : Subtag.lower ['x'] = ['x'] := by decide
        simp [lowered, hsubtag, hxx, Function.comp_def]
      · obtain rfl := Option.some.inj h
        rfl

theorem takeLanguage_lowerRest (language : Subtag) (rest : List Subtag) :
    takeLanguage language.lower (rest.map Subtag.lower) =
      (takeLanguage language rest).lowerRest := by
  simp only [takeLanguage, Subtag.length_lower, Subtag.lower_lower]
  split
  · exact takeExtlangs_lowerRest 3 ([language.lower], rest)
  · rfl

theorem takeLanguage_lowered (language : Subtag) (rest : List Subtag) :
    (takeLanguage language rest).lowered = (language :: rest).map Subtag.lower := by
  have hstart : lowered ([language.lower], rest) = (language :: rest).map Subtag.lower := by
    simp [lowered]
  rw [← hstart, takeLanguage]
  split
  · exact takeExtlangs_lowered 3 _
  · rfl

end Stages

theorem canonicalLangtag_lower (language : Subtag) (rest : List Subtag) :
    canonicalLangtag language.lower (rest.map Subtag.lower) = canonicalLangtag language rest := by
  have hstate : takeRegion (takeScript (takeLanguage language.lower (rest.map Subtag.lower))) =
      (takeRegion (takeScript (takeLanguage language rest))).lowerRest := by
    rw [takeLanguage_lowerRest, takeScript_lowerRest, takeRegion_lowerRest]
  have hfinal : ∀ state : TagState, (takePrivateUse state.lowerRest).bind
      (fun state => if state.2.isEmpty then some state.1 else none) =
        (takePrivateUse state).bind fun state => if state.2.isEmpty then some state.1
          else none := by
    intro state
    rw [takePrivateUse_lowerRest, Option.bind_map]
    refine Option.bind_congr fun final _ => ?_
    simp [TagState.lowerRest]
  simp only [canonicalLangtag, Subtag.length_lower, Subtag.isAlpha_lower, hstate]
  congr 1
  change (takeVariants [] _ ((takeRegion (takeScript (takeLanguage language rest))).2.map
    Subtag.lower)).bind _ = _
  rw [takeVariants_lowerRest, Option.bind_map]
  refine Option.bind_congr fun variants _ => ?_
  change (takeExtensions [] _ _ (variants.2.map Subtag.lower)).bind _ = _
  rw [takeExtensions_lowerRest, Option.bind_map]
  exact Option.bind_congr fun extensions _ => hfinal extensions

/-- The case of the subtags does not show in their canonical spelling. -/
theorem canonicalSubtags_map_lower (subtags : List Subtag) :
    canonicalSubtags (subtags.map Subtag.lower) = canonicalSubtags subtags := by
  cases subtags with
  | nil => rfl
  | cons first rest =>
      have hempty : (rest.map Subtag.lower).isEmpty = rest.isEmpty := by cases rest <;> rfl
      have hlower : (rest.map Subtag.lower).map Subtag.lower = rest.map Subtag.lower := by
        simp [Function.comp_def]
      simp only [List.map_cons, canonicalSubtags, Subtag.isX_lower, canonicalLangtag_lower, hempty,
        hlower, Subtag.lower_lower]

/-- The canonical spelling of the subtags differs from them in the case only. -/
theorem canonicalSubtags_lower {subtags canonical : List Subtag}
    (h : canonicalSubtags subtags = some canonical) :
    canonical.map Subtag.lower = subtags.map Subtag.lower := by
  cases subtags with
  | nil => cases h
  | cons first rest =>
      rw [canonicalSubtags] at h
      split at h
      · obtain ⟨_, h⟩ := Option.ite_none_left_eq_some.mp h
        obtain rfl := Option.some.inj h
        simp [Function.comp_def]
      · obtain ⟨_, variants, extensions, hvariants, hextensions, hprivate⟩ :=
          canonicalLangtag_eq_some_iff.mp h
        -- No stage changes more than the case of what it moves.
        calc canonical.map Subtag.lower
            = TagState.lowered (canonical, []) := (List.append_nil _).symm
          _ = extensions.lowered := takePrivateUse_lowered hprivate
          _ = variants.lowered := takeExtensions_lowered hextensions
          _ = (takeRegion (takeScript (takeLanguage first rest))).lowered :=
              takeVariants_lowered hvariants
          _ = (first :: rest).map Subtag.lower := by
              rw [takeRegion_lowered, takeScript_lowered, takeLanguage_lowered]

/-! ## Texts -/

theorem utf8ByteSize_eq_sum (text : String) :
    text.utf8ByteSize = (text.toList.map Char.utf8Size).sum := by
  rw [← utf8_length, utf8, List.length_flatMap]
  congr 1
  exact List.map_congr_left fun c _ => String.length_utf8EncodeChar c

theorem splitOn_map_toLower (chars : List Char) :
    (chars.map Char.toLower).splitOn '-' = (chars.splitOn '-').map Subtag.lower := by
  induction chars with
  | nil => rfl
  | cons c chars ih =>
      rw [List.map_cons, List.splitOn_cons_eq_if_modifyHead, List.splitOn_cons_eq_if_modifyHead,
        beq_toLower c (by decide), ih]
      split
      · rfl
      · cases chars.splitOn '-' <;> rfl

theorem intercalate_map_toLower (subtags : List Subtag) :
    (['-'].intercalate subtags).map Char.toLower =
      ['-'].intercalate (subtags.map Subtag.lower) := by
  induction subtags with
  | nil => rfl
  | cons first rest ih =>
      cases rest with
      | nil => simp [Subtag.lower]
      | cons second rest =>
          have hhyphen : (['-'] : Subtag).map Char.toLower = ['-'] := by decide
          rw [List.intercalate_cons_cons, List.map_append, List.map_append, ih, hhyphen]
          exact List.intercalate_cons_cons.symm

/-- What `canonicalize` does behind its first checks. -/
def canonicalChars (chars : List Char) : Except LanguageHintError String :=
  match canonicalGrandfathered chars with
  | some canonical => .ok canonical
  | none =>
      let subtags := chars.splitOn '-'
      if subtags.any fun subtag => !Subtag.wellFormed subtag then .error .invalidSyntax
      else match canonicalSubtags subtags with
        | some canonical => .ok (joinSubtags canonical)
        | none => .error .invalidSyntax

theorem canonicalize_eq (value : String) :
    canonicalize value =
      if value.toList.isEmpty then .error .empty
      else if maxLanguageTagLength < value.utf8ByteSize then .error .tooLong
      else if !value.toList.all (fun c => decide (c.toNat < 128)) then .error .nonAscii
      else if hasOuterWhitespace value.toList || value.toList.contains '_' then
        .error .invalidSyntax
      else canonicalChars value.toList := rfl

theorem canonicalGrandfathered_lower (chars : List Char) :
    canonicalGrandfathered (chars.map Char.toLower) = canonicalGrandfathered chars := by
  simp [canonicalGrandfathered, Function.comp_def]

theorem canonicalChars_lower (chars : List Char) :
    canonicalChars (chars.map Char.toLower) = canonicalChars chars := by
  have hany : ((chars.splitOn '-').map Subtag.lower).any (fun s => !Subtag.wellFormed s) =
      (chars.splitOn '-').any fun s => !Subtag.wellFormed s := by
    rw [List.any_map]
    congr 1
    exact funext fun s => congrArg Bool.not (Subtag.wellFormed_lower s)
  simp only [canonicalChars, canonicalGrandfathered_lower, splitOn_map_toLower, hany,
    canonicalSubtags_map_lower]

theorem hasOuterWhitespace_lower (chars : List Char) :
    hasOuterWhitespace (chars.map Char.toLower) = hasOuterWhitespace chars := by
  have hany : ∀ o : Option Char, (o.map Char.toLower).any isWhitespace = o.any isWhitespace := by
    intro o
    cases o with
    | none => rfl
    | some c => exact isWhitespace_toLower c
  rw [hasOuterWhitespace, hasOuterWhitespace, List.head?_map, List.getLast?_map, hany, hany]

/-- The case of a text does not show in the result, nor in the error. -/
theorem canonicalize_asciiLower (value : String) :
    canonicalize (String.ofList (asciiLower value)) = canonicalize value := by
  have hempty : (asciiLower value).isEmpty = value.toList.isEmpty := by
    unfold asciiLower
    cases value.toList <;> rfl
  have hsize : (String.ofList (asciiLower value)).utf8ByteSize = value.utf8ByteSize := by
    rw [utf8ByteSize_eq_sum, utf8ByteSize_eq_sum, String.toList_ofList, asciiLower, List.map_map]
    congr 1
    exact List.map_congr_left fun c _ => utf8Size_toLower c
  have hascii : (asciiLower value).all (fun c => decide (c.toNat < 128)) =
      value.toList.all fun c => decide (c.toNat < 128) := by
    rw [asciiLower, List.all_map]
    congr 1
    exact funext isAscii_toLower
  have hunderscore : (asciiLower value).contains '_' = value.toList.contains '_' := by
    rw [asciiLower, List.contains_eq_any_beq, List.contains_eq_any_beq, List.any_map]
    congr 1
    funext c
    rw [Function.comp_apply, BEq.comm, beq_toLower c (by decide), BEq.comm]
  rw [canonicalize_eq, canonicalize_eq, String.toList_ofList, hempty, hsize, hascii, hunderscore,
    asciiLower, hasOuterWhitespace_lower, canonicalChars_lower]

theorem canonicalize_congr {value other : String} (h : asciiLower value = asciiLower other) :
    canonicalize value = canonicalize other := by
  rw [← canonicalize_asciiLower value, h, canonicalize_asciiLower]

/-! ## Accepted texts -/

/-- Letters, digits and hyphens pass the first checks. -/
theorem canonicalize_of_tagChars {value : String} (hne : value.toList ≠ [])
    (hsize : value.utf8ByteSize ≤ maxLanguageTagLength)
    (hchars : ∀ c ∈ value.toList, tagChar c = true) :
    canonicalize value = canonicalChars value.toList := by
  have hchar : ∀ c ∈ value.toList, c.toNat < 128 ∧ isWhitespace c = false ∧ c ≠ '_' := by
    intro c hc
    have htag := hchars c hc
    simp only [tagChar, Bool.or_eq_true, beq_iff_eq] at htag
    rcases htag with halphanum | rfl
    · rw [isAlphanum_iff] at halphanum
      refine ⟨by omega, ?_, ?_⟩
      · simp only [isWhitespace, Bool.or_eq_false_iff, Bool.and_eq_false_iff,
          decide_eq_false_iff_not, beq_eq_false_iff_ne]
        omega
      · rintro rfl
        have hcode : '_'.toNat = 95 := rfl
        omega
    · exact ⟨by decide, by decide, by decide⟩
  have hspace : hasOuterWhitespace value.toList = false := by
    rw [hasOuterWhitespace, Bool.or_eq_false_iff]
    constructor
    · cases hhead : value.toList.head? with
      | none => rfl
      | some c => exact (hchar c (List.mem_of_mem_head? hhead)).2.1
    · cases hlast : value.toList.getLast? with
      | none => rfl
      | some c => exact (hchar c (List.mem_of_getLast? hlast)).2.1
  have hunderscore : value.toList.contains '_' = false := by
    rw [← Bool.not_eq_true, List.contains_iff_mem]
    intro hmem
    exact (hchar _ hmem).2.2 rfl
  have hascii : (!value.toList.all fun c => decide (c.toNat < 128)) = false := by
    rw [Bool.not_eq_false', List.all_eq_true]
    intro c hc
    exact decide_eq_true (hchar c hc).1
  rw [canonicalize_eq, if_neg (by simpa using hne), if_neg (Nat.not_lt.mpr hsize),
    if_neg (by rw [hascii]; decide), if_neg (by rw [hspace, hunderscore]; decide)]

/-- An accepted text is short, and was accepted behind the first checks. -/
theorem canonicalize_ok {value canonical : String} (h : canonicalize value = .ok canonical) :
    value.utf8ByteSize ≤ maxLanguageTagLength ∧ canonicalChars value.toList = .ok canonical := by
  rw [canonicalize_eq] at h
  by_cases hempty : value.toList.isEmpty = true
  · rw [if_pos hempty] at h
    cases h
  rw [if_neg hempty] at h
  by_cases hsize : maxLanguageTagLength < value.utf8ByteSize
  · rw [if_pos hsize] at h
    cases h
  rw [if_neg hsize] at h
  split at h
  · cases h
  split at h
  · cases h
  exact ⟨Nat.le_of_not_lt hsize, h⟩

/-- The table has the grandfathered tags, each in lower case. -/
theorem canonicalGrandfathered_isSome_iff {chars : List Char} :
    (∃ canonical, canonicalGrandfathered chars = some canonical) ↔
      ∃ tag ∈ rfcGrandfathered, chars.map Char.toLower = asciiLower tag := by
  have htable : ∀ entry ∈ grandfathered, ∃ tag ∈ rfcGrandfathered,
      entry.1.toList = asciiLower tag := by decide +kernel
  have hlisted : ∀ tag ∈ rfcGrandfathered, ∃ entry ∈ grandfathered,
      entry.1.toList = asciiLower tag := by decide +kernel
  constructor
  · rintro ⟨canonical, h⟩
    obtain ⟨entry, hentry, _⟩ := Option.map_eq_some_iff.mp h
    obtain ⟨tag, htag, heq⟩ := htable entry (List.mem_of_find?_eq_some hentry)
    have hfound : chars.map Char.toLower = entry.1.toList :=
      beq_iff_eq.mp (List.find?_some hentry :)
    exact ⟨tag, htag, hfound.trans heq⟩
  · rintro ⟨tag, htag, hsame⟩
    obtain ⟨entry, hentry, heq⟩ := hlisted tag htag
    have hfound : (grandfathered.find? fun entry =>
        chars.map Char.toLower == entry.1.toList).isSome = true := by
      rw [List.find?_isSome]
      exact ⟨entry, hentry, beq_iff_eq.mpr (hsame.trans heq.symm)⟩
    obtain ⟨found, hsome⟩ := Option.isSome_iff_exists.mp hfound
    exact ⟨found.2, by rw [canonicalGrandfathered, hsome]; rfl⟩

/-- Well-formed subtags are accepted when they are those of a tag of the grammar. -/
theorem canonicalSubtags_isSome_iff {subtags : List Subtag}
    (hwell : ∀ s ∈ subtags, Subtag.wellFormed s = true) :
    (∃ canonical, canonicalSubtags subtags = some canonical) ↔
      (∃ tag : Langtag, tag.spelled = subtags ∧ tag.NoDuplicates) ∨
        ∃ tag : PrivateUse, tag.spelled = subtags := by
  cases subtags with
  | nil =>
      constructor
      · rintro ⟨_, h⟩
        cases h
      · rintro (⟨_, h, _⟩ | ⟨_, h⟩)
        · cases h
        · cases h
  | cons first rest =>
      rw [canonicalSubtags]
      by_cases hx : first.isX = true
      · rw [if_pos hx]
        constructor
        · rintro ⟨canonical, h⟩
          obtain ⟨hnonEmpty, _⟩ := Option.ite_none_left_eq_some.mp h
          exact .inr ⟨⟨first, rest, beq_iff_eq.mp hx, by simpa using hnonEmpty, fun s hs =>
            Subtag.of_wellFormed (hwell s (List.mem_cons_of_mem _ hs))⟩, rfl⟩
        · rintro (⟨tag, h, _⟩ | ⟨tag, h⟩)
          · -- A language has two letters or more.
            obtain ⟨rfl, _⟩ := List.cons.inj h
            have hlength := Subtag.length_of_isX (beq_iff_eq.mp hx)
            have hlow := tag.languageValid.atLeast
            omega
          · obtain ⟨_, rfl⟩ := List.cons.inj h
            exact ⟨_, if_neg (by simpa using tag.nonEmpty)⟩
      · rw [if_neg hx, canonicalLangtag_isSome_iff hwell]
        constructor
        · exact .inl
        · rintro (h | ⟨tag, h⟩)
          · exact h
          · obtain ⟨rfl, _⟩ := List.cons.inj h
            exact absurd (beq_iff_eq.mpr tag.isX) hx

theorem PrivateUse.wellFormed_spelled (tag : PrivateUse) :
    ∀ s ∈ tag.spelled, Subtag.wellFormed s = true := by
  intro s hs
  rcases List.mem_cons.mp hs with rfl | hs
  · have hx : Subtag.wellFormed tag.marker.lower = true := by
      rw [tag.isX]
      decide
    rwa [Subtag.wellFormed_lower] at hx
  · exact (tag.subtagsValid s hs).wellFormed (by decide) (by decide) fun _ => id

theorem Langtag.wellFormed_spelled (tag : Langtag) :
    ∀ s ∈ tag.spelled, Subtag.wellFormed s = true := by
  have halpha : ∀ c : Char, c.isAlpha = true → c.isAlphanum = true := fun c h => by
    simp [Char.isAlphanum, h]
  have hdigit : ∀ c : Char, c.isDigit = true → c.isAlphanum = true := fun c h => by
    simp [Char.isAlphanum, h]
  intro s hs
  simp only [spelled, rest, List.mem_cons, List.mem_append, Option.mem_toList,
    List.mem_flatMap] at hs
  rcases hs with rfl | hs | hs | hs | hs | ⟨extension, _, hs⟩ | hs
  · exact tag.languageValid.wellFormed (by decide) (by decide) halpha
  · exact (tag.extlangsValid s hs).wellFormed (by decide) (by decide) halpha
  · exact (tag.scriptValid s hs).wellFormed (by decide) (by decide) halpha
  · rcases tag.regionValid s hs with h | h
    · exact h.wellFormed (by decide) (by decide) halpha
    · exact h.wellFormed (by decide) (by decide) hdigit
  · rcases tag.variantsValid s hs with h | h
    · exact h.wellFormed (by decide) (by decide) fun _ => id
    · exact h.1.wellFormed (by decide) (by decide) fun _ => id
  · rcases List.mem_cons.mp hs with rfl | hs
    · exact extension.singletonValid.wellFormed (by decide) (by decide) fun _ => id
    · exact (extension.subtagsValid s hs).wellFormed (by decide) (by decide) fun _ => id
  · unfold privateSubtags at hs
    cases huse : tag.privateUse with
    | none =>
        rw [huse] at hs
        cases hs
    | some privateUse =>
        rw [huse] at hs
        exact privateUse.wellFormed_spelled s hs

/-- A text of well-formed subtags is read as these subtags. -/
theorem canonicalize_of_subtags {value : String} {subtags : List Subtag}
    (hwell : ∀ s ∈ subtags, Subtag.wellFormed s = true)
    (hvalue : value.toList = ['-'].intercalate subtags) (hne : subtags ≠ [])
    (hsize : value.utf8ByteSize ≤ maxLanguageTagLength) :
    canonicalize value = canonicalChars value.toList ∧ value.toList.splitOn '-' = subtags := by
  have hclean : ∀ s ∈ subtags, Subtag.Clean s := fun s hs => Subtag.clean_of_wellFormed (hwell s hs)
  have hsplit : value.toList.splitOn '-' = subtags := by
    rw [hvalue]
    apply List.splitOn_intercalate '-' _ hne
    intro s hs hhyphen
    have halphanum := hclean s hs '-' hhyphen
    cases halphanum
  have hchars : ∀ c ∈ value.toList, tagChar c = true := by
    have hjoin := joinSubtags_clean hclean
    rwa [joinSubtags, String.toList_ofList, ← hvalue, List.all_eq_true] at hjoin
  have hvalueNe : value.toList ≠ [] := by
    intro hnil
    rw [hnil, List.splitOn_nil] at hsplit
    have hempty := hwell [] (hsplit ▸ List.mem_singleton_self [])
    cases hempty
  exact ⟨canonicalize_of_tagChars hvalueNe hsize hchars, hsplit⟩

/-- `canonicalize` accepts exactly the short well-formed tags. -/
theorem canonicalize_isOk_iff (value : String) :
    (∃ canonical, canonicalize value = .ok canonical) ↔
      value.utf8ByteSize ≤ maxLanguageTagLength ∧ WellFormedTag value := by
  have hsubtags : ∀ subtags : List Subtag, (∀ s ∈ subtags, Subtag.wellFormed s = true) →
      value.toList = ['-'].intercalate subtags → value.utf8ByteSize ≤ maxLanguageTagLength →
      (∃ canonical, canonicalSubtags subtags = some canonical) →
      ∃ canonical, canonicalize value = .ok canonical := by
    rintro subtags hwell hvalue hsize ⟨canonical, hcanonical⟩
    have hne : subtags ≠ [] := by
      rintro rfl
      cases hcanonical
    obtain ⟨heq, hsplit⟩ := canonicalize_of_subtags hwell hvalue hne hsize
    have hany : ¬ (subtags.any fun s => !Subtag.wellFormed s) = true := by
      simpa using hwell
    rw [heq, canonicalChars, hsplit]
    cases canonicalGrandfathered value.toList with
    | some spelled => exact ⟨spelled, rfl⟩
    | none => exact ⟨joinSubtags canonical, by simp only [if_neg hany, hcanonical]⟩
  constructor
  · rintro ⟨canonical, h⟩
    obtain ⟨hsize, hchars⟩ := canonicalize_ok h
    refine ⟨hsize, ?_⟩
    rw [canonicalChars] at hchars
    split at hchars
    · rename_i spelled hgrandfathered
      obtain ⟨tag, htag, hsame⟩ := canonicalGrandfathered_isSome_iff.mp ⟨spelled, hgrandfathered⟩
      exact .grandfathered tag htag hsame
    · dsimp only at hchars
      split at hchars
      · cases hchars
      · rename_i hany
        have hwell : ∀ s ∈ value.toList.splitOn '-', Subtag.wellFormed s = true := by
          simpa using hany
        have hvalue : value.toList = ['-'].intercalate (value.toList.splitOn '-') :=
          (List.intercalate_splitOn '-').symm
        split at hchars
        · rename_i spelled hspelled
          rcases (canonicalSubtags_isSome_iff hwell).mp ⟨spelled, hspelled⟩ with
            ⟨tag, htag, hdistinct⟩ | ⟨tag, htag⟩
          · exact .langtag tag (by rw [htag]; exact hvalue) hdistinct
          · exact .privateUse tag (by rw [htag]; exact hvalue)
        · cases hchars
  · rintro ⟨hsize, htag⟩
    cases htag with
    | langtag tag hvalue hdistinct =>
        exact hsubtags _ tag.wellFormed_spelled hvalue hsize
          ((canonicalSubtags_isSome_iff tag.wellFormed_spelled).mpr (.inl ⟨tag, rfl, hdistinct⟩))
    | privateUse tag hvalue =>
        exact hsubtags _ tag.wellFormed_spelled hvalue hsize
          ((canonicalSubtags_isSome_iff tag.wellFormed_spelled).mpr (.inr ⟨tag, rfl⟩))
    | grandfathered tag htag hsame =>
        -- The text is a listed tag in some case, so it has the characters of one.
        obtain ⟨spelled, hspelled⟩ := canonicalGrandfathered_isSome_iff.mpr ⟨tag, htag, hsame⟩
        have htable : (rfcGrandfathered.all fun tag =>
            !(asciiLower tag).isEmpty && (asciiLower tag).all tagChar) = true := by decide +kernel
        have hlisted := List.all_eq_true.mp htable tag htag
        rw [← hsame] at hlisted
        simp only [asciiLower, Bool.and_eq_true, Bool.not_eq_true',
          List.isEmpty_eq_false_iff, List.all_eq_true] at hlisted
        obtain ⟨hne, hchars⟩ := hlisted
        have hplain : ∀ c ∈ value.toList, tagChar c = true := by
          intro c hc
          have hlower := hchars _ (List.mem_map_of_mem hc)
          rwa [tagChar, isAlphanum_toLower_eq, beq_toLower c (by decide)] at hlower
        rw [canonicalize_of_tagChars (by simpa using hne) hsize hplain, canonicalChars, hspelled]
        exact ⟨spelled, rfl⟩

/-- The spelling of an accepted text is accepted and returned. -/
theorem canonicalize_stable {value canonical : String} (h : canonicalize value = .ok canonical) :
    canonicalize canonical = .ok canonical := by
  have hchars := (canonicalize_ok h).2
  rw [canonicalChars] at hchars
  split at hchars
  · rename_i spelled hgrandfathered
    cases hchars
    obtain ⟨entry, hentry, rfl⟩ := Option.map_eq_some_iff.mp hgrandfathered
    have htable : ∀ entry ∈ grandfathered, canonicalize entry.2 = .ok entry.2 := by decide +kernel
    exact htable entry (List.mem_of_find?_eq_some hentry)
  · dsimp only at hchars
    split at hchars
    · cases hchars
    · split at hchars
      · rename_i spelled hspelled
        cases hchars
        -- The spelling differs from the text in the case only.
        have hsame : asciiLower (joinSubtags spelled) = asciiLower value := by
          have hlower := canonicalSubtags_lower hspelled
          rw [asciiLower, joinSubtags, String.toList_ofList, intercalate_map_toLower, hlower,
            ← intercalate_map_toLower, List.intercalate_splitOn, asciiLower]
        rw [canonicalize_congr hsame, h]
      · cases hchars

/-- **Language hints.** A text is accepted exactly when it has at most 64 bytes and is, in any case,
a `langtag` without duplicates, a private use or a grandfathered tag; the spelling of a hint is
parsed as the hint; and texts that differ in ASCII case only are parsed the same. -/
theorem languageHint_grammar :
    (∀ value, (∃ hint, LanguageHint.fromStr? value = .ok hint) ↔
      value.utf8ByteSize ≤ 64 ∧ WellFormedTag value) ∧
    (∀ value hint, LanguageHint.fromStr? value = .ok hint →
      LanguageHint.fromStr? hint.asStr = .ok hint) ∧
    ∀ value other, asciiLower value = asciiLower other →
      LanguageHint.fromStr? value = LanguageHint.fromStr? other := by
  refine ⟨fun value => ?_, fun value hint h => ?_, fun value other h => ?_⟩
  · rw [← maxLanguageTagLength, ← canonicalize_isOk_iff, LanguageHint.fromStr?]
    cases canonicalize value with
    | ok canonical => exact ⟨fun _ => ⟨canonical, rfl⟩, fun _ => ⟨⟨canonical⟩, rfl⟩⟩
    | error e =>
        constructor
        · rintro ⟨_, h⟩
          cases h
        · rintro ⟨_, h⟩
          cases h
  · unfold LanguageHint.fromStr? at h ⊢
    cases hcanonical : canonicalize value with
    | error e =>
        rw [hcanonical] at h
        cases h
    | ok canonical =>
        rw [hcanonical] at h
        cases h
        rw [canonicalize_stable hcanonical]
        rfl
  · rw [LanguageHint.fromStr?, LanguageHint.fromStr?, canonicalize_congr h]

end Waveform.Domain
