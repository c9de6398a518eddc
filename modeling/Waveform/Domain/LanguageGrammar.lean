import Mathlib.Data.List.Nodup
import Waveform.Domain.Language

/-!
# Language hints against the grammar of RFC 5646

The grammar names the parts of a tag: a `Langtag` is built from valid parts only, and spells them in
their order. The parser takes what it can at each position. No subtag fits two positions outside an
extension, so both read the same parts.

- `canonicalLangtag_isSome_iff`: the subtags of a `langtag` are accepted exactly when they are the
  parts of one without duplicates.
- `canonicalize_isOk_iff`: a text is accepted exactly when it is short and well formed.
- `languageHint_grammar`: with the canonical spelling being stable, and the same for texts
  that differ in ASCII case.
-/

set_option autoImplicit false

namespace Waveform.Domain

/-! ## The grammar -/

/-- `low*highCLASS`. -/
structure Subtag.Of (charClass : Char → Bool) (low high : Nat) (subtag : Subtag) : Prop where
  atLeast : low ≤ subtag.length
  atMost : subtag.length ≤ high
  chars : ∀ c ∈ subtag, charClass c = true

/-- `variant = 5*8alphanum / (DIGIT 3alphanum)`. -/
def Subtag.VariantShape (subtag : Subtag) : Prop :=
  Subtag.Of Char.isAlphanum 5 8 subtag ∨
    (Subtag.Of Char.isAlphanum 4 4 subtag ∧ subtag.head?.any Char.isDigit = true)

/-- `region = 2ALPHA / 3DIGIT`. -/
def Subtag.RegionShape (subtag : Subtag) : Prop :=
  Subtag.Of Char.isAlpha 2 2 subtag ∨ Subtag.Of Char.isDigit 3 3 subtag

/-- `extension = singleton 1*("-" (2*8alphanum))`, the singleton any letter or digit but x. -/
structure Extension where
  singleton : Subtag
  subtags : List Subtag
  singletonValid : Subtag.Of Char.isAlphanum 1 1 singleton
  notX : singleton.lower ≠ ['x']
  nonEmpty : subtags ≠ []
  subtagsValid : ∀ subtag ∈ subtags, Subtag.Of Char.isAlphanum 2 8 subtag

/-- `privateuse = "x" 1*("-" (1*8alphanum))`. -/
structure PrivateUse where
  marker : Subtag
  subtags : List Subtag
  isX : marker.lower = ['x']
  nonEmpty : subtags ≠ []
  subtagsValid : ∀ subtag ∈ subtags, Subtag.Of Char.isAlphanum 1 8 subtag

/-- `langtag = language ["-" script] ["-" region] *("-" variant) *("-" extension)
["-" privateuse]`, where a language of two or three letters may be followed by three extended
languages at most. -/
structure Langtag where
  language : Subtag
  extlangs : List Subtag
  script : Option Subtag
  region : Option Subtag
  variants : List Subtag
  extensions : List Extension
  privateUse : Option PrivateUse
  languageValid : Subtag.Of Char.isAlpha 2 8 language
  extlangsValid : ∀ subtag ∈ extlangs, Subtag.Of Char.isAlpha 3 3 subtag
  extlangsFew : extlangs.length ≤ 3
  extlangsShort : extlangs ≠ [] → language.length ≤ 3
  scriptValid : ∀ subtag ∈ script, Subtag.Of Char.isAlpha 4 4 subtag
  regionValid : ∀ subtag ∈ region, subtag.RegionShape
  variantsValid : ∀ subtag ∈ variants, subtag.VariantShape

/-- The subtags of an extension. -/
def Extension.spelled (extension : Extension) : List Subtag :=
  extension.singleton :: extension.subtags

/-- The subtags of a private use. -/
def PrivateUse.spelled (privateUse : PrivateUse) : List Subtag :=
  privateUse.marker :: privateUse.subtags

namespace Langtag

/-- The subtags of a private use at the end, when there is one. -/
def privateSubtags (tag : Langtag) : List Subtag := (tag.privateUse.map PrivateUse.spelled).getD []

/-- The subtags of a tag behind its language. -/
def rest (tag : Langtag) : List Subtag :=
  tag.extlangs ++ (tag.script.toList ++ (tag.region.toList ++ (tag.variants ++
    (tag.extensions.flatMap Extension.spelled ++ tag.privateSubtags))))

/-- The subtags of a tag. -/
def spelled (tag : Langtag) : List Subtag := tag.language :: tag.rest

/-- No variant and no singleton appears twice, in any case. -/
structure NoDuplicates (tag : Langtag) : Prop where
  variants : (tag.variants.map Subtag.lower).Nodup
  singletons : (tag.extensions.map fun extension => extension.singleton.lower).Nodup

end Langtag

/-- The grandfathered tags of RFC 5646, the irregular ones first. -/
def rfcGrandfathered : List String :=
  ["en-GB-oed", "i-ami", "i-bnn", "i-default", "i-enochian", "i-hak", "i-klingon", "i-lux",
    "i-mingo", "i-navajo", "i-pwn", "i-tao", "i-tay", "i-tsu", "sgn-BE-FR", "sgn-BE-NL",
    "sgn-CH-DE", "art-lojban", "cel-gaulish", "no-bok", "no-nyn", "zh-guoyu", "zh-hakka", "zh-min",
    "zh-min-nan", "zh-xiang"]

/-- The letters of a text in lower case. -/
def asciiLower (text : String) : List Char := text.toList.map Char.toLower

/-- `Language-Tag = langtag / privateuse / grandfathered`. -/
inductive WellFormedTag (text : String) : Prop where
  | langtag (tag : Langtag) (h : text.toList = ['-'].intercalate tag.spelled)
      (distinct : tag.NoDuplicates)
  | privateUse (tag : PrivateUse) (h : text.toList = ['-'].intercalate tag.spelled)
  | grandfathered (tag : String) (h : tag ∈ rfcGrandfathered)
      (same : asciiLower text = asciiLower tag)

/-! ## Shapes -/

theorem isAlpha_iff {c : Char} : c.isAlpha = true ↔
    (65 ≤ c.toNat ∧ c.toNat ≤ 90) ∨ (97 ≤ c.toNat ∧ c.toNat ≤ 122) := by
  have hranges : c.isAlpha = (decide ('A'.val ≤ c.val ∧ c.val ≤ 'Z'.val) ||
      (decide ('a'.val ≤ c.val) && decide (c.val ≤ 'z'.val))) := rfl
  rw [hranges]
  simp [UInt32.le_iff_toNat_le]

theorem isDigit_iff {c : Char} : c.isDigit = true ↔ 48 ≤ c.toNat ∧ c.toNat ≤ 57 := by
  simp [Char.isDigit, UInt32.le_iff_toNat_le]

theorem not_isAlpha_of_digit {c : Char} (h : c.isDigit = true) : c.isAlpha = false := by
  rw [isDigit_iff] at h
  rw [← Bool.not_eq_true, isAlpha_iff]
  omega

namespace Subtag

variable {subtag : Subtag}

/-- The position of a subtag that is not within an extension: an extended language, a script, a
region, a variant, a singleton or the x of a private use. -/
def position (subtag : Subtag) : Nat :=
  if subtag.length == 3 && subtag.isAlpha then 0
  else if subtag.length == 4 && subtag.isAlpha then 1
  else if subtag.isRegion then 2
  else if subtag.isVariant then 3
  else if subtag.length == 1 && !subtag.isX then 4
  else 5

theorem of_alpha_iff {low : Nat} :
    (subtag.length == low && subtag.isAlpha) = true ↔ Subtag.Of Char.isAlpha low low subtag := by
  rw [Bool.and_eq_true, beq_iff_eq, isAlpha, List.all_eq_true]
  constructor
  · rintro ⟨rfl, hchars⟩
    exact ⟨Nat.le_refl _, Nat.le_refl _, hchars⟩
  · rintro ⟨hlow, hhigh, hchars⟩
    exact ⟨Nat.le_antisymm hhigh hlow, hchars⟩

theorem isRegion_iff : subtag.isRegion = true ↔ subtag.RegionShape := by
  rw [isRegion, Bool.or_eq_true, of_alpha_iff, Bool.and_eq_true, beq_iff_eq, List.all_eq_true,
    RegionShape]
  refine or_congr_right ⟨?_, ?_⟩
  · rintro ⟨hlength, hchars⟩
    exact ⟨Nat.le_of_eq hlength.symm, Nat.le_of_eq hlength, hchars⟩
  · rintro ⟨hlow, hhigh, hchars⟩
    exact ⟨Nat.le_antisymm hhigh hlow, hchars⟩

theorem VariantShape.isVariant (h : subtag.VariantShape) : subtag.isVariant = true := by
  rcases h with ⟨hlow, hhigh, _⟩ | ⟨⟨hlow, hhigh, _⟩, hdigit⟩
  · simp [Subtag.isVariant, hlow, hhigh]
  · simp [Subtag.isVariant, Nat.le_antisymm hhigh hlow, hdigit]

theorem variantShape_of_isVariant (h : subtag.isVariant = true) (hclean : subtag.Clean) :
    subtag.VariantShape := by
  simp only [isVariant, Bool.or_eq_true, Bool.and_eq_true, decide_eq_true_eq, beq_iff_eq] at h
  rcases h with ⟨hlow, hhigh⟩ | ⟨hlength, hdigit⟩
  · exact .inl ⟨hlow, hhigh, hclean⟩
  · exact .inr ⟨⟨Nat.le_of_eq hlength.symm, Nat.le_of_eq hlength, hclean⟩, hdigit⟩

theorem position_extlang (h : Of Char.isAlpha 3 3 subtag) : subtag.position = 0 := by
  rw [position, if_pos (of_alpha_iff.mpr h)]

theorem position_script (h : Of Char.isAlpha 4 4 subtag) : subtag.position = 1 := by
  have hlength : subtag.length = 4 := Nat.le_antisymm h.atMost h.atLeast
  rw [position, if_neg (by simp [hlength]), if_pos (of_alpha_iff.mpr h)]

theorem position_region (h : subtag.RegionShape) : subtag.position = 2 := by
  have hregion := isRegion_iff.mpr h
  rcases h with h | h
  · have hlength : subtag.length = 2 := Nat.le_antisymm h.atMost h.atLeast
    rw [position, if_neg (by simp [hlength]), if_neg (by simp [hlength]), if_pos hregion]
  · -- Three digits are not three letters.
    have hlength : subtag.length = 3 := Nat.le_antisymm h.atMost h.atLeast
    have halpha : subtag.isAlpha = false := by
      match subtag, hlength with
      | c :: _, _ =>
        simp [isAlpha, not_isAlpha_of_digit (h.chars c List.mem_cons_self)]
    rw [position, if_neg (by simp [halpha]), if_neg (by simp [hlength]), if_pos hregion]

theorem position_variant (h : subtag.VariantShape) : subtag.position = 3 := by
  have hvariant := h.isVariant
  rcases h with ⟨hlow, _, _⟩ | ⟨⟨hlow, hhigh, _⟩, hdigit⟩
  · have hregion : subtag.isRegion = false := by
      simp only [isRegion, Bool.or_eq_false_iff, Bool.and_eq_false_iff, beq_eq_false_iff_ne]
      exact ⟨.inl (by omega), .inl (by omega)⟩
    rw [position, if_neg (by simp; omega), if_neg (by simp; omega), if_neg (by simp [hregion]),
      if_pos hvariant]
  · have hlength : subtag.length = 4 := Nat.le_antisymm hhigh hlow
    have halpha : subtag.isAlpha = false := by
      match subtag, hdigit with
      | c :: _, hdigit => simp [isAlpha, not_isAlpha_of_digit (c := c) hdigit]
    have hregion : subtag.isRegion = false := by simp [isRegion, hlength]
    rw [position, if_neg (by simp [hlength]), if_neg (by simp [halpha]), if_neg (by simp [hregion]),
      if_pos hvariant]

theorem position_single (h : subtag.length = 1) : subtag.position = if subtag.isX then 5
    else 4 := by
  have hregion : subtag.isRegion = false := by simp [isRegion, h]
  have hvariant : subtag.isVariant = false := by simp [isVariant, h]
  rw [position, if_neg (by simp [h]), if_neg (by simp [h]), if_neg (by simp [hregion]),
    if_neg (by simp [hvariant])]
  cases hx : subtag.isX <;> simp [h]

theorem length_of_isX (h : subtag.lower = ['x']) : subtag.length = 1 := by
  have hlength := congrArg List.length h
  rwa [lower, List.length_map] at hlength

end Subtag

/-- The subtags start at a position or behind it. -/
def StartsFrom (position : Nat) (subtags : List Subtag) : Prop :=
  ∀ subtag ∈ subtags.head?, position ≤ subtag.position

theorem startsFrom_nil (position : Nat) : StartsFrom position [] := fun _ h => nomatch h

theorem StartsFrom.mono {position lower : Nat} {subtags : List Subtag}
    (h : StartsFrom position subtags) (hle : lower ≤ position) : StartsFrom lower subtags :=
  fun subtag hmem => Nat.le_trans hle (h subtag hmem)

/-- Parts of one position in front of what is behind it. -/
theorem StartsFrom.append {position : Nat} {part rest : List Subtag}
    (hpart : ∀ subtag ∈ part, subtag.position = position) (h : StartsFrom (position + 1) rest) :
    StartsFrom position (part ++ rest) := by
  intro subtag hmem
  cases part with
  | nil => exact h.mono (Nat.le_succ _) subtag hmem
  | cons first part =>
      obtain rfl : first = subtag := Option.some.inj hmem
      exact Nat.le_of_eq (hpart first List.mem_cons_self).symm

/-! ## The stages take the parts in front -/

section Stages

variable {canonical rest : List Subtag}

theorem takeExtlangs_append {taken : List Subtag}
    (hvalid : ∀ s ∈ taken, Subtag.Of Char.isAlpha 3 3 s)
    (h : StartsFrom 1 rest) {count : Nat} (hcount : taken.length ≤ count) :
    takeExtlangs count (canonical, taken ++ rest) =
      (canonical ++ taken.map Subtag.lower, rest) := by
  induction taken generalizing canonical count with
  | nil =>
      cases count with
      | zero => simp [takeExtlangs]
      | succ count =>
          cases rest with
          | nil => simp [takeExtlangs]
          | cons subtag rest =>
              -- What is behind the extended languages is not one.
              have hstop : ¬ (subtag.length == 3 && subtag.isAlpha) = true := by
                intro hext
                have hposition := h subtag rfl
                rw [Subtag.position_extlang (Subtag.of_alpha_iff.mp hext)] at hposition
                omega
              rw [List.nil_append, takeExtlangs, if_neg hstop, List.map_nil, List.append_nil]
  | cons subtag taken ih =>
      cases count with
      | zero => simp at hcount
      | succ count =>
          have hext := Subtag.of_alpha_iff.mpr (hvalid subtag List.mem_cons_self)
          rw [List.cons_append, takeExtlangs, if_pos hext,
            ih (fun s hs => hvalid s (List.mem_cons_of_mem _ hs)) (by simpa using hcount),
            List.map_cons, List.append_assoc, List.singleton_append]

/-- Three extended languages end the loop, whatever is behind them. -/
theorem takeExtlangs_exists (count : Nat) :
    ∃ taken, rest = taken ++ (takeExtlangs count (canonical, rest)).2 ∧ taken.length ≤ count ∧
      ∀ s ∈ taken, Subtag.Of Char.isAlpha 3 3 s := by
  induction count generalizing canonical rest with
  | zero => exact ⟨[], by cases rest <;> rfl, Nat.le_refl _, fun _ h => nomatch h⟩
  | succ count ih =>
      cases rest with
      | nil => exact ⟨[], rfl, Nat.zero_le _, fun _ h => nomatch h⟩
      | cons subtag rest =>
          rw [takeExtlangs]
          split
          · rename_i hext
            obtain ⟨taken, hrest, hcount, hvalid⟩ :=
              ih
            refine ⟨subtag :: taken, by rw [List.cons_append, ← hrest], Nat.succ_le_succ hcount, ?_⟩
            intro s hs
            rcases List.mem_cons.mp hs with rfl | hs
            · exact Subtag.of_alpha_iff.mp hext
            · exact hvalid s hs
          · exact ⟨[], rfl, Nat.zero_le _, fun _ h => nomatch h⟩

theorem takeScript_append {script : Option Subtag}
    (hvalid : ∀ s ∈ script, Subtag.Of Char.isAlpha 4 4 s) (h : StartsFrom 2 rest) :
    (takeScript (canonical, script.toList ++ rest)).2 = rest := by
  cases script with
  | some subtag =>
      rw [Option.toList_some, List.singleton_append, takeScript,
        if_pos (Subtag.of_alpha_iff.mpr (hvalid subtag rfl))]
  | none =>
      cases rest with
      | nil => rfl
      | cons subtag rest =>
          have hstop : ¬ (subtag.length == 4 && subtag.isAlpha) = true := by
            intro hscript
            have hposition := h subtag rfl
            rw [Subtag.position_script (Subtag.of_alpha_iff.mp hscript)] at hposition
            omega
          rw [Option.toList_none, List.nil_append, takeScript, if_neg hstop]

theorem takeScript_exists :
    ∃ script : Option Subtag, rest = script.toList ++ (takeScript (canonical, rest)).2 ∧
      ∀ s ∈ script, Subtag.Of Char.isAlpha 4 4 s := by
  cases rest with
  | nil => exact ⟨none, rfl, fun _ h => nomatch h⟩
  | cons subtag rest =>
      rw [takeScript]
      split
      · rename_i hscript
        refine ⟨some subtag, rfl, fun s hs => ?_⟩
        obtain rfl : subtag = s := Option.some.inj hs
        exact Subtag.of_alpha_iff.mp hscript
      · exact ⟨none, rfl, fun _ h => nomatch h⟩

theorem takeRegion_append {region : Option Subtag} (hvalid : ∀ s ∈ region, Subtag.RegionShape s)
    (h : StartsFrom 3 rest) : (takeRegion (canonical, region.toList ++ rest)).2 = rest := by
  cases region with
  | some subtag =>
      rw [Option.toList_some, List.singleton_append, takeRegion,
        if_pos (Subtag.isRegion_iff.mpr (hvalid subtag rfl))]
  | none =>
      cases rest with
      | nil => rfl
      | cons subtag rest =>
          have hstop : ¬ subtag.isRegion = true := by
            intro hregion
            have hposition := h subtag rfl
            rw [Subtag.position_region (Subtag.isRegion_iff.mp hregion)] at hposition
            omega
          rw [Option.toList_none, List.nil_append, takeRegion, if_neg hstop]

theorem takeRegion_exists :
    ∃ region : Option Subtag, rest = region.toList ++ (takeRegion (canonical, rest)).2 ∧
      ∀ s ∈ region, Subtag.RegionShape s := by
  cases rest with
  | nil => exact ⟨none, rfl, fun _ h => nomatch h⟩
  | cons subtag rest =>
      rw [takeRegion]
      split
      · rename_i hregion
        refine ⟨some subtag, rfl, fun s hs => ?_⟩
        obtain rfl : subtag = s := Option.some.inj hs
        exact Subtag.isRegion_iff.mp hregion
      · exact ⟨none, rfl, fun _ h => nomatch h⟩

/-- The lower-case spellings of the parts are new and different. -/
def Fresh (seen spelled : List Subtag) : Prop := spelled.Nodup ∧ ∀ s ∈ spelled, s ∉ seen

theorem fresh_nil (seen : List Subtag) : Fresh seen [] := ⟨List.nodup_nil, List.forall_mem_nil _⟩

theorem fresh_of_nodup {spelled : List Subtag} (h : spelled.Nodup) : Fresh [] spelled :=
  ⟨h, fun _ _ => List.not_mem_nil⟩

theorem fresh_cons {seen spelled : List Subtag} {subtag : Subtag} :
    Fresh seen (subtag :: spelled) ↔ subtag ∉ seen ∧ Fresh (subtag :: seen) spelled := by
  simp only [Fresh, List.nodup_cons, List.mem_cons, not_or, forall_eq_or_imp]
  constructor
  · rintro ⟨⟨hnew, hnodup⟩, hseen, hall⟩
    exact ⟨hseen, hnodup, fun s hs => ⟨fun heq => hnew (heq ▸ hs), hall s hs⟩⟩
  · rintro ⟨hseen, hnodup, hall⟩
    exact ⟨⟨fun hmem => (hall subtag hmem).1 rfl, hnodup⟩, hseen, fun s hs => (hall s hs).2⟩

theorem takeVariants_append {taken seen : List Subtag} (hvalid : ∀ s ∈ taken, Subtag.VariantShape s)
    (hfresh : Fresh seen (taken.map Subtag.lower)) (h : StartsFrom 4 rest)
    (hclean : ∀ s ∈ rest, Subtag.Clean s) :
    takeVariants seen canonical (taken ++ rest) =
      some (canonical ++ taken.map Subtag.lower, rest) := by
  induction taken generalizing canonical seen with
  | nil =>
      cases rest with
      | nil => simp [takeVariants]
      | cons subtag rest =>
          have hstop : ¬ subtag.isVariant = true := by
            intro hvariant
            have hshape := Subtag.variantShape_of_isVariant hvariant
              (hclean subtag List.mem_cons_self)
            have hposition := h subtag rfl
            rw [Subtag.position_variant hshape] at hposition
            omega
          rw [List.nil_append, takeVariants, if_neg hstop, List.map_nil, List.append_nil]
  | cons subtag taken ih =>
      rw [List.map_cons, fresh_cons] at hfresh
      have hnew : ¬ seen.contains subtag.lower = true := by simpa using hfresh.1
      rw [List.cons_append, takeVariants, if_pos (hvalid subtag List.mem_cons_self).isVariant,
        if_neg hnew, ih (fun s hs => hvalid s (List.mem_cons_of_mem _ hs)) hfresh.2, List.map_cons,
        List.append_assoc, List.singleton_append]

theorem takeVariants_exists {seen : List Subtag} {state : TagState}
    (hclean : ∀ s ∈ rest, Subtag.Clean s) (htake : takeVariants seen canonical rest = some state) :
    ∃ taken, rest = taken ++ state.2 ∧ (∀ s ∈ taken, Subtag.VariantShape s) ∧
      Fresh seen (taken.map Subtag.lower) := by
  induction rest generalizing canonical seen with
  | nil =>
      obtain rfl := Option.some.inj htake
      exact ⟨[], rfl, List.forall_mem_nil _, fresh_nil seen⟩
  | cons subtag rest ih =>
      rw [takeVariants] at htake
      split at htake
      · rename_i hvariant
        obtain ⟨hnew, htake⟩ := Option.ite_none_left_eq_some.mp htake
        obtain ⟨taken, hrest, hvalid, hfresh⟩ :=
          ih (fun s hs => hclean s (List.mem_cons_of_mem _ hs)) htake
        refine ⟨subtag :: taken, by rw [List.cons_append, ← hrest], ?_, ?_⟩
        · intro s hs
          rcases List.mem_cons.mp hs with rfl | hs
          · exact Subtag.variantShape_of_isVariant hvariant (hclean s List.mem_cons_self)
          · exact hvalid s hs
        · rw [List.map_cons, fresh_cons]
          exact ⟨by simpa using hnew, hfresh⟩
      · obtain rfl := Option.some.inj htake
        exact ⟨[], rfl, List.forall_mem_nil _, fresh_nil seen⟩

/-- The subtags of an extension are taken up to the next subtag of one character. -/
theorem takeExtensions_subtags {taken seen : List Subtag} {part : ExtensionPart}
    (hvalid : ∀ s ∈ taken, Subtag.Of Char.isAlphanum 2 8 s) (hpart : part ≠ .outside)
    (htaken : taken ≠ []) :
    takeExtensions seen part canonical (taken ++ rest) =
      takeExtensions seen .subtags (canonical ++ taken.map Subtag.lower) rest := by
  induction taken generalizing canonical part with
  | nil => exact absurd rfl htaken
  | cons subtag taken ih =>
      obtain ⟨hlow, hhigh, _⟩ := hvalid subtag List.mem_cons_self
      have hinner : (part ≠ .outside && decide (2 ≤ subtag.length) &&
          decide (subtag.length ≤ 8)) = true := by
        simp [hpart, hlow, hhigh]
      rw [List.cons_append, takeExtensions, if_pos hinner]
      cases taken with
      | nil => rfl
      | cons second taken =>
          rw [ih (fun s hs => hvalid s (List.mem_cons_of_mem _ hs)) (by decide)
            (List.cons_ne_nil _ _), List.append_assoc]
          rfl

theorem takeExtensions_append {extensions : List Extension} {seen : List Subtag}
    {part : ExtensionPart} (hpart : part ≠ .singleton)
    (hfresh : Fresh seen (extensions.map fun extension => extension.singleton.lower))
    (h : ∀ s ∈ rest.head?, s.isX = true) :
    ∃ spelled, takeExtensions seen part canonical (extensions.flatMap Extension.spelled ++ rest) =
      some (spelled, rest) := by
  induction extensions generalizing canonical seen part with
  | nil =>
      cases rest with
      | nil => exact ⟨canonical, by simp [takeExtensions, hpart]⟩
      | cons subtag rest =>
          have hx := h subtag rfl
          have hlength := Subtag.length_of_isX (beq_iff_eq.mp hx)
          refine ⟨canonical, ?_⟩
          rw [List.flatMap_nil, List.nil_append, takeExtensions, if_neg (by simp [hlength]),
            if_neg hpart, if_neg (by simp [hx])]
  | cons extension extensions ih =>
      rw [List.map_cons, fresh_cons] at hfresh
      have hlength : extension.singleton.length = 1 :=
        Nat.le_antisymm extension.singletonValid.atMost extension.singletonValid.atLeast
      have hx : extension.singleton.isX = false := by
        rw [Subtag.isX, beq_eq_false_iff_ne]
        exact extension.notX
      have hnew : ¬ seen.contains extension.singleton.lower = true := by simpa using hfresh.1
      rw [List.flatMap_cons, List.append_assoc, Extension.spelled, List.cons_append, takeExtensions,
        if_neg (by simp [hlength]), if_neg hpart, if_pos (by simp [hlength, hx]), if_neg hnew,
        takeExtensions_subtags extension.subtagsValid (by decide) extension.nonEmpty]
      exact ih (by decide) hfresh.2

/-- What the loops over the extensions took: the rest of the extension they were in, and whole
ones. -/
theorem takeExtensions_exists {seen : List Subtag} {part : ExtensionPart} {state : TagState}
    (hclean : ∀ s ∈ rest, Subtag.Clean s)
    (htake : takeExtensions seen part canonical rest = some state) :
    ∃ (inner : List Subtag) (extensions : List Extension),
      rest = inner ++ (extensions.flatMap Extension.spelled ++ state.2) ∧
      (∀ s ∈ inner, Subtag.Of Char.isAlphanum 2 8 s) ∧ (part = .outside → inner = []) ∧
      (part = .singleton → inner ≠ []) ∧
      Fresh seen (extensions.map fun extension => extension.singleton.lower) := by
  induction rest generalizing canonical seen part with
  | nil =>
      obtain ⟨hpart, hsome⟩ := Option.ite_none_left_eq_some.mp htake
      obtain rfl := Option.some.inj hsome
      exact ⟨[], [], rfl, List.forall_mem_nil _, fun _ => rfl, fun h => absurd h hpart,
        fresh_nil seen⟩
  | cons subtag rest ih =>
      have hrestClean : ∀ s ∈ rest, Subtag.Clean s := fun s hs =>
        hclean s (List.mem_cons_of_mem _ hs)
      rw [takeExtensions] at htake
      split at htake
      · -- A subtag of the extension the loop is in.
        rename_i hinner
        simp only [Bool.and_eq_true, decide_eq_true_eq] at hinner
        obtain ⟨⟨hpart, hlow⟩, hhigh⟩ := hinner
        obtain ⟨inner, extensions, hrest, hvalid, _, _, hfresh⟩ := ih hrestClean htake
        refine ⟨subtag :: inner, extensions, by rw [List.cons_append, ← hrest], ?_, ?_, ?_, hfresh⟩
        · intro s hs
          rcases List.mem_cons.mp hs with rfl | hs
          · exact ⟨hlow, hhigh, hclean s List.mem_cons_self⟩
          · exact hvalid s hs
        · intro hout
          exact absurd hout hpart
        · intro _
          exact List.cons_ne_nil _ _
      · obtain ⟨hpart, htake⟩ := Option.ite_none_left_eq_some.mp htake
        split at htake
        · -- The singleton of the next extension.
          rename_i hsingle
          simp only [Bool.and_eq_true, beq_iff_eq, Bool.not_eq_true'] at hsingle
          obtain ⟨hnew, htake⟩ := Option.ite_none_left_eq_some.mp htake
          obtain ⟨inner, extensions, hrest, hvalid, _, hinner, hfresh⟩ := ih hrestClean htake
          let extension : Extension :=
            { singleton := subtag
              subtags := inner
              singletonValid := ⟨Nat.le_of_eq hsingle.1.symm, Nat.le_of_eq hsingle.1,
                hclean subtag List.mem_cons_self⟩
              notX := by
                rw [← beq_eq_false_iff_ne]
                exact hsingle.2
              nonEmpty := hinner rfl
              subtagsValid := hvalid }
          refine ⟨[], extension :: extensions, ?_, List.forall_mem_nil _, fun _ => rfl,
            fun h => absurd h hpart, ?_⟩
          · rw [List.nil_append, List.flatMap_cons, List.append_assoc, hrest]
            rfl
          · rw [List.map_cons, fresh_cons]
            exact ⟨by simpa using hnew, hfresh⟩
        · obtain rfl := Option.some.inj htake
          exact ⟨[], [], rfl, List.forall_mem_nil _, fun _ => rfl, fun h => absurd h hpart,
            fresh_nil seen⟩

theorem Subtag.of_wellFormed {subtag : Subtag} (h : Subtag.wellFormed subtag = true) :
    Subtag.Of Char.isAlphanum 1 8 subtag := by
  simp only [Subtag.wellFormed, Bool.and_eq_true, Bool.not_eq_true', List.isEmpty_eq_false_iff,
    decide_eq_true_eq, List.all_eq_true] at h
  exact ⟨List.length_pos_of_ne_nil h.1.1, h.1.2, h.2⟩

theorem Subtag.Of.wellFormed {charClass : Char → Bool} {low high : Nat} {subtag : Subtag}
    (h : Subtag.Of charClass low high subtag) (hlow : 1 ≤ low) (hhigh : high ≤ 8)
    (hclass : ∀ c, charClass c = true → c.isAlphanum = true) : Subtag.wellFormed subtag = true := by
  have hpos : subtag ≠ [] := by
    rintro rfl
    have hzero := h.atLeast
    rw [List.length_nil] at hzero
    omega
  simp only [Subtag.wellFormed, Bool.and_eq_true, Bool.not_eq_true', List.isEmpty_eq_false_iff,
    decide_eq_true_eq, List.all_eq_true]
  exact ⟨⟨hpos, Nat.le_trans h.atMost hhigh⟩, fun c hc => hclass c (h.chars c hc)⟩

/-- What is left behind the extensions is nothing or a private use. -/
theorem takePrivateUse_iff (hwell : ∀ s ∈ rest, Subtag.wellFormed s = true) :
    (∃ spelled, takePrivateUse (canonical, rest) = some (spelled, [])) ↔
      ∃ privateUse : Option PrivateUse, rest = (privateUse.map PrivateUse.spelled).getD [] := by
  constructor
  · rintro ⟨spelled, htake⟩
    cases rest with
    | nil => exact ⟨none, rfl⟩
    | cons subtag rest =>
        rw [takePrivateUse] at htake
        split at htake
        · rename_i hx
          obtain ⟨hnonEmpty, _⟩ := Option.ite_none_left_eq_some.mp htake
          exact ⟨some ⟨subtag, rest, beq_iff_eq.mp hx, by simpa using hnonEmpty, fun s hs =>
            Subtag.of_wellFormed (hwell s (List.mem_cons_of_mem _ hs))⟩, rfl⟩
        · cases htake
  · rintro ⟨privateUse, rfl⟩
    cases privateUse with
    | none => exact ⟨canonical, rfl⟩
    | some tag =>
        refine ⟨canonical ++ [['x']] ++ tag.subtags.map Subtag.lower, ?_⟩
        change takePrivateUse (canonical, tag.marker :: tag.subtags) = _
        have hx : tag.marker.isX = true := beq_iff_eq.mpr tag.isX
        rw [takePrivateUse, if_pos hx, if_neg (by simpa using tag.nonEmpty)]

end Stages

/-! ## The parts of an accepted tag -/

namespace Langtag

variable (tag : Langtag)

theorem privateSubtags_isX : ∀ s ∈ tag.privateSubtags.head?, Subtag.isX s = true := by
  intro s hs
  unfold privateSubtags at hs
  cases huse : tag.privateUse with
  | none =>
      rw [huse] at hs
      cases hs
  | some privateUse =>
      rw [huse] at hs
      obtain rfl : privateUse.marker = s := Option.some.inj hs
      exact beq_iff_eq.mpr privateUse.isX

/-- Each part is behind the parts in front of it. -/
theorem startsFrom_extensions :
    StartsFrom 4 (tag.extensions.flatMap Extension.spelled ++ tag.privateSubtags) := by
  cases tag.extensions with
  | nil =>
      intro s hs
      have hx := tag.privateSubtags_isX s hs
      rw [Subtag.position_single (Subtag.length_of_isX (beq_iff_eq.mp hx)), if_pos hx]
      decide
  | cons extension extensions =>
      intro s hs
      obtain rfl : extension.singleton = s := Option.some.inj hs
      have hlength : extension.singleton.length = 1 :=
        Nat.le_antisymm extension.singletonValid.atMost extension.singletonValid.atLeast
      have hx : ¬ extension.singleton.isX = true := fun h => extension.notX (beq_iff_eq.mp h)
      rw [Subtag.position_single hlength, if_neg hx]

theorem startsFrom_variants : StartsFrom 3 (tag.variants ++
    (tag.extensions.flatMap Extension.spelled ++ tag.privateSubtags)) :=
  tag.startsFrom_extensions.append fun s hs => Subtag.position_variant (tag.variantsValid s hs)

theorem startsFrom_region : StartsFrom 2 (tag.region.toList ++ (tag.variants ++
    (tag.extensions.flatMap Extension.spelled ++ tag.privateSubtags))) :=
  tag.startsFrom_variants.append fun s hs =>
    Subtag.position_region (tag.regionValid s (Option.mem_toList.mp hs))

theorem startsFrom_script : StartsFrom 1 (tag.script.toList ++ (tag.region.toList ++
    (tag.variants ++ (tag.extensions.flatMap Extension.spelled ++ tag.privateSubtags)))) :=
  tag.startsFrom_region.append fun s hs =>
    Subtag.position_script (tag.scriptValid s (Option.mem_toList.mp hs))

/-- The extended languages are taken, all of them. -/
theorem takeLanguage_rest :
    (takeLanguage tag.language tag.rest).2 = tag.script.toList ++ (tag.region.toList ++
      (tag.variants ++ (tag.extensions.flatMap Extension.spelled ++ tag.privateSubtags))) := by
  unfold takeLanguage
  split
  · rw [rest, takeExtlangs_append tag.extlangsValid tag.startsFrom_script tag.extlangsFew]
  · rename_i hlong
    have hnone : tag.extlangs = [] := by
      by_contra hsome
      exact hlong (tag.extlangsShort hsome)
    rw [rest, hnone, List.nil_append]

end Langtag

theorem canonicalLangtag_eq_some_iff {language : Subtag} {rest canonical : List Subtag} :
    canonicalLangtag language rest = some canonical ↔
      Subtag.Of Char.isAlpha 2 8 language ∧ ∃ variants extensions,
        takeVariants [] (takeRegion (takeScript (takeLanguage language rest))).1
          (takeRegion (takeScript (takeLanguage language rest))).2 = some variants ∧
        takeExtensions [] .outside variants.1 variants.2 = some extensions ∧
        takePrivateUse extensions = some (canonical, []) := by
  have hlanguage : Subtag.Of Char.isAlpha 2 8 language ↔
      ¬ (!(decide (2 ≤ language.length) && decide (language.length ≤ 8)) ||
        !language.isAlpha) = true := by
    simp only [Bool.or_eq_true, Bool.not_eq_true', Bool.and_eq_false_iff, decide_eq_false_iff_not,
      not_or, not_not, Bool.not_eq_false, Subtag.isAlpha, List.all_eq_true]
    exact ⟨fun h => ⟨⟨h.atLeast, h.atMost⟩, h.chars⟩, fun h => ⟨h.1.1, h.1.2, h.2⟩⟩
  rw [hlanguage, canonicalLangtag, Option.ite_none_left_eq_some, and_congr_right_iff]
  intro _
  simp only [Option.bind_eq_some_iff, Option.ite_none_right_eq_some, List.isEmpty_iff,
    Option.some.injEq]
  constructor
  · rintro ⟨variants, hvariants, extensions, hextensions, final, hfinal, hnil, rfl⟩
    exact ⟨variants, extensions, hvariants, hextensions, by rw [hfinal, ← hnil]⟩
  · rintro ⟨variants, extensions, hvariants, hextensions, hfinal⟩
    exact ⟨variants, hvariants, extensions, hextensions, _, hfinal, rfl, rfl⟩

/-- The parser accepts exactly the subtags of a `langtag` without duplicates. -/
theorem canonicalLangtag_isSome_iff {language : Subtag} {rest : List Subtag}
    (hwell : ∀ s ∈ language :: rest, Subtag.wellFormed s = true) :
    (∃ canonical, canonicalLangtag language rest = some canonical) ↔
      ∃ tag : Langtag, tag.spelled = language :: rest ∧ tag.NoDuplicates := by
  constructor
  · rintro ⟨canonical, h⟩
    obtain ⟨hlanguage, variants, extensions, hvariants, hextensions, hprivate⟩ :=
      canonicalLangtag_eq_some_iff.mp h
    -- Each stage splits what it was given.
    obtain ⟨extlangs, hrest, hfew, hextlangs, hshort⟩ : ∃ extlangs,
        rest = extlangs ++ (takeLanguage language rest).2 ∧ extlangs.length ≤ 3 ∧
          (∀ s ∈ extlangs, Subtag.Of Char.isAlpha 3 3 s) ∧
          (extlangs ≠ [] → language.length ≤ 3) := by
      unfold takeLanguage
      split
      · rename_i hshort
        obtain ⟨extlangs, hrest, hfew, hvalid⟩ := takeExtlangs_exists
          3
        exact ⟨extlangs, hrest, hfew, hvalid, fun _ => hshort⟩
      · exact ⟨[], rfl, Nat.zero_le _, List.forall_mem_nil _, fun h => absurd rfl h⟩
    obtain ⟨script, hscript, hscriptValid⟩ := @takeScript_exists _
      (takeLanguage language rest).2
    obtain ⟨region, hregion, hregionValid⟩ := @takeRegion_exists _
      (takeScript (takeLanguage language rest)).2
    have hwellRegion : ∀ s ∈ (takeRegion (takeScript (takeLanguage language rest))).2,
        Subtag.wellFormed s = true := by
      intro s hs
      apply hwell s
      rw [hrest, hscript]
      apply List.mem_cons_of_mem
      refine List.mem_append_right _ (List.mem_append_right _ ?_)
      change s ∈ (takeScript (takeLanguage language rest)).2
      rw [hregion]
      exact List.mem_append_right _ hs
    obtain ⟨variantTags, hvariantRest, hvariantsValid, hvariantsFresh⟩ := takeVariants_exists
      (fun s hs => Subtag.clean_of_wellFormed (hwellRegion s hs)) hvariants
    have hwellVariants : ∀ s ∈ variants.2, Subtag.wellFormed s = true := by
      intro s hs
      apply hwellRegion s
      rw [hvariantRest]
      exact List.mem_append_right _ hs
    obtain ⟨inner, extensionTags, hextensionRest, _, hinner, _, hextensionsFresh⟩ :=
      takeExtensions_exists (fun s hs => Subtag.clean_of_wellFormed (hwellVariants s hs))
        hextensions
    rw [hinner rfl, List.nil_append] at hextensionRest
    obtain ⟨privateUse, hprivateRest⟩ := (takePrivateUse_iff
      (fun s hs => hwellVariants s (by
        rw [hextensionRest]
        exact List.mem_append_right _ hs))).mp ⟨canonical, hprivate⟩
    let tag : Langtag :=
      { language, extlangs, script, region
        variants := variantTags
        extensions := extensionTags
        privateUse
        languageValid := hlanguage
        extlangsValid := hextlangs
        extlangsFew := hfew
        extlangsShort := hshort
        scriptValid := hscriptValid
        regionValid := hregionValid
        variantsValid := hvariantsValid }
    refine ⟨tag, ?_, hvariantsFresh.1, hextensionsFresh.1⟩
    change language :: (extlangs ++ (script.toList ++ (region.toList ++ (variantTags ++
      (extensionTags.flatMap Extension.spelled ++
        (privateUse.map PrivateUse.spelled).getD []))))) = language :: rest
    rw [← hprivateRest, ← hextensionRest, ← hvariantRest]
    conv_rhs => rw [hrest, hscript]
    congr 3
    exact hregion.symm
  · rintro ⟨tag, hspelled, hdistinct⟩
    obtain ⟨rfl, rfl⟩ := List.cons.inj hspelled
    have hclean : ∀ s ∈ tag.extensions.flatMap Extension.spelled ++ tag.privateSubtags,
        Subtag.Clean s := by
      intro s hs
      apply Subtag.clean_of_wellFormed
      apply hwell s
      apply List.mem_cons_of_mem
      unfold Langtag.rest
      simp only [List.mem_append] at hs ⊢
      exact .inr (.inr (.inr (.inr hs)))
    have hlanguageRest := tag.takeLanguage_rest
    have hscriptRest : (takeScript (takeLanguage tag.language tag.rest)).2 = tag.region.toList ++
        (tag.variants ++ (tag.extensions.flatMap Extension.spelled ++ tag.privateSubtags)) := by
      have h := @takeScript_append (takeLanguage tag.language tag.rest).1 _ _
        tag.scriptValid tag.startsFrom_region
      rwa [← hlanguageRest] at h
    have hregionRest : (takeRegion (takeScript (takeLanguage tag.language tag.rest))).2 =
        tag.variants ++ (tag.extensions.flatMap Extension.spelled ++ tag.privateSubtags) := by
      have h := @takeRegion_append (takeScript (takeLanguage tag.language tag.rest)).1 _ _
        tag.regionValid tag.startsFrom_variants
      rwa [← hscriptRest] at h
    have hvariants := @takeVariants_append
      (takeRegion (takeScript (takeLanguage tag.language tag.rest))).1 _ _ _
      tag.variantsValid (fresh_of_nodup hdistinct.variants) tag.startsFrom_extensions hclean
    obtain ⟨spelled, hextensions⟩ :=
      takeExtensions_append (show .outside ≠ ExtensionPart.singleton by decide)
      (fresh_of_nodup hdistinct.singletons) tag.privateSubtags_isX
    obtain ⟨canonical, hprivate⟩ := (takePrivateUse_iff
      (fun s hs => hwell s (by
        apply List.mem_cons_of_mem
        unfold Langtag.rest
        simp only [List.mem_append]
        exact .inr (.inr (.inr (.inr (.inr hs))))))).mpr ⟨tag.privateUse, rfl⟩
    rw [← hregionRest] at hvariants
    exact ⟨canonical, canonicalLangtag_eq_some_iff.mpr
      ⟨tag.languageValid, _, _, hvariants, hextensions, hprivate⟩⟩

end Waveform.Domain
