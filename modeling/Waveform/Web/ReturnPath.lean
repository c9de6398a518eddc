import Waveform.Library.WhatwgUrl

/-!
# Return paths

`safeReturnPath` of the web session: the path that a sign-in comes back to. The value is checked,
read by the URL parser against a base that no site has, and written again from the URL's getters,
which leave out the mark of an empty query and of an empty fragment.

- `Returnable`: the parts that are returned, `safeReturnPath_returnable`.
- `safeReturnPath_text`: they are returned unchanged.
- `returnPaths_stay`: what is returned stays on every site.
-/

set_option autoImplicit false

namespace Waveform.Web

open WhatwgUrl

/-! ## Strings -/

/-- A JavaScript string: its code units. -/
abbrev JsString := List UInt16

def isHighSurrogate (u : UInt16) : Bool := 0xd800 ≤ u.toNat && u.toNat ≤ 0xdbff

def isLowSurrogate (u : UInt16) : Bool := 0xdc00 ≤ u.toNat && u.toNat ≤ 0xdfff

/-- The scalar value of a code unit on its own: a surrogate is replaced. -/
def scalar (u : UInt16) : Char :=
  if isHighSurrogate u || isLowSurrogate u then Char.ofNat 0xfffd else Char.ofNat u.toNat

/-- The scalar value of a pair of surrogates. -/
def pairScalar (high low : UInt16) : Char :=
  Char.ofNat (0x10000 + (high.toNat - 0xd800) * 0x400 + (low.toNat - 0xdc00))

/-- The conversion to a string of scalar values, which the URL parser is given. -/
def scalars : JsString → List Char
  | [] => []
  | [u] => [scalar u]
  | u :: v :: rest =>
      if isHighSurrogate u && isLowSurrogate v then pairScalar u v :: scalars rest
      else scalar u :: scalars (v :: rest)

/-- An ASCII text as a JavaScript string. -/
def ascii (text : List Char) : JsString := text.map fun c => UInt16.ofNat c.toNat

/-! ## The function -/

/-- Paths a sign-in never returns to. -/
def NO_RETURN : List String := ["/sign-in", "/auth", "/api"]

/-- The path is one of those, or below one. -/
def isExcluded (path : List Char) : Bool :=
  NO_RETURN.any fun route => path == route.toList || (route ++ "/").toList.isPrefixOf path

/-- A site's origin. -/
structure Site where
  scheme : List Char
  host : List Char
  port : Option Nat
  web : isWeb scheme = true

/-- The URL of an origin, as it is given to the parser for a base. -/
def Site.base (site : Site) : Url :=
  ⟨site.scheme, ⟨[], none, site.host, site.port⟩, ⟨[[]], none, none⟩⟩

/-- `http://kit.invalid`. -/
def kit : Site := ⟨"http".toList, "kit.invalid".toList, none, by decide⟩

/-- `/[\u0000-\u001f\u007f]/`. -/
def isControl (u : UInt16) : Bool := u.toNat ≤ 0x1f || u.toNat == 0x7f

/-- The value is one that could be read as another origin, or no path from the root. -/
def isHostile (value : JsString) : Bool :=
  !(ascii "/".toList).isPrefixOf value || (ascii "//".toList).isPrefixOf value ||
    (ascii "/\\".toList).isPrefixOf value

/-- `safeReturnPath`. -/
def safeReturnPath (outside : Outside) (value : Option JsString) : JsString :=
  match value with
  | none => ascii "/".toList
  | some value =>
      if value.isEmpty || value.any isControl then ascii "/".toList
      else if isHostile value then ascii "/".toList
      else match resolve outside kit.base (scalars value) with
        | none => ascii "/".toList
        | some url =>
            if url.origin ≠ kit.base.origin then ascii "/".toList
            else
              let path := url.pathname ++ url.search ++ url.hash
              if !"/".toList.isPrefixOf path || "//".toList.isPrefixOf path then ascii "/".toList
              else if isExcluded url.pathname then ascii "/".toList
              else ascii path

/-! ## Scalar values -/

section Scalars

variable {value : JsString} {text : List Char} {u : UInt16} {c : Char}

theorem toNat_ofNat {n : Nat} (h : n.isValidChar) : (Char.ofNat n).toNat = n := by
  rw [Char.ofNat, dif_pos h]
  rfl

theorem scalar_of_lt (h : u.toNat < 0xd800) : scalar u = Char.ofNat u.toNat := by
  have hnot : (isHighSurrogate u || isLowSurrogate u) = false := by
    simp only [isHighSurrogate, isLowSurrogate, Bool.or_eq_false_iff, Bool.and_eq_false_iff,
      decide_eq_false_iff_not]
    omega
  rw [scalar, hnot, if_neg (by decide)]

/-- A code unit in front that is no surrogate is a character in front. -/
theorem scalars_cons (h : u.toNat < 0xd800) (value : JsString) :
    scalars (u :: value) = Char.ofNat u.toNat :: scalars value := by
  have hnot : isHighSurrogate u = false := by
    simp only [isHighSurrogate, Bool.and_eq_false_iff, decide_eq_false_iff_not]
    omega
  cases value with
  | nil =>
      change [scalar u] = [Char.ofNat u.toNat]
      rw [scalar_of_lt h]
  | cons v rest =>
      rw [scalars, hnot, Bool.false_and, if_neg (by decide), scalar_of_lt h]

/-- **An ASCII text is read back.** -/
theorem scalars_ascii (h : ∀ c ∈ text, c.toNat < 0x80) : scalars (ascii text) = text := by
  induction text with
  | nil => rfl
  | cons c text ih =>
      have hc : c.toNat < 0x80 := h c List.mem_cons_self
      have hunit : (UInt16.ofNat c.toNat).toNat = c.toNat := by
        rw [UInt16.toNat_ofNat', Nat.mod_eq_of_lt (by omega)]
      change scalars (UInt16.ofNat c.toNat :: ascii text) = c :: text
      rw [scalars_cons (by omega), hunit, ih fun d hd => h d (List.mem_cons_of_mem _ hd),
        Char.ofNat_toNat]

/-- A code unit on its own stands for itself, or is replaced. -/
theorem scalar_toNat (u : UInt16) : (scalar u).toNat = u.toNat ∨ 0x80 ≤ (scalar u).toNat := by
  unfold scalar
  split
  · right
    rw [toNat_ofNat (.inr ⟨by omega, by omega⟩)]
    omega
  · rename_i hnot
    left
    have hlt : u.toNat < 65536 := u.toNat_lt
    simp only [isHighSurrogate, isLowSurrogate, Bool.or_eq_true, Bool.and_eq_true,
      decide_eq_true_eq, not_or, not_and] at hnot
    apply toNat_ofNat
    unfold Nat.isValidChar
    omega

/-- A pair of surrogates is no ASCII character. -/
theorem pairScalar_toNat {v : UInt16} (h : (isHighSurrogate u && isLowSurrogate v) = true) :
    0x80 ≤ (pairScalar u v).toNat := by
  simp only [isHighSurrogate, isLowSurrogate, Bool.and_eq_true, decide_eq_true_eq] at h
  have hvalid : (0x10000 + (u.toNat - 0xd800) * 0x400 + (v.toNat - 0xdc00)).isValidChar := by
    unfold Nat.isValidChar
    omega
  rw [pairScalar, toNat_ofNat hvalid]
  omega

/-- The first character of a string is its first code unit, or not ASCII. -/
theorem head_scalars (u : UInt16) (value : JsString) :
    ∃ c rest, scalars (u :: value) = c :: rest ∧ (c.toNat = u.toNat ∨ 0x80 ≤ c.toNat) := by
  cases value with
  | nil => exact ⟨scalar u, [], rfl, scalar_toNat u⟩
  | cons v rest =>
      by_cases hpair : (isHighSurrogate u && isLowSurrogate v) = true
      · exact ⟨pairScalar u v, scalars rest, by rw [scalars, if_pos hpair],
          .inr (pairScalar_toNat hpair)⟩
      · exact ⟨scalar u, scalars (v :: rest), by rw [scalars, if_neg hpair], scalar_toNat u⟩

/-- A character of a string is a code unit of it, or not ASCII. -/
theorem mem_scalars (h : c ∈ scalars value) : (∃ u ∈ value, c.toNat = u.toNat) ∨
    0x80 ≤ c.toNat := by
  induction value using scalars.induct with
  | case1 => cases h
  | case2 u =>
      rw [List.mem_singleton.mp h]
      exact (scalar_toNat u).imp_left fun heq => ⟨u, List.mem_cons_self, heq⟩
  | case3 u v rest hpair ih =>
      rw [scalars, if_pos hpair] at h
      rcases List.mem_cons.mp h with hc | h
      · rw [hc]
        exact .inr (pairScalar_toNat hpair)
      · refine (ih h).imp_left ?_
        rintro ⟨w, hw, heq⟩
        exact ⟨w, List.mem_cons_of_mem _ (List.mem_cons_of_mem _ hw), heq⟩
  | case4 u v rest hpair ih =>
      rw [scalars, if_neg hpair] at h
      rcases List.mem_cons.mp h with hc | h
      · rw [hc]
        exact (scalar_toNat u).imp_left fun heq => ⟨u, List.mem_cons_self, heq⟩
      · refine (ih h).imp_left ?_
        rintro ⟨w, hw, heq⟩
        exact ⟨w, List.mem_cons_of_mem _ hw, heq⟩

end Scalars

/-! ## What is returned -/

section Returned

variable {value : JsString} {parts : Parts} {outside : Outside}

theorem isPrintable_ascii {c : Char} (h : isPrintable c = true) : c.toNat < 0x80 ∧ 0x20 < c.toNat ∧
    c.toNat < 0x7f := by
  simp only [isPrintable, Bool.and_eq_true, decide_eq_true_eq] at h
  omega

theorem scalars_text (h : Normal parts) : scalars (ascii parts.text) = parts.text :=
  scalars_ascii fun c hc => (isPrintable_ascii (h.text_printable c hc)).1

/-- Printable text has no control character. -/
theorem any_isControl_ascii {text : List Char} (h : ∀ c ∈ text, isPrintable c = true) :
    (ascii text).any isControl = false := by
  rw [List.any_eq_false]
  intro u hu
  obtain ⟨c, hc, rfl⟩ := List.mem_map.mp hu
  obtain ⟨-, hlow, hhigh⟩ := isPrintable_ascii (h c hc)
  have hunit : (UInt16.ofNat c.toNat).toNat = c.toNat := by
    rw [UInt16.toNat_ofNat', Nat.mod_eq_of_lt (by omega)]
  simp only [isControl, hunit, Bool.or_eq_true, decide_eq_true_eq, beq_iff_eq]
  omega

/-- The parts without an empty query and an empty fragment, which the getters do not show. -/
def shownParts (parts : Parts) : Parts :=
  ⟨parts.path, parts.query.filter (· ≠ []), parts.fragment.filter (· ≠ [])⟩

theorem shown_eq (mark : Char) (part : Option (List Char)) :
    shown mark part = marked mark (part.filter (· ≠ [])) := by
  rcases part with _ | _ | ⟨c, part⟩ <;> rfl

/-- What the getters show. -/
theorem getters_eq (url : Url) :
    url.pathname ++ url.search ++ url.hash = (shownParts url.parts).text := by
  rw [Url.pathname, Url.search, Url.hash, shown_eq, shown_eq, List.append_assoc]
  rfl

theorem mem_getD_filter {part : Option (List Char)} {c : Char}
    (h : c ∈ (part.filter (· ≠ [])).getD []) : c ∈ part.getD [] := by
  rcases part with _ | _ | ⟨d, part⟩
  · exact h
  · cases h
  · exact h

theorem filter_ne_empty (part : Option (List Char)) : part.filter (· ≠ []) ≠ some [] := by
  rcases part with _ | _ | ⟨d, part⟩
  · exact nofun
  · exact nofun
  · intro h
    cases h

theorem normal_shownParts (h : Normal parts) : Normal (shownParts parts) :=
  ⟨h.segments, h.nonempty, fun c hc => h.query c (mem_getD_filter hc),
    fun c hc => h.fragment c (mem_getD_filter hc)⟩

/-- Parts that are returned: normal, on this site, not excluded, and without an empty query or
fragment. -/
structure Returnable (parts : Parts) : Prop where
  normal : Normal parts
  root : ¬ "//".toList <+: parts.text
  notExcluded : isExcluded (pathText parts.path) = false
  query : parts.query ≠ some []
  fragment : parts.fragment ≠ some []

/-- The path of a site itself. -/
theorem returnable_root : Returnable ⟨[[]], none, none⟩ where
  normal := by
    refine ⟨fun segment hmem => ?_, by simp, fun c hc => absurd hc List.not_mem_nil,
      fun c hc => absurd hc List.not_mem_nil⟩
    rw [List.mem_singleton.mp hmem]
    exact isSegment_nil
  root := by
    rw [← List.isPrefixOf_iff_prefix]
    decide
  notExcluded := by decide +kernel
  query := by simp
  fragment := by simp

theorem isHostile_iff {value : JsString} : isHostile value = false ↔
    ∃ rest, value = 0x2f :: rest ∧ rest.head? ≠ some 0x2f ∧ rest.head? ≠ some 0x5c := by
  unfold isHostile
  rw [show ascii "/".toList = [0x2f] from rfl, show ascii "//".toList = [0x2f, 0x2f] from rfl,
    show ascii "/\\".toList = [0x2f, 0x5c] from rfl]
  cases value with
  | nil => simp
  | cons u rest =>
      by_cases hu : u = 0x2f
      · subst hu
        cases rest with
        | nil => simp
        | cons v rest =>
            have hslash : ∀ w : UInt16, [0x2f, w].isPrefixOf (0x2f :: v :: rest) = (w == v) := by
              intro w
              simp [List.isPrefixOf]
            rw [hslash, hslash]
            simp [@eq_comm UInt16 47 v, @eq_comm UInt16 92 v]
      · simp [Ne.symm hu, hu]

/-- The conversion leaves the path from the root of a value that is not hostile. -/
theorem scalars_of_not_hostile {value : JsString} (h : isHostile value = false)
    (hcontrol : value.any isControl = false) :
    ∃ rest, scalars value = '/' :: rest ∧ rest.head?.any isSlash = false ∧
      ∀ c ∈ rest, 0x1f < c.toNat := by
  obtain ⟨units, rfl, hslash, hback⟩ := isHostile_iff.mp h
  refine ⟨scalars units, ?_, ?_, ?_⟩
  · rw [scalars_cons (by decide)]
    rfl
  · cases units with
    | nil => rfl
    | cons u units =>
        have hne : u ≠ 0x2f ∧ u ≠ 0x5c := ⟨by simpa using hslash, by simpa using hback⟩
        obtain ⟨c, rest, hscalars, hc⟩ := head_scalars u units
        rw [hscalars, List.head?_cons, Option.any_some, isSlash, Bool.or_eq_false_iff]
        constructor
        · refine beq_eq_false_iff_ne.mpr fun heq => hne.1 ?_
          rw [heq, show ('/' : Char).toNat = 0x2f from rfl] at hc
          exact UInt16.toNat_inj.mp (hc.resolve_right (by decide)).symm
        · refine beq_eq_false_iff_ne.mpr fun heq => hne.2 ?_
          rw [heq, show ('\\' : Char).toNat = 0x5c from rfl] at hc
          exact UInt16.toNat_inj.mp (hc.resolve_right (by decide)).symm
  · intro c hc
    rcases mem_scalars hc with ⟨u, hu, heq⟩ | hhigh
    · have hplain := List.any_eq_false.mp hcontrol u (List.mem_cons_of_mem _ hu)
      simp only [isControl, Bool.or_eq_true, decide_eq_true_eq, beq_iff_eq, not_or] at hplain
      omega
    · omega

/-- Cleaning takes nothing from the front of a path from the root. -/
theorem clean_slash (rest : List Char) : clean ('/' :: rest) =
    '/' :: (rest.reverse.dropWhile fun c => decide (c.toNat ≤ 0x20)).reverse.filter
      fun c => !([0x09, 0x0a, 0x0d].contains c.toNat) := by
  have hslash : ∀ text : List Char, ('/' :: text).dropWhile (fun c => decide (c.toNat ≤ 0x20)) =
      '/' :: text := fun text => List.dropWhile_cons_of_neg (by decide)
  have hback : (rest.reverse ++ ['/']).dropWhile (fun c => decide (c.toNat ≤ 0x20)) =
      rest.reverse.dropWhile (fun c => decide (c.toNat ≤ 0x20)) ++ ['/'] := by
    rw [List.dropWhile_append]
    split
    · rename_i hempty
      rw [List.isEmpty_iff.mp hempty, hslash]
      rfl
    · rfl
  unfold clean
  dsimp only
  rw [hslash, List.reverse_cons, hback, List.reverse_append, List.reverse_singleton,
    List.singleton_append, List.filter_cons_of_pos (by decide)]

/-- From a text without control characters only spaces at its end are taken. -/
theorem clean_slash_prefix {rest : List Char} (h : ∀ c ∈ rest, 0x1f < c.toNat) :
    ∃ more, clean ('/' :: rest) = '/' :: more ∧ more <+: rest := by
  refine ⟨(rest.reverse.dropWhile fun c => decide (c.toNat ≤ 0x20)).reverse, ?_, ?_⟩
  · rw [clean_slash, List.filter_eq_self.mpr]
    intro c hc
    have hlt := h c (List.mem_reverse.mp (List.dropWhile_subset _ (List.mem_reverse.mp hc)))
    simp only [Bool.not_eq_true', List.contains_cons, List.contains_nil, Bool.or_false,
      Bool.or_eq_false_iff, beq_eq_false_iff_ne]
    omega
  · have hsuffix := List.dropWhile_suffix (l := rest.reverse) fun c => decide (c.toNat ≤ 0x20)
    have hfront := List.reverse_prefix.mpr hsuffix
    rwa [List.reverse_reverse] at hfront

/-- **A value that is not hostile is a path on every site.** -/
theorem resolve_of_not_hostile {value : JsString} (h : isHostile value = false)
    (hcontrol : value.any isControl = false) :
    ∃ parts, Normal parts ∧ ∀ outside base,
      resolve outside base (scalars value) = some { base with parts := parts } := by
  obtain ⟨rest, hscalars, hslash, hplain⟩ := scalars_of_not_hostile h hcontrol
  obtain ⟨more, hclean, hmore⟩ := clean_slash_prefix hplain
  have hhead : more.head?.any isSlash = false := by
    cases more with
    | nil => rfl
    | cons c more =>
        obtain ⟨behind, rfl⟩ := hmore
        exact hslash
  refine ⟨pathState [] [] more, ?_, fun outside base => ?_⟩
  · exact pathState_normal (fun segment hmem => absurd hmem List.not_mem_nil)
      (fun c hc => absurd hc List.not_mem_nil) more
  · unfold resolve
    rw [hscalars, hclean, schemeOf_slash]
    change relative outside base ('/' :: more) = _
    rw [relative, if_pos (by rfl), hhead, if_neg (by decide)]

/-- **What is returned**: the parts of a path that may be returned, as they are written. -/
theorem safeReturnPath_returnable (outside : Outside) (value : Option JsString) :
    ∃ parts, Returnable parts ∧ safeReturnPath outside value = ascii parts.text := by
  have hroot : ∃ parts, Returnable parts ∧ ascii "/".toList = ascii parts.text :=
    ⟨_, returnable_root, rfl⟩
  cases value with
  | none => exact hroot
  | some value =>
      unfold safeReturnPath
      dsimp only
      split
      · exact hroot
      · rename_i hplain
        split
        · exact hroot
        · rename_i hhostile
          obtain ⟨hempty, hcontrol⟩ := not_or.mp (mt Bool.or_eq_true_iff.mpr hplain)
          obtain ⟨parts, hnormal, hresolve⟩ := resolve_of_not_hostile
            (Bool.not_eq_true _ ▸ hhostile) (Bool.not_eq_true _ ▸ hcontrol)
          rw [hresolve outside kit.base]
          dsimp only
          split
          · exact hroot
          · split
            · exact hroot
            · rename_i hwritten
              split
              · exact hroot
              · rename_i hexcluded
                rw [getters_eq] at hwritten ⊢
                refine ⟨shownParts parts, ⟨normal_shownParts hnormal, ?_, ?_, ?_, ?_⟩, rfl⟩
                · intro hstart
                  apply hwritten
                  rw [List.isPrefixOf_iff_prefix.mpr hstart, Bool.or_true]
                · exact Bool.not_eq_true _ ▸ hexcluded
                · exact filter_ne_empty parts.query
                · exact filter_ne_empty parts.fragment

/-- Parts that are returned are shown as they are written. -/
theorem shownParts_of_returnable (h : Returnable parts) : shownParts parts = parts := by
  have hkeep : ∀ part : Option (List Char), part ≠ some [] → part.filter (· ≠ []) = part := by
    intro part hne
    rcases part with _ | _ | ⟨d, part⟩
    · rfl
    · exact absurd rfl hne
    · rfl
  rw [shownParts, hkeep _ h.query, hkeep _ h.fragment]

/-- What is returned is not hostile. -/
theorem isHostile_text (h : Returnable parts) : isHostile (ascii parts.text) = false := by
  obtain ⟨rest, htext, -⟩ := pathState_text h.normal
  have hslash := h.normal.head_not_slash h.root htext
  have hprint := h.normal.text_printable
  rw [htext] at hprint ⊢
  refine isHostile_iff.mpr ⟨ascii rest, rfl, ?_⟩
  cases rest with
  | nil => exact ⟨by simp [ascii], by simp [ascii]⟩
  | cons c rest =>
      obtain ⟨hc, -⟩ := isPrintable_ascii (hprint c (List.mem_cons_of_mem _ List.mem_cons_self))
      obtain ⟨hne, hne'⟩ := Bool.or_eq_false_iff.mp (show isSlash c = false from hslash)
      have hunit : (UInt16.ofNat c.toNat).toNat = c.toNat := by
        rw [UInt16.toNat_ofNat', Nat.mod_eq_of_lt (by omega)]
      have happart : ∀ d : Char, (c == d) = false → ∀ u : UInt16, u.toNat = d.toNat →
          (ascii (c :: rest)).head? ≠ some u := by
        intro d hd u hu hhead
        have heq : UInt16.ofNat c.toNat = u := Option.some.inj hhead
        rw [← heq, hunit] at hu
        exact beq_eq_false_iff_ne.mp hd (Char.toNat_inj.mp hu)
      exact ⟨happart '/' hne _ rfl, happart '\\' hne' _ rfl⟩

/-- **What is returned is returned unchanged.** -/
theorem safeReturnPath_text (h : Returnable parts) (outside : Outside) :
    safeReturnPath outside (some (ascii parts.text)) = ascii parts.text := by
  have hcontrol := any_isControl_ascii h.normal.text_printable
  obtain ⟨url, hresolve, horigin, hparts⟩ : ∃ url, resolve outside kit.base parts.text = some url ∧
      url.origin = kit.base.origin ∧ url.parts = parts :=
    ⟨_, resolve_text h.normal h.root outside kit.base, rfl, rfl⟩
  obtain ⟨rest, htext, -⟩ := pathState_text h.normal
  have hempty : (ascii parts.text).isEmpty = false := by
    rw [htext]
    rfl
  have hgetters : url.pathname ++ url.search ++ url.hash = parts.text := by
    rw [getters_eq, hparts, shownParts_of_returnable h]
  have hexcluded : isExcluded url.pathname = false := by
    rw [Url.pathname, hparts]
    exact h.notExcluded
  have hroot : "//".toList.isPrefixOf parts.text = false := by
    rw [Bool.eq_false_iff]
    exact fun hstart => h.root (List.isPrefixOf_iff_prefix.mp hstart)
  have hstart : "/".toList.isPrefixOf parts.text = true := by
    rw [htext, List.isPrefixOf_iff_prefix]
    exact ⟨rest, rfl⟩
  unfold safeReturnPath
  dsimp only
  rw [hempty, hcontrol, Bool.or_false, if_neg (by decide), isHostile_text h, if_neg (by decide),
    scalars_text h.normal, hresolve]
  dsimp only
  rw [if_neg (not_not.mpr horigin), hgetters, hstart, hroot, hexcluded, Bool.not_true,
    Bool.or_false,
    if_neg (by decide), if_neg (by decide)]

/-! ## What the parser gives for a path -/

theorem pathStart_normal (rest : List Char) : Normal (pathStart rest) := by
  have hstate : ∀ rest, Normal (pathState [] [] rest) :=
    pathState_normal (fun segment hmem => absurd hmem List.not_mem_nil)
      fun c hc => absurd hc List.not_mem_nil
  unfold pathStart
  split
  · split
    · exact hstate _
    · exact hstate _
  · exact hstate _

/-- Whatever a text that begins with a slash is resolved to, its parts are normal. -/
theorem resolve_slash_normal {base url : Url} {value : JsString}
    (hstart : (ascii "/".toList).isPrefixOf value = true)
    (h : resolve outside base (scalars value) = some url) : Normal url.parts := by
  obtain ⟨units, rfl⟩ := List.isPrefixOf_iff_prefix.mp hstart
  have hscalars : scalars (ascii "/".toList ++ units) = '/' :: scalars units :=
    scalars_cons (by decide) units
  unfold resolve at h
  rw [hscalars, clean_slash, schemeOf_slash] at h
  dsimp only at h
  rw [relative, if_pos (by rfl)] at h
  split at h
  · obtain ⟨authority, -, rfl⟩ := Option.map_eq_some_iff.mp h
    exact pathStart_normal _
  · obtain rfl := Option.some.inj h
    exact pathState_normal (fun segment hmem => absurd hmem List.not_mem_nil)
      (fun c hc => absurd hc List.not_mem_nil) _

/-! ## Return paths stay on the site -/

/-- The value is a path of the site, as the URL `url` that it is resolved to is written. -/
structure IsNormalPath (outside : Outside) (site : Site) (value : JsString) (url : Url) : Prop where
  path : isHostile value = false
  resolved : resolve outside site.base (scalars value) = some url
  sameOrigin : url.origin = site.base.origin
  written : ascii url.parts.text = value

/-- **Return paths stay on the site.** What is returned is resolved against every site to a path of
the site that is not excluded, it is returned unchanged when it is passed in again, and so is a
normal path that is not excluded and has no empty query or fragment. -/
theorem returnPaths_stay (server browser : Outside) :
    (∀ (value : Option JsString) (site : Site), ∃ url,
      resolve browser site.base (scalars (safeReturnPath server value)) = some url ∧
        url.origin = site.base.origin ∧ isExcluded url.pathname = false) ∧
    (∀ value : Option JsString,
      safeReturnPath server (some (safeReturnPath server value)) = safeReturnPath server value) ∧
    (∀ (site : Site) (value : JsString) (url : Url), IsNormalPath browser site value url →
      isExcluded url.pathname = false → url.parts.query ≠ some [] → url.parts.fragment ≠ some [] →
        safeReturnPath server (some value) = value) := by
  refine ⟨fun value site => ?_, fun value => ?_,
    fun site value url hpath hexcluded hquery hfragment => ?_⟩
  · obtain ⟨parts, hparts, hreturned⟩ := safeReturnPath_returnable server value
    rw [hreturned, scalars_text hparts.normal]
    exact ⟨_, resolve_text hparts.normal hparts.root browser site.base, rfl, hparts.notExcluded⟩
  · obtain ⟨parts, hparts, hreturned⟩ := safeReturnPath_returnable server value
    rw [hreturned, safeReturnPath_text hparts]
  · obtain ⟨rest, hvalue, hslash, -⟩ := isHostile_iff.mp hpath.path
    have hstart : (ascii "/".toList).isPrefixOf value = true := by
      rw [List.isPrefixOf_iff_prefix, hvalue]
      exact ⟨rest, rfl⟩
    have hnormal := resolve_slash_normal hstart hpath.resolved
    have hroot : ¬ "//".toList <+: url.parts.text := by
      rintro ⟨more, htext⟩
      have hwritten := hpath.written
      rw [← htext, hvalue] at hwritten
      obtain ⟨-, rfl⟩ := List.cons.inj hwritten
      exact hslash rfl
    rw [← hpath.written]
    exact safeReturnPath_text ⟨hnormal, hroot, hexcluded, hquery, hfragment⟩ server

/-- A parser that knows no authority and no other scheme. -/
def nowhere : Outside := ⟨fun _ _ => none, fun _ _ => none, @noOther_scheme⟩

/-- `/items/itm_1?tab=sharing#top`, on a site. -/
theorem returnPaths_stay_sample :
    safeReturnPath nowhere (some (ascii "/items/itm_1?tab=sharing#top".toList)) =
      ascii "/items/itm_1?tab=sharing#top".toList :=
  (returnPaths_stay nowhere nowhere).2.2 kit _
    { kit.base with parts := ⟨["items".toList, "itm_1".toList], some "tab=sharing".toList,
      some "top".toList⟩ }
    ⟨by decide +kernel, by decide +kernel, rfl, by decide +kernel⟩ (by decide +kernel)
    (by simp) (by simp)

/-- `/a?` is written as it is, and returned without its mark. -/
theorem not_forall_returned :
    ¬ ∀ (server browser : Outside) (site : Site) (value : JsString) (url : Url),
    IsNormalPath browser site value url → isExcluded url.pathname = false →
      safeReturnPath server (some value) = value := by
  intro h
  have hreturned := h nowhere nowhere kit (ascii "/a?".toList)
    { kit.base with parts := ⟨["a".toList], some [], none⟩ }
    ⟨by decide +kernel, by decide +kernel, rfl, by decide +kernel⟩ (by decide +kernel)
  revert hreturned
  decide +kernel

end Returned

end Waveform.Web
