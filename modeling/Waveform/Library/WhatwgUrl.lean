import Mathlib.Data.List.TakeWhile
import Waveform.Library.PercentEncoding

/-!
# The URL parser of the web

The basic URL parser for `http` and `https` URLs: the path, query and fragment states, relative
references and the percent-encode sets. What an authority and a URL of another scheme mean is left
to `Outside`.

- `Normal`: the parts that the parser gives, `pathState_normal`.
- `pathState_text`: **normal parts are read as they are written**.
- `resolve_text`: a normal path with a query and a fragment, resolved against any base.
-/

set_option autoImplicit false

namespace WhatwgUrl

/-! ## Percent-encode sets -/

/-- The C0 control percent-encode set. -/
def controlSet (c : Char) : Bool := c.toNat ≤ 0x1f || 0x7e < c.toNat

/-- Also the space, `"`, `<`, `>` and the grave accent. -/
def fragmentSet (c : Char) : Bool := controlSet c || [0x20, 0x22, 0x3c, 0x3e, 0x60].contains c.toNat

/-- Also the space, `"`, `#`, `<` and `>`. -/
def querySet (c : Char) : Bool := controlSet c || [0x20, 0x22, 0x23, 0x3c, 0x3e].contains c.toNat

/-- The query percent-encode set of special schemes. -/
def specialQuerySet (c : Char) : Bool := querySet c || c == '\''

/-- Also `?`, `^`, the grave accent and the braces. The circumflex is in the set of the current
standard; parsers written before it was added leave that character as it is. -/
def pathSet (c : Char) : Bool := querySet c || [0x3f, 0x5e, 0x60, 0x7b, 0x7d].contains c.toNat

/-- The slashes of special schemes. -/
def isSlash (c : Char) : Bool := c == '/' || c == '\\'

/-- A byte as an escape. -/
def escapeByte (b : UInt8) : List Char := (PercentEncoding.escape b).map fun d => Char.ofNat d.toNat

/-- UTF-8 percent-encode a character. -/
def percentEncode (set : Char → Bool) (c : Char) : List Char :=
  if set c then (String.utf8EncodeChar c).flatMap escapeByte else [c]

def percentEncodeText (set : Char → Bool) (text : List Char) : List Char :=
  text.flatMap (percentEncode set)

/-- The characters of an escape. -/
def escapeChars : List Char :=
  ['%', '0', '1', '2', '3', '4', '5', '6', '7', '8', '9', 'A', 'B', 'C', 'D', 'E', 'F']

theorem mem_escapeByte {b : UInt8} {c : Char} (h : c ∈ escapeByte b) : c ∈ escapeChars := by
  have hdigit : ∀ i : Fin 16, Char.ofNat (PercentEncoding.hexDigit i).toNat ∈ escapeChars := by
    decide +kernel
  have hb : b.toNat < 256 := b.toNat_lt
  obtain ⟨d, hd, rfl⟩ := List.mem_map.mp h
  simp only [PercentEncoding.escape, List.mem_cons, List.not_mem_nil, or_false] at hd
  rcases hd with rfl | rfl | rfl
  · decide +kernel
  · exact hdigit ⟨b.toNat / 16, by omega⟩
  · exact hdigit ⟨b.toNat % 16, by omega⟩

theorem mem_percentEncode {set : Char → Bool} {c d : Char} (h : d ∈ percentEncode set c) :
    d = c ∧ set c = false ∨ d ∈ escapeChars := by
  unfold percentEncode at h
  split at h
  · obtain ⟨b, -, hb⟩ := List.mem_flatMap.mp h
    exact .inr (mem_escapeByte hb)
  · rename_i hset
    exact .inl ⟨List.mem_singleton.mp h, Bool.eq_false_iff.mpr hset⟩

theorem percentEncode_of_not {set : Char → Bool} {c : Char} (h : set c = false) :
    percentEncode set c = [c] := by
  rw [percentEncode, h, if_neg (by decide)]

/-- Characters outside the set stay. -/
theorem percentEncodeText_of_not {set : Char → Bool} {text : List Char}
    (h : ∀ c ∈ text, set c = false) : percentEncodeText set text = text := by
  induction text with
  | nil => rfl
  | cons c text ih =>
      rw [percentEncodeText, List.flatMap_cons, percentEncode_of_not (h c List.mem_cons_self),
        ← percentEncodeText, ih fun d hd => h d (List.mem_cons_of_mem _ hd)]
      rfl

/-- No set has a character of an escape, and no escape a slash. -/
theorem escapeChars_plain : ∀ c ∈ escapeChars, pathSet c = false ∧ specialQuerySet c = false ∧
    fragmentSet c = false ∧ isSlash c = false := by
  have hall : escapeChars.all (fun c => !pathSet c && !specialQuerySet c && !fragmentSet c &&
      !isSlash c) = true := by decide +kernel
  intro c hc
  simpa [and_assoc] using List.all_eq_true.mp hall c hc

/-- What is encoded is outside the set. -/
theorem percentEncodeText_not {set : Char → Bool} (hset : ∀ c ∈ escapeChars, set c = false)
    {text : List Char} : ∀ c ∈ percentEncodeText set text, set c = false := by
  intro c hc
  obtain ⟨d, -, hd⟩ := List.mem_flatMap.mp hc
  rcases mem_percentEncode hd with ⟨rfl, hnot⟩ | hescape
  · exact hnot
  · exact hset c hescape

/-! ## Paths -/

def lower (text : List Char) : List Char := text.map Char.toLower

/-- A single-dot URL path segment. -/
def isSingleDot (segment : List Char) : Bool :=
  lower segment == ['.'] || lower segment == ['%', '2', 'e']

/-- A double-dot URL path segment. -/
def isDoubleDot (segment : List Char) : Bool :=
  lower segment == ['.', '.'] || lower segment == ['.', '%', '2', 'e'] ||
    lower segment == ['%', '2', 'e', '.'] || lower segment == ['%', '2', 'e', '%', '2', 'e']

/-- The parts of a URL behind its authority. -/
structure Parts where
  path : List (List Char)
  query : Option (List Char)
  fragment : Option (List Char)
  deriving DecidableEq, Repr

/-- The end of a segment, at a slash or not. -/
def endSegment (path : List (List Char)) (buffer : List Char) (slash : Bool) : List (List Char) :=
  if isDoubleDot buffer then if slash then path.dropLast else path.dropLast ++ [[]]
  else if isSingleDot buffer then if slash then path else path ++ [[]]
  else path ++ [buffer]

/-- The fragment state. -/
def readFragment : List Char → Option (List Char)
  | '#' :: rest => some (percentEncodeText fragmentSet rest)
  | _ => none

/-- The query state, and what follows a path. -/
def readTail (path : List (List Char)) : List Char → Parts
  | '?' :: rest =>
      ⟨path, some (percentEncodeText specialQuerySet (rest.takeWhile (· ≠ '#'))),
        readFragment (rest.dropWhile (· ≠ '#'))⟩
  | rest => ⟨path, none, readFragment rest⟩

/-- The path state, with the segments and the buffer so far. -/
def pathState (path : List (List Char)) (buffer : List Char) : List Char → Parts
  | [] => readTail (endSegment path buffer false) []
  | c :: rest =>
      if isSlash c then pathState (endSegment path buffer true) [] rest
      else if c = '?' ∨ c = '#' then readTail (endSegment path buffer false) (c :: rest)
      else pathState path (buffer ++ percentEncode pathSet c) rest

/-- The path start state. -/
def pathStart (rest : List Char) : Parts :=
  match rest with
  | c :: more => if isSlash c then pathState [] [] more else pathState [] [] rest
  | [] => pathState [] [] rest

/-! ## URLs -/

/-- The authority of a URL, with its host as it is serialized. -/
structure Authority where
  username : List Char
  password : Option (List Char)
  host : List Char
  port : Option Nat
  deriving DecidableEq, Repr

structure Url where
  scheme : List Char
  authority : Authority
  parts : Parts
  deriving DecidableEq, Repr

/-- The parser of authorities, and that of the URLs of other schemes. -/
structure Outside where
  authority : List Char → List Char → Option Authority
  other : List Char → List Char → Option Url
  other_scheme : ∀ {scheme rest : List Char} {url : Url}, other scheme rest = some url →
    url.scheme = scheme

/-- A parser of nothing keeps every scheme. -/
theorem noOther_scheme {scheme _rest : List Char} {url : Url} (h : (none : Option Url) = some url) :
    url.scheme = scheme := by
  cases h

/-- Control characters and spaces are dropped at both ends, tabs and line breaks everywhere. -/
def clean (input : List Char) : List Char :=
  let blank := fun c : Char => decide (c.toNat ≤ 0x20)
  ((input.dropWhile blank).reverse.dropWhile blank).reverse.filter fun c =>
    !([0x09, 0x0a, 0x0d].contains c.toNat)

/-- The scheme in front of a colon, in lower case, and what follows it. -/
def schemeOf (text : List Char) : Option (List Char × List Char) :=
  let scheme := text.takeWhile fun c => c.isAlphanum || ['+', '-', '.'].contains c
  if scheme.head?.any Char.isAlpha = true ∧ (text.drop scheme.length).head? = some ':' then
    some (lower scheme, text.drop (scheme.length + 1))
  else none

/-- A scheme whose URLs are read here. -/
def isWeb (scheme : List Char) : Bool := scheme == "http".toList || scheme == "https".toList

/-- The character ends an authority. -/
def endsAuthority (c : Char) : Bool := isSlash c || c == '?' || c == '#'

/-- The special authority states, and the path behind the authority. -/
def absolute (outside : Outside) (scheme rest : List Char) : Option Url :=
  let rest := rest.dropWhile isSlash
  (outside.authority scheme (rest.takeWhile fun c => !endsAuthority c)).map fun authority =>
    ⟨scheme, authority, pathStart (rest.dropWhile fun c => !endsAuthority c)⟩

/-- The relative states, against a base. -/
def relative (outside : Outside) (base : Url) : List Char → Option Url
  | [] => some { base with parts := { base.parts with fragment := none } }
  | c :: rest =>
      if isSlash c then
        if rest.head?.any isSlash then absolute outside base.scheme rest
        else some { base with parts := pathState [] [] rest }
      else if c = '?' then some { base with parts := readTail base.parts.path (c :: rest) }
      else if c = '#' then
        some { base with parts := { base.parts with fragment := readFragment (c :: rest) } }
      else some { base with parts := pathState base.parts.path.dropLast [] (c :: rest) }

/-- The parser without a base. -/
def parse (outside : Outside) (input : List Char) : Option Url :=
  match schemeOf (clean input) with
  | some (scheme, rest) =>
      if isWeb scheme then absolute outside scheme rest else outside.other scheme rest
  | none => none

/-- The parser with a base of one of the two schemes. -/
def resolve (outside : Outside) (base : Url) (input : List Char) : Option Url :=
  match schemeOf (clean input) with
  | some (scheme, rest) =>
      if isWeb scheme then
        if base.scheme = scheme ∧ !(['/', '/'].isPrefixOf rest) then relative outside base rest
        else absolute outside scheme rest
      else outside.other scheme rest
  | none => relative outside base (clean input)

/-! ## Serialization -/

/-- The path serializer. -/
def pathText (path : List (List Char)) : List Char := path.flatMap fun segment => '/' :: segment

/-- A part behind its mark, or nothing. -/
def marked (mark : Char) : Option (List Char) → List Char
  | some part => mark :: part
  | none => []

/-- What the URL serializer writes behind the authority. -/
def Parts.text (parts : Parts) : List Char :=
  pathText parts.path ++ (marked '?' parts.query ++ marked '#' parts.fragment)

/-- An authority as it is serialized. -/
def Authority.text (authority : Authority) : List Char :=
  (if authority.username.isEmpty && authority.password.isNone then []
    else authority.username ++ marked ':' authority.password ++ ['@']) ++
  authority.host ++ marked ':' (authority.port.map fun port => (toString port).toList)

/-- The URL serializer. -/
def Url.href (url : Url) : List Char :=
  url.scheme ++ [':', '/', '/'] ++ url.authority.text ++ url.parts.text

/-- The getter of the path. -/
def Url.pathname (url : Url) : List Char := pathText url.parts.path

/-- The getters of the query and the fragment: an empty part has no mark. -/
def shown (mark : Char) : Option (List Char) → List Char
  | some (c :: part) => mark :: c :: part
  | _ => []

def Url.search (url : Url) : List Char := shown '?' url.parts.query

def Url.hash (url : Url) : List Char := shown '#' url.parts.fragment

/-- The origin: scheme, host and port. -/
def Url.origin (url : Url) : List Char × List Char × Option Nat :=
  (url.scheme, url.authority.host, url.authority.port)

/-! ## Normal parts -/

/-- A segment that the parser gives. -/
structure IsSegment (segment : List Char) : Prop where
  chars : ∀ c ∈ segment, pathSet c = false ∧ isSlash c = false
  notSingle : isSingleDot segment = false
  notDouble : isDoubleDot segment = false

/-- Parts that the parser gives. -/
structure Normal (parts : Parts) : Prop where
  segments : ∀ segment ∈ parts.path, IsSegment segment
  nonempty : parts.path ≠ []
  query : ∀ c ∈ parts.query.getD [], specialQuerySet c = false
  fragment : ∀ c ∈ parts.fragment.getD [], fragmentSet c = false

theorem isSegment_nil : IsSegment [] :=
  ⟨fun _ hc => absurd hc List.not_mem_nil, rfl, rfl⟩

section

variable {path : List (List Char)} {buffer segment text rest : List Char} {parts : Parts}

theorem endSegment_segments (hpath : ∀ segment ∈ path, IsSegment segment)
    (hbuffer : ∀ c ∈ buffer, pathSet c = false ∧ isSlash c = false) (slash : Bool) :
    ∀ segment ∈ endSegment path buffer slash, IsSegment segment := by
  have hdrop : ∀ segment ∈ path.dropLast, IsSegment segment :=
    fun segment hmem => hpath segment (List.dropLast_subset _ hmem)
  have hempty : ∀ path : List (List Char), (∀ segment ∈ path, IsSegment segment) →
      ∀ last, IsSegment last → ∀ segment ∈ path ++ [last], IsSegment segment := by
    intro path hpath last hlast segment hmem
    rcases List.mem_append.mp hmem with hmem | hmem
    · exact hpath segment hmem
    · rw [List.mem_singleton.mp hmem]
      exact hlast
  unfold endSegment
  cases hdouble : isDoubleDot buffer with
  | true =>
      cases slash with
      | true => exact hdrop
      | false => exact hempty _ hdrop _ isSegment_nil
  | false =>
      cases hsingle : isSingleDot buffer with
      | true =>
          cases slash with
          | true => exact hpath
          | false => exact hempty _ hpath _ isSegment_nil
      | false => exact hempty _ hpath _ ⟨hbuffer, hsingle, hdouble⟩

theorem endSegment_ne_nil : endSegment path buffer false ≠ [] := by
  unfold endSegment
  split
  · simp
  · split <;> simp

theorem endSegment_of_isSegment (h : IsSegment segment) (slash : Bool) :
    endSegment path segment slash = path ++ [segment] := by
  rw [endSegment, h.notDouble, h.notSingle, if_neg (by decide), if_neg (by decide)]

theorem readFragment_not : ∀ c ∈ (readFragment text).getD [], fragmentSet c = false := by
  unfold readFragment
  split
  · exact percentEncodeText_not fun c hc => (escapeChars_plain c hc).2.2.1
  · exact fun c hc => absurd hc List.not_mem_nil

theorem readTail_normal (hpath : ∀ segment ∈ path, IsSegment segment) (hne : path ≠ []) :
    Normal (readTail path text) := by
  unfold readTail
  split
  · exact ⟨hpath, hne, percentEncodeText_not fun c hc => (escapeChars_plain c hc).2.1,
      readFragment_not⟩
  · exact ⟨hpath, hne, fun c hc => absurd hc List.not_mem_nil, readFragment_not⟩

/-- **The path state gives normal parts.** -/
theorem pathState_normal (hpath : ∀ segment ∈ path, IsSegment segment)
    (hbuffer : ∀ c ∈ buffer, pathSet c = false ∧ isSlash c = false) (text : List Char) :
    Normal (pathState path buffer text) := by
  induction text generalizing path buffer with
  | nil => exact readTail_normal (endSegment_segments hpath hbuffer false) endSegment_ne_nil
  | cons c rest ih =>
      cases hslash : isSlash c with
      | true =>
          rw [pathState, if_pos hslash]
          exact ih (endSegment_segments hpath hbuffer true) fun d hd => absurd hd List.not_mem_nil
      | false =>
          rw [pathState, if_neg (by rw [hslash]; decide)]
          split
          · exact readTail_normal (endSegment_segments hpath hbuffer false) endSegment_ne_nil
          · apply ih hpath
            intro d hd
            rcases List.mem_append.mp hd with hd | hd
            · exact hbuffer d hd
            · rcases mem_percentEncode hd with ⟨rfl, hnot⟩ | hescape
              · exact ⟨hnot, hslash⟩
              · have hplain := escapeChars_plain d hescape
                exact ⟨hplain.1, hplain.2.2.2⟩

/-! ## Round trip -/

theorem pathSet_marks : pathSet '?' = true ∧ pathSet '#' = true := ⟨rfl, rfl⟩

/-- The path state reads the characters of a segment. -/
theorem pathState_append (hchars : ∀ c ∈ segment, pathSet c = false ∧ isSlash c = false) :
    pathState path buffer (segment ++ rest) = pathState path (buffer ++ segment) rest := by
  induction segment generalizing buffer with
  | nil => rw [List.nil_append, List.append_nil]
  | cons c segment ih =>
      obtain ⟨hset, hslash⟩ := hchars c List.mem_cons_self
      have hmark : ¬ (c = '?' ∨ c = '#') := by
        rintro (rfl | rfl)
        · rw [pathSet_marks.1] at hset
          cases hset
        · rw [pathSet_marks.2] at hset
          cases hset
      rw [List.cons_append, pathState, hslash, if_neg (by decide), if_neg hmark,
        percentEncode_of_not hset,
        ih fun d hd => hchars d (List.mem_cons_of_mem _ hd), List.append_assoc]
      rfl

/-- What follows a path begins with a mark. -/
def IsTail (text : List Char) : Prop := text.head?.all fun c => c == '?' || c == '#'

theorem pathState_tail (h : IsTail text) (hsegment : IsSegment segment) :
    pathState path segment text = readTail (path ++ [segment]) text := by
  cases text with
  | nil => rw [pathState, endSegment_of_isSegment hsegment]
  | cons c rest =>
      have hmark : c = '?' ∨ c = '#' := by simpa [IsTail] using h
      have hslash : isSlash c = false := by rcases hmark with rfl | rfl <;> rfl
      rw [pathState, hslash, if_neg (by decide), if_pos hmark, endSegment_of_isSegment hsegment]

/-- **The path state reads segments back.** -/
theorem pathState_segments {segments : List (List Char)} (hsegment : IsSegment segment)
    (hsegments : ∀ other ∈ segments, IsSegment other) (htail : IsTail text) :
    pathState path [] (segment ++ (pathText segments ++ text)) =
      readTail (path ++ segment :: segments) text := by
  induction segments generalizing path segment with
  | nil =>
      rw [pathState_append hsegment.chars, List.nil_append]
      exact pathState_tail htail hsegment
  | cons other segments ih =>
      have hread : pathText (other :: segments) ++ text =
          '/' :: (other ++ (pathText segments ++ text)) := by
        simp [pathText]
      rw [pathState_append hsegment.chars, hread, List.nil_append, pathState, if_pos (by rfl),
        endSegment_of_isSegment hsegment,
        ih (hsegments other List.mem_cons_self) fun s hs => hsegments s (List.mem_cons_of_mem _ hs),
        List.append_assoc]
      rfl

theorem readFragment_marked {fragment : Option (List Char)}
    (h : ∀ c ∈ fragment.getD [], fragmentSet c = false) :
    readFragment (marked '#' fragment) = fragment := by
  cases fragment with
  | none => rfl
  | some fragment =>
      have hplain : ∀ c ∈ fragment, fragmentSet c = false := h
      change some (percentEncodeText fragmentSet fragment) = some fragment
      rw [percentEncodeText_of_not hplain]

/-- Query and fragment are read back. -/
theorem readTail_marked (h : Normal parts) :
    readTail parts.path (marked '?' parts.query ++ marked '#' parts.fragment) = parts := by
  have hfragment := readFragment_marked h.fragment
  obtain ⟨path, query, fragment⟩ := parts
  cases query with
  | none =>
      cases fragment with
      | none => rfl
      | some fragment =>
          change Parts.mk path none (readFragment (marked '#' (some fragment))) = _
          rw [hfragment]
  | some query =>
      have hquery : ∀ c ∈ query, specialQuerySet c = false := h.query
      have hmark : specialQuerySet '#' = true := rfl
      have hplain : ∀ c ∈ query, decide (c ≠ '#') = true := by
        rintro c hc
        apply decide_eq_true
        rintro rfl
        rw [hquery '#' hc] at hmark
        cases hmark
      have hstop : (marked '#' fragment).takeWhile (fun c => decide (c ≠ '#')) = [] ∧
          (marked '#' fragment).dropWhile (fun c => decide (c ≠ '#')) = marked '#' fragment := by
        cases fragment with
        | none => exact ⟨rfl, rfl⟩
        | some fragment => exact ⟨by simp [marked], by simp [marked]⟩
      change Parts.mk path
        (some (percentEncodeText specialQuerySet
          ((query ++ marked '#' fragment).takeWhile (· ≠ '#'))))
        (readFragment ((query ++ marked '#' fragment).dropWhile (· ≠ '#'))) = _
      rw [List.takeWhile_append_of_pos hplain, List.dropWhile_append_of_pos hplain,
        hstop.1, hstop.2,
        List.append_nil, percentEncodeText_of_not hquery, hfragment]

theorem isTail_marked (query fragment : Option (List Char)) :
    IsTail (marked '?' query ++ marked '#' fragment) := by
  cases query <;> cases fragment <;> simp [IsTail, marked]

/-- **Normal parts are read as they are written.** -/
theorem pathState_text (h : Normal parts) :
    ∃ rest, parts.text = '/' :: rest ∧ pathState [] [] rest = parts := by
  have hread := readTail_marked h
  obtain ⟨path, query, fragment⟩ := parts
  cases path with
  | nil => exact absurd rfl h.nonempty
  | cons segment segments =>
      refine ⟨segment ++ (pathText segments ++ (marked '?' query ++ marked '#' fragment)), ?_, ?_⟩
      · simp [Parts.text, pathText]
      · rw [pathState_segments (h.segments segment List.mem_cons_self)
          (fun s hs => h.segments s (List.mem_cons_of_mem _ hs)) (isTail_marked query fragment)]
        exact hread

/-! ## What is written -/

/-- The character is one that is written: no control, no space, and ASCII. -/
def isPrintable (c : Char) : Bool := 0x20 < c.toNat && c.toNat < 0x7f

theorem isPrintable_of_sets {c : Char} (hcontrol : controlSet c = false) (hspace : c ≠ ' ') :
    isPrintable c = true := by
  have hne : c.toNat ≠ 0x20 := fun h => hspace (Char.toNat_inj.mp h)
  simp only [controlSet, isPrintable, Bool.or_eq_false_iff, decide_eq_false_iff_not,
    Bool.and_eq_true,
    decide_eq_true_eq] at hcontrol ⊢
  omega

theorem isPrintable_of_querySet {c : Char} (h : querySet c = false) : isPrintable c = true := by
  obtain ⟨hcontrol, hchars⟩ := Bool.or_eq_false_iff.mp h
  apply isPrintable_of_sets hcontrol
  rintro rfl
  cases hchars

theorem isPrintable_of_fragmentSet {c : Char} (h : fragmentSet c = false) :
    isPrintable c = true := by
  obtain ⟨hcontrol, hchars⟩ := Bool.or_eq_false_iff.mp h
  apply isPrintable_of_sets hcontrol
  rintro rfl
  cases hchars

theorem pathText_printable (h : ∀ segment ∈ path, IsSegment segment) :
    ∀ c ∈ pathText path, isPrintable c = true := by
  intro c hc
  obtain ⟨segment, hmem, hc⟩ := List.mem_flatMap.mp hc
  rcases List.mem_cons.mp hc with rfl | hc
  · rfl
  · exact isPrintable_of_querySet (Bool.or_eq_false_iff.mp ((h segment hmem).chars c hc).1).1

theorem marked_printable {mark : Char} {part : Option (List Char)} (hmark : isPrintable mark = true)
    (h : ∀ c ∈ part.getD [], isPrintable c = true) :
    ∀ c ∈ marked mark part, isPrintable c = true := by
  intro c hc
  cases part with
  | none => cases hc
  | some part =>
      rcases List.mem_cons.mp hc with rfl | hc
      · exact hmark
      · exact h c hc

/-- Normal parts are written in printable ASCII. -/
theorem Normal.text_printable (h : Normal parts) : ∀ c ∈ parts.text, isPrintable c = true := by
  intro c hc
  rcases List.mem_append.mp hc with hc | hc
  · exact pathText_printable h.segments c hc
  · rcases List.mem_append.mp hc with hc | hc
    · exact marked_printable (by rfl)
        (fun d hd => isPrintable_of_querySet (Bool.or_eq_false_iff.mp (h.query d hd)).1) c hc
    · exact marked_printable (by rfl)
        (fun d hd => isPrintable_of_fragmentSet (h.fragment d hd)) c hc

theorem dropWhile_blank (h : ∀ c ∈ text, isPrintable c = true) :
    text.dropWhile (fun c => decide (c.toNat ≤ 0x20)) = text := by
  cases text with
  | nil => rfl
  | cons c rest =>
      have hc := h c List.mem_cons_self
      simp only [isPrintable, Bool.and_eq_true, decide_eq_true_eq] at hc
      rw [List.dropWhile_cons_of_neg]
      simp only [decide_eq_true_eq]
      omega

/-- Nothing is dropped from printable text. -/
theorem clean_of_printable (h : ∀ c ∈ text, isPrintable c = true) : clean text = text := by
  unfold clean
  dsimp only
  rw [dropWhile_blank h, dropWhile_blank fun c hc => h c (List.mem_reverse.mp hc),
    List.reverse_reverse,
    List.filter_eq_self]
  intro c hc
  have hprint := h c hc
  simp only [isPrintable, Bool.and_eq_true, decide_eq_true_eq] at hprint
  simp only [Bool.not_eq_true', List.contains_cons, List.contains_nil, Bool.or_false,
    Bool.or_eq_false_iff, beq_eq_false_iff_ne]
  omega

/-- A text that begins with a slash has no scheme. -/
theorem schemeOf_slash (rest : List Char) : schemeOf ('/' :: rest) = none := by
  unfold schemeOf
  dsimp only
  rw [List.takeWhile_cons_of_neg (by decide), if_neg]
  rintro ⟨hhead, -⟩
  cases hhead

/-- Behind its first slash a normal path from the root has no second one. -/
theorem Normal.head_not_slash (h : Normal parts) (hroot : ¬ ['/', '/'] <+: parts.text)
    (htext : parts.text = '/' :: rest) : rest.head?.any isSlash = false := by
  rw [Bool.eq_false_iff]
  intro hslash
  obtain ⟨c, more, rfl, hc⟩ : ∃ c more, rest = c :: more ∧ isSlash c = true := by
    cases rest with
    | nil => cases hslash
    | cons c more => exact ⟨c, more, rfl, hslash⟩
  rcases Bool.or_eq_true_iff.mp hc with hc | hc
  · obtain rfl := eq_of_beq hc
    exact hroot ⟨more, htext.symm⟩
  · -- no backslash stands in front of the query
    obtain rfl := eq_of_beq hc
    obtain ⟨path, query, fragment⟩ := parts
    cases path with
    | nil => exact absurd rfl h.nonempty
    | cons segment segments =>
        have hrest : segment ++ (pathText segments ++ (marked '?' query ++ marked '#' fragment)) =
            '\\' :: more := by
          simpa [Parts.text, pathText] using htext
        cases segment with
        | cons d segment =>
            obtain ⟨rfl, -⟩ := List.cons.inj hrest
            have hchar := ((h.segments _ List.mem_cons_self).chars _ List.mem_cons_self).2
            cases hchar
        | nil =>
            cases segments with
            | cons other segments => simp [pathText] at hrest
            | nil => cases query <;> cases fragment <;> simp [pathText, marked] at hrest

/-- **A path from the root that is normal, resolved against any base.** -/
theorem resolve_text (h : Normal parts) (hroot : ¬ ['/', '/'] <+: parts.text) (outside : Outside)
    (base : Url) : resolve outside base parts.text = some { base with parts := parts } := by
  obtain ⟨rest, htext, hread⟩ := pathState_text h
  have hnot := h.head_not_slash hroot htext
  unfold resolve
  rw [clean_of_printable h.text_printable, htext, schemeOf_slash]
  change relative outside base ('/' :: rest) = _
  rw [relative, if_pos (by rfl), hnot, if_neg (by decide), hread]

/-! ## URLs are read as they are written -/

/-- A scheme in front of a colon. -/
theorem schemeOf_append {scheme : List Char} (hhead : scheme.head?.any Char.isAlpha = true)
    (hchars : ∀ c ∈ scheme, (c.isAlphanum || ['+', '-', '.'].contains c) = true)
    (rest : List Char) :
    schemeOf (scheme ++ ':' :: rest) = some (lower scheme, rest) := by
  have htake : (scheme ++ ':' :: rest).takeWhile
      (fun c => c.isAlphanum || ['+', '-', '.'].contains c) = scheme := by
    rw [List.takeWhile_append_of_pos hchars, List.takeWhile_cons_of_neg (by decide +kernel),
      List.append_nil]
  unfold schemeOf
  simp only [htake]
  rw [List.drop_left, if_pos ⟨hhead, rfl⟩, List.drop_append]
  simp

/-- An authority goes up to the first slash, question mark or number sign. -/
theorem absolute_text {host : List Char} (hne : host ≠ [])
    (hhost : ∀ c ∈ host, endsAuthority c = false)
    (outside : Outside) (scheme rest : List Char) :
    absolute outside scheme (['/', '/'] ++ (host ++ '/' :: rest)) =
      (outside.authority scheme host).map fun authority =>
        ⟨scheme, authority, pathState [] [] rest⟩ := by
  have hdrop : (['/', '/'] ++ (host ++ '/' :: rest)).dropWhile isSlash = host ++ '/' :: rest := by
    cases host with
    | nil => exact absurd rfl hne
    | cons c host =>
        have hc : isSlash c = false := by
          have hends := hhost c List.mem_cons_self
          rw [endsAuthority, Bool.or_eq_false_iff, Bool.or_eq_false_iff] at hends
          exact hends.1.1
        change (c :: (host ++ '/' :: rest)).dropWhile isSlash = _
        rw [List.dropWhile_cons_of_neg (by rw [hc]; decide)]
        rfl
  have hkeep : ∀ c ∈ host, (!endsAuthority c) = true := fun c hc => by rw [hhost c hc]; rfl
  have htake : (host ++ '/' :: rest).takeWhile (fun c => !endsAuthority c) = host := by
    rw [List.takeWhile_append_of_pos hkeep, List.takeWhile_cons_of_neg (by decide), List.append_nil]
  have hrest : (host ++ '/' :: rest).dropWhile (fun c => !endsAuthority c) = '/' :: rest := by
    rw [List.dropWhile_append_of_pos hkeep, List.dropWhile_cons_of_neg (by decide)]
  unfold absolute
  simp only [hdrop, htake, hrest]
  rfl

/-- **A URL is read as it is written**, where its authority is. -/
theorem parse_href {url : Url} (hscheme : isWeb url.scheme = true) (hparts : Normal url.parts)
    (hne : url.authority.text ≠ [])
    (hhost : ∀ c ∈ url.authority.text, endsAuthority c = false ∧ isPrintable c = true)
    (outside : Outside)
    (hauthority : outside.authority url.scheme url.authority.text = some url.authority) :
    parse outside url.href = some url := by
  obtain ⟨rest, htext, hread⟩ := pathState_text hparts
  have hhref : url.href =
      url.scheme ++ ':' :: (['/', '/'] ++ (url.authority.text ++ '/' :: rest)) := by
    rw [Url.href, htext]
    simp
  have hletters : url.scheme.head?.any Char.isAlpha = true ∧
      (∀ c ∈ url.scheme, (c.isAlphanum || ['+', '-', '.'].contains c) = true) ∧
      (∀ c ∈ url.scheme, isPrintable c = true) ∧ lower url.scheme = url.scheme := by
    rcases Bool.or_eq_true_iff.mp hscheme with h | h
    · rw [eq_of_beq h]
      exact ⟨by decide +kernel, List.all_eq_true.mp (by decide +kernel),
        List.all_eq_true.mp (by decide +kernel), by decide +kernel⟩
    · rw [eq_of_beq h]
      exact ⟨by decide +kernel, List.all_eq_true.mp (by decide +kernel),
        List.all_eq_true.mp (by decide +kernel), by decide +kernel⟩
  obtain ⟨hhead, hchars, hprint, hlower⟩ := hletters
  have hclean : clean url.href = url.href := by
    apply clean_of_printable
    intro c hc
    rw [Url.href] at hc
    rcases List.mem_append.mp hc with hc | hc
    · rcases List.mem_append.mp hc with hc | hc
      · rcases List.mem_append.mp hc with hc | hc
        · exact hprint c hc
        · exact List.all_eq_true.mp (show [':', '/', '/'].all isPrintable = true by decide) c hc
      · exact (hhost c hc).2
    · exact hparts.text_printable c hc
  unfold parse
  rw [hclean, hhref, schemeOf_append hhead hchars, hlower]
  dsimp only
  rw [if_pos hscheme, absolute_text hne fun c hc => (hhost c hc).1, hauthority,
    Option.map_some, hread]

end

end WhatwgUrl
