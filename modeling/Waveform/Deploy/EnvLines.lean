import Mathlib.Data.List.TakeWhile
import Waveform.Deploy.NativeEnv
import Waveform.Library.Utf8

/-!
# Lines of bytes and lines of text

The rewriter of `native.env` sees lines of bytes and the reader lines of text. A line of bytes ends
where a line of text ends, so the settings that the reader finds in the file are those that it finds
in its lines of bytes, one after the other; a line of bytes gives its own setting first and then
those of the lines of text that hide behind it.

- `settings_flatten`: the settings of a file are those of its lines of bytes.
- `settings_eq_hidden`: a line of bytes that does not set a key gives only what hides behind it.
-/

set_option autoImplicit false

namespace Waveform.Deploy

open Waveform.Domain

variable {key : String} {text rest line : List Char} {c : Char} {bytes front back : List UInt8}

theorem decode_eq_some_iff : decode bytes = some text ↔ bytes = Utf8.encode text :=
  Utf8.decode_eq_some_iff

/-! ## Lines of text -/

/-- The character ends a line of text. -/
def isBoundary (c : Char) : Bool := lineBoundaries.contains c.toNat

/-- The character ends a line of bytes. -/
def IsReturn (c : Char) : Prop := c = '\n' ∨ c = '\r'

theorem IsReturn.isBoundary (h : IsReturn c) : isBoundary c = true := by
  rcases h with rfl | rfl <;> decide

theorem splitlinesFrom_of_boundary (h : isBoundary c = true)
    (hcr : c ≠ '\r' ∨ rest.head? ≠ some '\n') :
    splitlinesFrom line (c :: rest) = line.reverse :: splitlinesFrom [] rest := by
  rw [splitlinesFrom.eq_def]
  split
  · rename_i heq
    cases heq
  · rename_i heq
    cases heq
    rcases hcr with hcr | hcr <;> exact absurd rfl hcr
  · rename_i heq
    cases heq
    exact if_pos h

theorem splitlinesFrom_of_not_boundary (h : isBoundary c = false) :
    splitlinesFrom line (c :: rest) = splitlinesFrom (c :: line) rest := by
  rw [splitlinesFrom.eq_def]
  split
  · rename_i heq
    cases heq
  · rename_i heq
    cases heq
    cases h
  · rename_i heq
    cases heq
    exact if_neg (by rw [show lineBoundaries.contains c.toNat = false from h]; decide)

/-- A text without boundaries is one line. -/
theorem splitlines_of_plain (hne : text ≠ []) (hplain : ∀ c ∈ text, isBoundary c = false) :
    splitlines text = [text] := by
  have hfrom : ∀ line, line ≠ [] ∨ text ≠ [] →
      splitlinesFrom line text = [line.reverse ++ text] := by
    clear hne
    induction text with
    | nil =>
        intro line hne
        have hline : line.isEmpty = false := by simpa using hne
        simp [splitlinesFrom, hline]
    | cons c rest ih =>
        intro line _
        rw [splitlinesFrom_of_not_boundary (hplain c List.mem_cons_self),
          ih (fun d hd => hplain d (List.mem_cons_of_mem _ hd)) _ (.inl (List.cons_ne_nil c line))]
        simp
  exact hfrom [] (.inr hne)

/-- An empty line sets nothing. -/
@[simp] theorem lineValue_nil : lineValue key [] = none := by
  have hne : (key ++ "=").toList ≠ [] := by simp
  have hnot : (key ++ "=").toList.isPrefixOf [] = false := by
    cases hlist : (key ++ "=").toList with
    | nil => exact absurd hlist hne
    | cons c rest => rfl
  rw [lineValue, hnot]
  rfl

/-- A return ends a line, and what is behind it sets what it sets on its own. -/
theorem lineValues_return (hc : IsReturn c) (line rest : List Char) :
    (splitlinesFrom line (c :: rest)).filterMap (lineValue key) =
      [line.reverse].filterMap (lineValue key) ++ lineValues key rest := by
  by_cases hpair : c = '\r' ∧ rest.head? = some '\n'
  · -- the line feed belongs to the return, and alone it would end an empty line
    obtain ⟨rfl, hfeed⟩ := hpair
    obtain ⟨rest, rfl⟩ := List.head?_eq_some_iff.mp hfeed
    have hboth : splitlinesFrom line ('\r' :: '\n' :: rest) =
        [line.reverse] ++ splitlinesFrom [] rest := rfl
    have hfeed : splitlines ('\n' :: rest) = [[]] ++ splitlinesFrom [] rest := by
      rw [splitlines, splitlinesFrom_of_boundary (by decide) (.inl (by decide))]
      rfl
    rw [hboth, lineValues, hfeed, List.filterMap_append, List.filterMap_append]
    simp
  · have hcr : c ≠ '\r' ∨ rest.head? ≠ some '\n' := not_and_or.mp hpair
    rw [splitlinesFrom_of_boundary hc.isBoundary hcr, ← List.singleton_append,
      List.filterMap_append]
    rfl

/-- **The settings of a text that is cut at a return are those of its parts.** -/
theorem lineValues_append_return (hc : IsReturn c) (text rest : List Char) :
    lineValues key (text ++ c :: rest) = lineValues key text ++ lineValues key rest := by
  have hfrom : ∀ line, (splitlinesFrom line (text ++ c :: rest)).filterMap (lineValue key) =
      (splitlinesFrom line text).filterMap (lineValue key) ++ lineValues key rest := by
    intro line
    induction line, text using splitlinesFrom.induct with
    | case1 line hempty =>
        obtain rfl : line = [] := List.isEmpty_iff.mp hempty
        rw [List.nil_append, lineValues_return hc]
        simp [splitlinesFrom]
    | case2 line hempty =>
        have hline : splitlinesFrom line [] = [line.reverse] := by simp [splitlinesFrom, hempty]
        rw [List.nil_append, lineValues_return hc, hline]
    | case3 line text ih =>
        have hboth : ∀ text, splitlinesFrom line ('\r' :: '\n' :: text) =
            [line.reverse] ++ splitlinesFrom [] text := fun _ => rfl
        rw [List.cons_append, List.cons_append, hboth, hboth, List.filterMap_append,
          List.filterMap_append, ih, List.append_assoc]
    | case4 line d text hnot hboundary ih =>
        have hcr : d ≠ '\r' ∨ text.head? ≠ some '\n' := by
          by_cases hd : d = '\r'
          · refine .inr fun hfeed => ?_
            obtain ⟨text', rfl⟩ := List.head?_eq_some_iff.mp hfeed
            exact hnot text' hd rfl
          · exact .inl hd
        have hright : splitlinesFrom line (d :: text) = line.reverse :: splitlinesFrom [] text :=
          splitlinesFrom_of_boundary hboundary hcr
        by_cases hcr' : d ≠ '\r' ∨ (text ++ c :: rest).head? ≠ some '\n'
        · rw [List.cons_append, splitlinesFrom_of_boundary hboundary hcr', hright,
            ← List.singleton_append, List.filterMap_append, ih, ← List.append_assoc,
            ← List.filterMap_append]
          rfl
        · -- the cut is between a return and its line feed
          obtain ⟨hd, hfeed⟩ := not_or.mp hcr'
          obtain rfl : d = '\r' := not_not.mp hd
          cases text with
          | cons e text =>
              rcases hcr with hcr | hcr
              · exact absurd rfl hcr
              · exact absurd (not_not.mp hfeed) hcr
          | nil =>
              obtain rfl : c = '\n' := by simpa using hfeed
              have hboth : splitlinesFrom line ('\r' :: '\n' :: rest) =
                  [line.reverse] ++ splitlinesFrom [] rest := rfl
              rw [List.cons_append, List.nil_append, hboth, List.filterMap_append, hright]
              rfl
    | case5 line d text hnot hboundary ih =>
        have hplain : isBoundary d = false := by simpa [isBoundary] using hboundary
        rw [List.cons_append, splitlinesFrom_of_not_boundary hplain,
          splitlinesFrom_of_not_boundary hplain, ih]
  exact hfrom []

/-! ## Settings of bytes -/

/-- The values of a key in a part of the file; a part that is no text has none. -/
def settings (key : String) (bytes : List UInt8) : List (List Char) :=
  match decode bytes with
  | some text => lineValues key text
  | none => []

/-- The byte ends a line of bytes. -/
def IsReturnByte (b : UInt8) : Prop := b = 0x0a ∨ b = 0x0d

/-- A part of the file that ends a line. -/
def Ends (bytes : List UInt8) : Prop := ∃ b, bytes.getLast? = some b ∧ IsReturnByte b

theorem IsReturnByte.ascii {b : UInt8} (h : IsReturnByte b) : b.toNat < 0x80 := by
  rcases h with rfl | rfl <;> decide

theorem IsReturnByte.isReturn {b : UInt8} (h : IsReturnByte b) : IsReturn (Char.ofNat b.toNat) := by
  rcases h with rfl | rfl
  · exact .inl (by decide)
  · exact .inr (by decide)

theorem settings_of_decode (h : decode bytes = some text) :
    settings key bytes = lineValues key text := by
  rw [settings, h]

/-- A return at the end sets nothing. -/
theorem settings_concat {b : UInt8} (hb : IsReturnByte b) :
    settings key (front ++ [b]) = settings key front := by
  have hdecode : decode (front ++ [b]) =
      (decode front).map fun text => text ++ [Char.ofNat b.toNat] := Utf8.decode_concat hb.ascii
  cases hfront : decode front with
  | none => simp [settings, hdecode, hfront]
  | some text =>
      have hcut := @lineValues_append_return key _ hb.isReturn text []
      simp only [settings, hdecode, hfront, Option.map_some, hcut]
      simp [lineValues, splitlines, splitlinesFrom]

theorem settings_append_returns (h : ∀ b ∈ back, IsReturnByte b) :
    settings key (front ++ back) = settings key front := by
  induction back generalizing front with
  | nil => rw [List.append_nil]
  | cons b back ih =>
      rw [← List.singleton_append, ← List.append_assoc,
        ih fun d hd => h d (List.mem_cons_of_mem _ hd),
        settings_concat (h b List.mem_cons_self)]

/-- **A file that is cut behind a line sets what its parts set.** -/
theorem settings_append (hends : Ends front) (h : (decode (front ++ back)).isSome = true) :
    (decode front).isSome = true ∧ (decode back).isSome = true ∧
      settings key (front ++ back) = settings key front ++ settings key back := by
  obtain ⟨b, hlast, hb⟩ := hends
  obtain ⟨text, htext⟩ := Option.isSome_iff_exists.mp h
  obtain ⟨first, second, hfirst, hsecond, rfl⟩ := Utf8.decode_append_cut htext hlast hb.ascii
  obtain ⟨start, rfl⟩ : ∃ start, front = start ++ [b] := List.getLast?_eq_some_iff.mp hlast
  have hdecode : decode (start ++ [b]) =
      (decode start).map fun text => text ++ [Char.ofNat b.toNat] := Utf8.decode_concat hb.ascii
  have hfirst' : decode (start ++ [b]) = some first := hfirst
  have hsecond' : decode back = some second := hsecond
  refine ⟨by rw [hfirst']; rfl, by rw [hsecond']; rfl, ?_⟩
  rw [hdecode] at hfirst'
  obtain ⟨before, hbefore, rfl⟩ := Option.map_eq_some_iff.mp hfirst'
  have hcut := @lineValues_append_return key _ hb.isReturn before second
  rw [settings_concat hb, settings_of_decode hbefore, settings_of_decode hsecond',
    settings_of_decode htext, List.append_assoc, List.singleton_append, hcut]

/-- **The settings of a file are those of its lines of bytes.** -/
theorem settings_flatten {lines : List (List UInt8)} (hends : ∀ line ∈ lines.dropLast, Ends line)
    (h : (decode lines.flatten).isSome = true) :
    (∀ line ∈ lines, (decode line).isSome = true) ∧
      settings key lines.flatten = lines.flatMap (settings key) := by
  induction lines with
  | nil => exact ⟨fun line hline => absurd hline List.not_mem_nil, rfl⟩
  | cons first rest ih =>
      cases rest with
      | nil =>
          rw [List.flatten_singleton] at h ⊢
          refine ⟨fun line hline => ?_, (List.append_nil _).symm⟩
          rw [List.mem_singleton.mp hline]
          exact h
      | cons second rest =>
          rw [List.flatten_cons] at h
          have hfirst : Ends first := hends first (by simp)
          obtain ⟨hdecode, hback, hset⟩ := @settings_append key _ _ hfirst h
          obtain ⟨hall, hrest⟩ := ih (fun line hline => hends line (by simp [hline])) hback
          refine ⟨fun line hline => ?_, ?_⟩
          · rcases List.mem_cons.mp hline with rfl | hline
            · exact hdecode
            · exact hall line hline
          · rw [List.flatten_cons, hset, hrest]
            rfl

/-! ## Keys -/

/-- The byte is one of those that `KEY_LINE` takes behind the first. -/
def isKeyByte (b : UInt8) : Bool := upperOrUnderscore b || (0x30 ≤ b && b ≤ 0x39)

/-- A key as `KEY_LINE` has it. -/
def isKeyName (key : String) : Bool := decide (keyOfLine (utf8 (key ++ "=")) = some (utf8 key))

theorem keyOfLine_eq_some_iff {name : List UInt8} :
    keyOfLine bytes = some name ↔ bytes.takeWhile isKeyByte = name ∧
      name.head?.any (fun b => 0x41 ≤ b && b ≤ 0x5a) = true ∧
        (bytes.drop name.length).head? = some 0x3d := by
  have hdef : keyOfLine bytes = if (bytes.takeWhile isKeyByte).head?.any
      (fun b => 0x41 ≤ b && b ≤ 0x5a) = true ∧
      (bytes.drop (bytes.takeWhile isKeyByte).length).head? = some 0x3d
      then some (bytes.takeWhile isKeyByte) else none := rfl
  rw [hdef]
  constructor
  · intro h
    obtain ⟨hcond, hname⟩ := Option.ite_none_right_eq_some.mp h
    obtain rfl := Option.some.inj hname
    exact ⟨rfl, hcond⟩
  · rintro ⟨rfl, hcond⟩
    exact if_pos hcond

theorem isKeyByte_of_isKeyName (h : isKeyName key = true) : ∀ b ∈ utf8 key, isKeyByte b = true := by
  obtain ⟨hname, -⟩ := keyOfLine_eq_some_iff.mp (of_decide_eq_true h)
  intro b hb
  rw [← hname] at hb
  exact List.mem_takeWhile_imp hb

theorem decode_append_returns (h : ∀ b ∈ back, IsReturnByte b) :
    (decode (front ++ back)).isSome = (decode front).isSome := by
  induction back generalizing front with
  | nil => rw [List.append_nil]
  | cons b back ih =>
      have hdecode : decode (front ++ [b]) =
          (decode front).map fun text => text ++ [Char.ofNat b.toNat] :=
        Utf8.decode_concat (h b List.mem_cons_self).ascii
      rw [← List.singleton_append, ← List.append_assoc,
        ih fun d hd => h d (List.mem_cons_of_mem _ hd), hdecode, Option.isSome_map]

/-- The characters of a key are letters, digits and underscores. -/
theorem key_char (h : isKeyName key = true) (hc : c ∈ key.toList) :
    (0x30 ≤ c.toNat ∧ c.toNat ≤ 0x39) ∨ (0x41 ≤ c.toNat ∧ c.toNat ≤ 0x5a) ∨ c.toNat = 0x5f := by
  obtain ⟨b, hb⟩ := List.exists_mem_of_ne_nil _ (Utf8.utf8EncodeChar_ne_nil c)
  have hbyte : isKeyByte b = true :=
    isKeyByte_of_isKeyName h b (List.mem_flatMap.mpr ⟨c, hc, hb⟩)
  simp only [isKeyByte, upperOrUnderscore, Bool.or_eq_true, Bool.and_eq_true, decide_eq_true_eq,
    beq_iff_eq, UInt8.le_iff_toNat_le] at hbyte
  have hrange : (0x30 ≤ b.toNat ∧ b.toNat ≤ 0x39) ∨ (0x41 ≤ b.toNat ∧ b.toNat ≤ 0x5a) ∨
      b.toNat = 0x5f := by
    rcases hbyte with (hupper | rfl) | hdigit
    · exact .inr (.inl hupper)
    · exact .inr (.inr rfl)
    · exact .inl hdigit
  have hascii : b.toNat < 0x80 := by omega
  rw [(Utf8.ascii_of_mem_utf8EncodeChar hb hascii).1]
  exact hrange

theorem key_ne_sign (h : isKeyName key = true) : ∀ c ∈ key.toList, c ≠ '=' := by
  rintro c hc rfl
  have hrange := key_char h hc
  rw [show ('=' : Char).toNat = 0x3d from rfl] at hrange
  omega

theorem key_not_boundary (h : isKeyName key = true) : ∀ c ∈ key.toList, isBoundary c = false := by
  intro c hc
  have hrange := key_char h hc
  simp only [isBoundary, lineBoundaries, List.contains_cons, List.contains_nil, Bool.or_false,
    Bool.or_eq_false_iff, beq_eq_false_iff_ne]
  omega

/-- The two sides of a text's first `=`. -/
theorem takeWhile_key (h : isKeyName key = true) (value : List Char) :
    (key.toList ++ '=' :: value).takeWhile (· ≠ '=') = key.toList ∧
      (key.toList ++ '=' :: value).dropWhile (· ≠ '=') = '=' :: value := by
  have hall : ∀ c ∈ key.toList, decide (c ≠ '=') = true :=
    fun c hc => decide_eq_true (key_ne_sign h c hc)
  constructor
  · rw [List.takeWhile_append_of_pos hall]
    simp
  · rw [List.dropWhile_append_of_pos hall]
    simp

/-- White space apart, `strip` takes nothing. -/
theorem strip_eq_self (h : ∀ c ∈ text, whitespace.contains c.toNat = false) :
    strip text = text := by
  have hkeep : ∀ text : List Char, (∀ c ∈ text, whitespace.contains c.toNat = false) →
      text.dropWhile (fun c => whitespace.contains c.toNat) = text := by
    intro text hplain
    cases text with
    | nil => rfl
    | cons c rest =>
        rw [List.dropWhile_cons_of_neg]
        rw [hplain c List.mem_cons_self]
        decide
  simp only [strip]
  rw [hkeep text h, hkeep text.reverse fun c hc => h c (List.mem_reverse.mp hc),
    List.reverse_reverse]

theorem toList_assignment (key value : String) :
    (key ++ "=" ++ value).toList = key.toList ++ '=' :: value.toList := by
  rw [String.toList_append, String.toList_append, List.append_assoc]
  rfl

/-- **A line of text that assigns a word to a key sets that key alone.** -/
theorem lineValues_assignment {assigned : String} (h : isKeyName key = true)
    (hassigned : isKeyName assigned = true) {value : String}
    (hvalue : ∀ c ∈ value.toList, whitespace.contains c.toNat = false)
    (hplain : ∀ c ∈ value.toList, isBoundary c = false) :
    lineValues key (assigned ++ "=" ++ value).toList =
      if key = assigned then [unquoted value.toList] else [] := by
  have hline : splitlines (assigned ++ "=" ++ value).toList =
      [(assigned ++ "=" ++ value).toList] := by
    rw [toList_assignment]
    apply splitlines_of_plain (by simp)
    intro c hc
    rcases List.mem_append.mp hc with hc | hc
    · exact key_not_boundary hassigned c hc
    · rcases List.mem_cons.mp hc with rfl | hc
      · decide
      · exact hplain c hc
  obtain ⟨htake, hdrop⟩ := takeWhile_key hassigned value.toList
  rw [lineValues, hline]
  by_cases heq : key = assigned
  · subst heq
    have hstart : (key ++ "=").toList.isPrefixOf (key ++ "=" ++ value).toList = true := by
      rw [List.isPrefixOf_iff_prefix, String.toList_append (s := key ++ "=")]
      exact List.prefix_append _ _
    have hset : lineValue key (key ++ "=" ++ value).toList = some (unquoted value.toList) := by
      rw [lineValue, if_pos hstart, toList_assignment, hdrop, List.drop_one, List.tail_cons,
        strip_eq_self hvalue]
    rw [if_pos rfl, List.filterMap_cons_some hset]
    rfl
  · have hstart : (key ++ "=").toList.isPrefixOf (assigned ++ "=" ++ value).toList = false := by
      rw [Bool.eq_false_iff]
      intro hprefix
      -- both keys are what is in front of the first sign
      obtain ⟨rest, hrest⟩ := List.isPrefixOf_iff_prefix.mp hprefix
      have hkey : (key ++ "=").toList ++ rest = key.toList ++ '=' :: rest := by
        rw [String.toList_append, List.append_assoc]
        rfl
      rw [hkey, toList_assignment] at hrest
      have hfront := (takeWhile_key h rest).1
      rw [hrest, htake] at hfront
      exact heq (String.toList_inj.mp hfront.symm)
    have hset : lineValue key (assigned ++ "=" ++ value).toList = none := by
      rw [lineValue, hstart]
      rfl
    rw [if_neg heq, List.filterMap_cons_none hset]
    rfl

/-! ## Lines of bytes -/

/-- A line of bytes: what it says and how it ends. -/
structure IsLine (body ending : List UInt8) : Prop where
  body : ∀ b ∈ body, ¬ IsReturnByte b
  ending : ending = [] ∨ ending = [0x0a] ∨ ending = [0x0d] ∨ ending = [0x0d, 0x0a]

theorem IsLine.returns {body ending : List UInt8} (h : IsLine body ending) :
    ∀ b ∈ ending, IsReturnByte b := by
  intro b hb
  rcases h.ending with rfl | rfl | rfl | rfl
  · cases hb
  · exact .inl (List.mem_singleton.mp hb)
  · exact .inr (List.mem_singleton.mp hb)
  · rcases List.mem_cons.mp hb with rfl | hb
    · exact .inr rfl
    · exact .inl (List.mem_singleton.mp hb)

theorem IsLine.ends {body ending : List UInt8} (h : IsLine body ending) (hne : ending ≠ []) :
    Ends (body ++ ending) := by
  rcases h.ending with rfl | rfl | rfl | rfl
  · exact absurd rfl hne
  · exact ⟨0x0a, by simp, .inl rfl⟩
  · exact ⟨0x0d, by simp, .inr rfl⟩
  · exact ⟨0x0a, by simp, .inl rfl⟩

/-- Each line but the last has an ending, and no line is empty. -/
theorem linesOfBytesFrom_spec (content : List UInt8) (line : List UInt8)
    (hline : ∀ b ∈ line, ¬ IsReturnByte b) :
    (∀ l ∈ linesOfBytesFrom line content, ∃ body ending, l = body ++ ending ∧ IsLine body ending) ∧
      ∀ l ∈ (linesOfBytesFrom line content).dropLast, Ends l := by
  have hrev : ∀ line : List UInt8, (∀ b ∈ line, ¬ IsReturnByte b) →
      ∀ b ∈ line.reverse, ¬ IsReturnByte b :=
    fun line h b hb => h b (List.mem_reverse.mp hb)
  have hdrop : ∀ (first : List UInt8) (rest : List (List UInt8)), Ends first →
      (∀ l ∈ rest.dropLast, Ends l) → ∀ l ∈ (first :: rest).dropLast, Ends l := by
    intro first rest hfirst hrest l hl
    cases rest with
    | nil => cases hl
    | cons second rest =>
        rcases List.mem_cons.mp hl with rfl | hl
        · exact hfirst
        · exact hrest l hl
  have hnil : ∀ b ∈ ([] : List UInt8), ¬ IsReturnByte b := fun b hb => absurd hb List.not_mem_nil
  induction line, content using linesOfBytesFrom.induct with
  | case1 line hempty =>
      rw [linesOfBytesFrom, if_pos hempty]
      exact ⟨fun l hl => absurd hl List.not_mem_nil, fun l hl => absurd hl List.not_mem_nil⟩
  | case2 line hempty =>
      rw [linesOfBytesFrom, if_neg hempty]
      refine ⟨fun l hl => ?_, fun l hl => absurd hl List.not_mem_nil⟩
      rw [List.mem_singleton.mp hl]
      exact ⟨line.reverse, [], (List.append_nil _).symm, hrev line hline, .inl rfl⟩
  | case3 line b =>
      rw [linesOfBytesFrom]
      refine ⟨fun l hl => ?_, fun l hl => absurd hl List.not_mem_nil⟩
      rw [List.mem_singleton.mp hl, List.reverse_cons]
      by_cases hb : IsReturnByte b
      · refine ⟨line.reverse, [b], rfl, hrev line hline, ?_⟩
        rcases hb with rfl | rfl
        · exact .inr (.inl rfl)
        · exact .inr (.inr (.inl rfl))
      · refine ⟨line.reverse ++ [b], [], (List.append_nil _).symm, ?_, .inl rfl⟩
        intro d hd
        rcases List.mem_append.mp hd with hd | hd
        · exact hrev line hline d hd
        · rw [List.mem_singleton.mp hd]
          exact hb
  | case4 line b b' rest hboth ih =>
      obtain ⟨rfl, rfl⟩ := hboth
      obtain ⟨hall, hends⟩ := ih hnil
      have hfirst : IsLine line.reverse [0x0d, 0x0a] := ⟨hrev line hline, .inr (.inr (.inr rfl))⟩
      rw [linesOfBytesFrom, if_pos ⟨rfl, rfl⟩, List.reverse_cons, List.reverse_cons,
        List.append_assoc]
      refine ⟨fun l hl => ?_, hdrop _ _ (hfirst.ends (List.cons_ne_nil _ _)) hends⟩
      rcases List.mem_cons.mp hl with rfl | hl
      · exact ⟨_, _, rfl, hfirst⟩
      · exact hall l hl
  | case5 line b b' rest hboth hend ih =>
      obtain ⟨hall, hends⟩ := ih hnil
      have hfirst : IsLine line.reverse [b] := by
        refine ⟨hrev line hline, ?_⟩
        rcases hend with rfl | rfl
        · exact .inr (.inl rfl)
        · exact .inr (.inr (.inl rfl))
      rw [linesOfBytesFrom, if_neg hboth, if_pos hend, List.reverse_cons]
      refine ⟨fun l hl => ?_, hdrop _ _ (hfirst.ends (List.cons_ne_nil _ _)) hends⟩
      rcases List.mem_cons.mp hl with rfl | hl
      · exact ⟨_, _, rfl, hfirst⟩
      · exact hall l hl
  | case6 line b b' rest hboth hend ih =>
      rw [linesOfBytesFrom, if_neg hboth, if_neg hend]
      apply ih
      intro d hd
      rcases List.mem_cons.mp hd with rfl | hd
      · exact hend
      · exact hline d hd

/-- **The lines of bytes of a file are lines, and each but the last has an ending.** -/
theorem linesOfBytes_spec (content : List UInt8) :
    (∀ l ∈ linesOfBytes content, ∃ body ending, l = body ++ ending ∧ IsLine body ending) ∧
      ∀ l ∈ (linesOfBytes content).dropLast, Ends l :=
  linesOfBytesFrom_spec content [] fun _ hb => absurd hb List.not_mem_nil

end Waveform.Deploy
