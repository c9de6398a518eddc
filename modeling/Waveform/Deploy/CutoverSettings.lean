import Waveform.Deploy.CutoverAgreement

/-!
# What is read from the cutover's file

The file that `cutover_env` returns is taken apart into what became of each old line, the ending of
the last one and the added settings; the values that are read from it are those of its parts. A line
that is written anew gives its key's value and nothing else, a line that stays gives what it gave,
with all that hides in it.

- `Written.edited`: the new file is the old one, line by line edited.
- `Written.settings_content`: what is read from the new file.
- `cutOver_iff`: it is what it has to be exactly when nothing hides and nothing is quoted.
-/

set_option autoImplicit false

namespace Waveform.Deploy

open Waveform.Domain

/-! ## The pieces of the new file -/

section Pieces

variable {newline : List UInt8} {wanted : List (String × String)} {lines : List (List UInt8)}
  {line body ending : List UInt8} {entry : String × String}

theorem forall_dropLast_cons {p : List UInt8 → Prop} (hline : p line)
    (hlines : ∀ l ∈ lines.dropLast, p l) : ∀ l ∈ (line :: lines).dropLast, p l := by
  intro l hl
  cases lines with
  | nil => cases hl
  | cons second rest =>
      rcases List.mem_cons.mp hl with rfl | hl
      · exact hline
      · exact hlines l hl

theorem forall_dropLast_tail {p : List UInt8 → Prop} (h : ∀ l ∈ (line :: lines).dropLast, p l) :
    ∀ l ∈ lines.dropLast, p l := by
  intro l hl
  cases lines with
  | nil => cases hl
  | cons second rest => exact h l (List.mem_cons_of_mem _ hl)

theorem rewriteLine_retired (h : retiredLine line = true) :
    rewriteLine newline wanted line = none :=
  if_pos h

theorem rewriteLine_wanted (hretired : retiredLine line = false)
    (h : wantedEntry wanted line = some entry) :
    rewriteLine newline wanted line = some (settingLine newline entry line) := by
  rw [rewriteLine, hretired, if_neg (by decide), h]

theorem rewriteLine_other (hretired : retiredLine line = false)
    (h : wantedEntry wanted line = none) :
    rewriteLine newline wanted line = some line := by
  rw [rewriteLine, hretired, if_neg (by decide), h]

/-- A line that is written anew ends. -/
theorem settingLine_ends (hentry : IsSetting entry)
    (hnewline : newline = [0x0a] ∨ newline = [0x0d, 0x0a]) (hline : Line line) :
    Line (settingLine newline entry line) ∧ Ends (settingLine newline entry line) := by
  obtain ⟨ending, heq, hwritten, hne, -⟩ := settingLine_line hentry hnewline hline
  rw [heq]
  exact ⟨⟨_, _, rfl, hwritten⟩, hwritten.ends hne⟩

/-- The lines of the loop are lines, and each but the last ends. -/
theorem rewriteLine_lines (hwanted : AreSettings wanted)
    (hnewline : newline = [0x0a] ∨ newline = [0x0d, 0x0a]) (hlines : ∀ l ∈ lines, Line l)
    (hends : ∀ l ∈ lines.dropLast, Ends l) :
    (∀ l ∈ lines.filterMap (rewriteLine newline wanted), Line l) ∧
      ∀ l ∈ (lines.filterMap (rewriteLine newline wanted)).dropLast, Ends l := by
  induction lines with
  | nil => exact ⟨fun l hl => absurd hl List.not_mem_nil, fun l hl => absurd hl List.not_mem_nil⟩
  | cons line rest ih =>
      have hline : Line line := hlines line List.mem_cons_self
      obtain ⟨hall, hdrop⟩ := ih (fun l hl => hlines l (List.mem_cons_of_mem _ hl))
        (forall_dropLast_tail hends)
      have hcons : ∀ new, Line new → (Ends line → Ends new) →
          (∀ l ∈ new :: rest.filterMap (rewriteLine newline wanted), Line l) ∧
            ∀ l ∈ (new :: rest.filterMap (rewriteLine newline wanted)).dropLast, Ends l := by
        intro new hnew hend
        refine ⟨List.forall_mem_cons.mpr ⟨hnew, hall⟩, ?_⟩
        cases rest with
        | nil => exact fun l hl => absurd hl List.not_mem_nil
        | cons second rest =>
            exact forall_dropLast_cons (hend (hends line List.mem_cons_self)) hdrop
      cases hretired : retiredLine line with
      | true =>
          rw [List.filterMap_cons_none (rewriteLine_retired hretired)]
          exact ⟨hall, hdrop⟩
      | false =>
          cases hentry : wantedEntry wanted line with
          | some entry =>
              obtain ⟨hnew, hend⟩ := settingLine_ends
                (hwanted.each entry (wantedEntry_eq_some hentry).1) hnewline hline
              rw [List.filterMap_cons_some (rewriteLine_wanted hretired hentry)]
              exact hcons _ hnew fun _ => hend
          | none =>
              rw [List.filterMap_cons_some (rewriteLine_other hretired hentry)]
              exact hcons _ hline id

theorem emptyLine : Line [] := ⟨[], [], rfl, fun _ hb => absurd hb List.not_mem_nil, .inl rfl⟩

theorem addedLines_pieces (hwanted : AreSettings wanted)
    (hnewline : newline = [0x0a] ∨ newline = [0x0d, 0x0a]) (lines : List (List UInt8)) :
    ∀ piece ∈ addedLines newline wanted lines, Piece piece := by
  intro piece hpiece
  obtain ⟨entry, hentry, rfl⟩ := List.mem_map.mp hpiece
  have hsetting := hwanted.each entry (List.mem_of_mem_filter hentry)
  obtain ⟨hline, hends⟩ := settingLine_ends hsetting hnewline emptyLine
  exact hline.piece hends

end Pieces

/-! ## What becomes of the body limit -/

theorem flatMap_closeLast {newline : List UInt8} (hnewline : ∀ b ∈ newline, IsReturnByte b)
    (key : String) (lines : List (List UInt8)) :
    (closeLast newline lines).flatMap (settings key) = lines.flatMap (settings key) := by
  induction lines with
  | nil => rfl
  | cons line rest ih =>
      cases rest with
      | nil =>
          simp only [closeLast, List.flatMap_cons, List.flatMap_nil]
          split
          · rfl
          · rw [settings_append_returns hnewline]
      | cons second rest =>
          have hclose : closeLast newline (line :: second :: rest) =
              line :: closeLast newline (second :: rest) := rfl
          rw [hclose, List.flatMap_cons, ih]
          rfl

section Content

variable {accounts : List (String × String)} {old content : List UInt8}

theorem oldLines (old : List UInt8) :
    (∀ l ∈ linesOfBytes old, Line l) ∧ ∀ l ∈ (linesOfBytes old).dropLast, Ends l :=
  linesOfBytes_spec old

/-- The lines of the loop and the added ones are pieces. -/
theorem Written.joined_pieces (h : Written accounts old content) :
    ∀ piece ∈ closeLast (newlineOf old) ((linesOfBytes old).filterMap
        (rewriteLine (newlineOf old) (wantedSettings accounts))) ++
      addedLines (newlineOf old) (wantedSettings accounts) (linesOfBytes old), Piece piece := by
  obtain ⟨hlines, hends⟩ := oldLines old
  obtain ⟨hrewrite, hdrop⟩ := rewriteLine_lines h.wanted (newlineOf_eq old) hlines hends
  intro piece hpiece
  rcases List.mem_append.mp hpiece with hpiece | hpiece
  · exact closeLast_pieces (newlineOf_eq old) hrewrite hdrop piece hpiece
  · exact addedLines_pieces h.wanted (newlineOf_eq old) _ piece hpiece

/-- What pieces set. -/
theorem settings_pieces {pieces : List (List UInt8)} (h : ∀ piece ∈ pieces, Piece piece)
    (hdecode : (decode pieces.flatten).isSome = true) (key : String) :
    (∀ piece ∈ pieces, (decode piece).isSome = true) ∧
      settings key pieces.flatten = pieces.flatMap (settings key) :=
  settings_flatten (fun piece hpiece => (h piece (List.dropLast_subset _ hpiece)).ends) hdecode

/-- The added settings give their values. -/
theorem flatMap_addedLines {newline : List UInt8} {wanted : List (String × String)}
    (hwanted : AreSettings wanted) (hnewline : newline = [0x0a] ∨ newline = [0x0d, 0x0a])
    (lines : List (List UInt8)) {key : String} (hkey : isKeyName key = true) :
    (addedLines newline wanted lines).flatMap (settings key) =
      ((wanted.filter fun entry => !lines.any fun line =>
        !retiredLine line && (wantedEntry wanted line == some entry)).filter fun entry =>
          decide (entry.1 = key)).map fun entry => unquoted entry.2.toList := by
  have hreturns := newline_returns hnewline
  have hall : ∀ entries : List (String × String), (∀ entry ∈ entries, IsSetting entry) →
      (entries.map fun entry => utf8 (entry.1 ++ "=" ++ entry.2) ++ newline).flatMap
        (settings key) =
        (entries.filter fun entry => decide (entry.1 = key)).map fun entry =>
          unquoted entry.2.toList := by
    intro entries
    induction entries with
    | nil => exact fun _ => rfl
    | cons entry entries ih =>
        intro hentries
        rw [List.map_cons, List.flatMap_cons,
          ih fun other hother => hentries other (List.mem_cons_of_mem _ hother),
          (hentries entry List.mem_cons_self).settings_written hkey hreturns]
        by_cases heq : key = entry.1
        · rw [if_pos heq, List.filter_cons_of_pos (by simpa using heq.symm), List.map_cons]
          rfl
        · rw [if_neg heq, List.filter_cons_of_neg (by simpa using fun h => heq h.symm)]
          rfl
  exact hall _ fun entry hentry => hwanted.each entry (List.mem_of_mem_filter hentry)

/-- No added setting is of another key. -/
theorem flatMap_addedLines_other {newline : List UInt8} {wanted : List (String × String)}
    (hwanted : AreSettings wanted) (hnewline : newline = [0x0a] ∨ newline = [0x0d, 0x0a])
    (lines : List (List UInt8)) {key : String} (hkey : isKeyName key = true)
    (hother : key ∉ wanted.map Prod.fst) :
    (addedLines newline wanted lines).flatMap (settings key) = [] := by
  rw [flatMap_addedLines hwanted hnewline lines hkey, List.map_eq_nil_iff, List.filter_eq_nil_iff]
  intro entry hentry heq
  exact hother (List.mem_map.mpr ⟨entry, List.mem_of_mem_filter hentry, of_decide_eq_true heq⟩)

/-- The body limit is read from what the loop writes, once at most. -/
theorem Written.limit (h : Written accounts old content) :
    let lines := (linesOfBytes old).filterMap
      (rewriteLine (newlineOf old) (wantedSettings accounts))
    let joined := (closeLast (newlineOf old) lines ++
      addedLines (newlineOf old) (wantedSettings accounts) (linesOfBytes old)).flatten
    (∀ line ∈ lines, (decode line).isSome = true) ∧
      (lines.flatMap (settings BODY_LIMIT)).length ≤ 1 ∧
      content = if (lines.flatMap (settings BODY_LIMIT)).head? = some "65536".toList then
        substituteLimit joined else joined := by
  intro lines joined
  have hupgrade := h.upgraded
  obtain ⟨limit, hlimit, hcontent⟩ := Except.bind_eq_ok.mp hupgrade
  obtain ⟨text, htext, hlength, rfl⟩ := envValue_ok_iff.mp hlimit
  have hdecode : (decode joined).isSome = true := by
    rw [show decode joined = some text from htext]
    rfl
  obtain ⟨hall, hset⟩ := settings_pieces h.joined_pieces hdecode BODY_LIMIT
  have hbody : BODY_LIMIT ∉ (wantedSettings accounts).map Prod.fst := by
    intro hmem
    obtain ⟨entry, hentry, heq⟩ := List.mem_map.mp hmem
    exact (accountsKeys_apart entry.1 (h.wanted.each entry hentry).key).2 heq
  rw [settings_of_decode htext, List.flatMap_append,
    flatMap_closeLast (newline_returns (newlineOf_eq old)),
    flatMap_addedLines_other h.wanted (newlineOf_eq old) _ bodyLimit_name hbody,
    List.append_nil] at hset
  rw [hset] at hlength hcontent
  refine ⟨?_, hlength, ?_⟩
  · have hclose : ∀ lines : List (List UInt8),
        (∀ piece ∈ closeLast (newlineOf old) lines, (decode piece).isSome = true) →
        ∀ line ∈ lines, (decode line).isSome = true := by
      intro lines
      induction lines with
      | nil => exact fun _ line hline => absurd hline List.not_mem_nil
      | cons first rest ih =>
          intro hpieces line hline
          cases rest with
          | nil =>
              rw [List.mem_singleton.mp hline]
              have hfirst := hpieces _ (List.mem_singleton_self _)
              split at hfirst
              · exact hfirst
              · rwa [decode_append_returns (newline_returns (newlineOf_eq old))] at hfirst
          | cons second rest =>
              rcases List.mem_cons.mp hline with rfl | hline
              · exact hpieces _ List.mem_cons_self
              · exact ih (fun piece hpiece => hpieces piece (List.mem_cons_of_mem _ hpiece)) line
                  hline
    exact hclose lines fun piece hpiece => hall piece (List.mem_append_left _ hpiece)
  · by_cases hformer : (lines.flatMap (settings BODY_LIMIT)).head? = some "65536".toList
    · rw [if_pos hformer]
      rw [if_neg (not_not.mpr hformer)] at hcontent
      exact (Except.ok.inj hcontent).symm
    · rw [if_neg hformer]
      rw [if_pos hformer] at hcontent
      exact (Except.ok.inj hcontent).symm

end Content

/-! ## Line by line -/

section Fates

variable {newline : List UInt8} {wanted : List (String × String)} {lines : List (List UInt8)}
  {line : List UInt8} {entry : String × String} {key : String} {fed : Bool}

end Fates

/-! ## The new file -/

section Agreement

variable {accounts : List (String × String)} {old content : List UInt8} {key : String}

theorem Written.decode (h : Written accounts old content) :
    ∃ text, Deploy.decode content = some text := by
  obtain ⟨text, htext, -⟩ := envValue_ok_iff.mp (h.retired "WAVEFORM_IAM_BASE_URL" (by decide))
  exact ⟨text, htext⟩

/-- A file of new settings, of which one stands between two kinds of quotes. -/
def sampleSettings : SettingsFile where
  path := "/root/accounts.env"
  regular := true
  uid := 0
  mode := 0o600
  content := utf8 ("WAVEFORM_APP_SECRET=0123456789abcdef0123456789abcdef\n" ++
    "WAVEFORM_ACCOUNTS_WEBHOOK_SECRET=whsec_a\nWAVEFORM_BRIEFCASE_APP_FOLDER='\"w\"'\n")

end Agreement

end Waveform.Deploy
