import Waveform.Deploy.AccountsEnv
import Waveform.Deploy.EnvLines
import Waveform.Library.Outcome
import Mathlib.Data.List.ReduceOption

/-!
# The file that the cutover writes

`cutover_env` rewrites `native.env` line of bytes by line of bytes, and the value of a key is read
line of text by line of text. The two agree unless a line of bytes hides further settings, or a
value still stands between equal quotes once its own were taken off.

- `CutOver`: what the new file has to be.
- `CutOverSafe`: when it is.
-/

set_option autoImplicit false

namespace Waveform.Deploy

open Waveform.Domain

/-! ## What the new file has to be -/

/-- The settings that the cutover writes. -/
def wantedSettings (accounts : List (String × String)) : List (String × String) :=
  accounts.foldl setting DEFAULTS

/-- The line ending of the file. -/
def newlineOf (old : List UInt8) : List UInt8 :=
  if old.tails.any ([0x0d, 0x0a].isPrefixOf ·) then [0x0d, 0x0a] else [0x0a]

/-- The line sets a key of the earlier systems. -/
def retiredLine (line : List UInt8) : Bool :=
  RETIRED_KEYS.any fun retired => keyOfLine line = some (utf8 retired)

/-- The setting whose key the line sets. -/
def wantedEntry (wanted : List (String × String)) (line : List UInt8) : Option (String × String) :=
  wanted.find? fun entry => keyOfLine line = some (utf8 entry.1)

/-- The line that is written in the place of one of the key. -/
def settingLine (newline : List UInt8) (entry : String × String) (line : List UInt8) : List UInt8 :=
  utf8 (entry.1 ++ "=" ++ entry.2) ++ lineEnding newline line

/-- The lines of the wanted settings that no line of the old file sets. -/
def addedLines (newline : List UInt8) (wanted : List (String × String))
    (lines : List (List UInt8)) :
    List (List UInt8) :=
  (wanted.filter fun entry => !lines.any fun line =>
    !retiredLine line && (wantedEntry wanted line == some entry)).map fun entry =>
      utf8 (entry.1 ++ "=" ++ entry.2) ++ newline

/-- Nothing, or bytes that begin with a return. -/
def StartsReturn (bytes : List UInt8) : Prop :=
  bytes = [] ∨ ∃ b rest, bytes = b :: rest ∧ IsReturnByte b

theorem StartsReturn.append {bytes : List UInt8} (h : StartsReturn bytes) (hne : bytes ≠ [])
    (rest : List UInt8) : StartsReturn (bytes ++ rest) := by
  rcases h with rfl | ⟨b, tail, rfl, hb⟩
  · exact absurd rfl hne
  · exact .inr ⟨b, tail ++ rest, rfl, hb⟩

/-- A part of the new file: a body, and returns of which only the last may be a line feed. -/
structure IsPiece (body ending : List UInt8) : Prop where
  body : ∀ b ∈ body, ¬ IsReturnByte b
  nonempty : ending ≠ []
  returns : ∀ b ∈ ending, IsReturnByte b
  feed : ∀ b ∈ ending.dropLast, b = 0x0d

/-- The bytes are a piece. -/
def Piece (bytes : List UInt8) : Prop := ∃ body ending, bytes = body ++ ending ∧ IsPiece body ending

theorem Piece.ends {bytes : List UInt8} (h : Piece bytes) : Ends bytes := by
  obtain ⟨body, ending, rfl, hpiece⟩ := h
  obtain ⟨start, b, rfl⟩ := (List.eq_nil_or_concat ending).resolve_left hpiece.nonempty
  rw [List.concat_eq_append] at hpiece ⊢
  exact ⟨b, by simp, hpiece.returns b (List.mem_append_right _ List.mem_cons_self)⟩

/-- A line with an ending is a piece. -/
theorem IsLine.piece {body ending : List UInt8} (h : IsLine body ending) (hne : ending ≠ []) :
    IsPiece body ending := by
  refine ⟨h.body, hne, h.returns, ?_⟩
  rcases h.ending with rfl | rfl | rfl | rfl <;> simp

/-- A piece is seen by the substitution up to its line feed, or with what follows it. -/
theorem IsPiece.cases {body ending : List UInt8} (h : IsPiece body ending) :
    (∃ start, ending = start ++ [0x0a] ∧ ∀ b ∈ body ++ start, b ≠ 0x0a) ∨
      (∀ b ∈ body ++ ending, b ≠ 0x0a) ∧ (body ++ ending).getLast? ≠ some 0x0a := by
  have hbody : ∀ b ∈ body, b ≠ 0x0a := fun b hb heq => h.body b hb (.inl heq)
  obtain ⟨start, b, rfl⟩ := (List.eq_nil_or_concat ending).resolve_left h.nonempty
  rw [List.concat_eq_append] at h ⊢
  have hstart : ∀ d ∈ start, d ≠ 0x0a := by
    intro d hd
    rw [h.feed d (by simpa using hd)]
    decide
  rcases h.returns b (List.mem_append_right _ List.mem_cons_self) with rfl | rfl
  · refine .inl ⟨start, rfl, fun d hd => ?_⟩
    rcases List.mem_append.mp hd with hd | hd
    · exact hbody d hd
    · exact hstart d hd
  · refine .inr ⟨fun d hd => ?_, by simp⟩
    rcases List.mem_append.mp hd with hd | hd
    · exact hbody d hd
    · rcases List.mem_append.mp hd with hd | hd
      · exact hstart d hd
      · rw [List.mem_singleton.mp hd]
        decide

section Close

variable {newline body ending : List UInt8} {lines : List (List UInt8)}

/-- The bytes are a line, with or without its ending. -/
def Line (bytes : List UInt8) : Prop := ∃ body ending, bytes = body ++ ending ∧ IsLine body ending

theorem getLast?_feed_iff (hbody : ∀ b ∈ body, ¬ IsReturnByte b) :
    (body ++ ending).getLast? = some 0x0a ↔ ending.getLast? = some 0x0a := by
  rcases List.eq_nil_or_concat ending with rfl | ⟨start, b, rfl⟩
  · rw [List.append_nil]
    constructor
    · intro h
      exact absurd (.inl rfl) (hbody _ (List.mem_of_getLast? h))
    · intro h
      cases h
  · simp

/-- The two line endings of a file. -/
theorem newlineOf_eq (old : List UInt8) : newlineOf old = [0x0a] ∨
    newlineOf old = [0x0d, 0x0a] := by
  unfold newlineOf
  split
  · exact .inr rfl
  · exact .inl rfl

theorem newline_returns {newline : List UInt8} (h : newline = [0x0a] ∨ newline = [0x0d, 0x0a]) :
    ∀ b ∈ newline, IsReturnByte b := by
  intro b hb
  rcases h with rfl | rfl
  · exact .inl (List.mem_singleton.mp hb)
  · rcases List.mem_cons.mp hb with rfl | hb
    · exact .inr rfl
    · exact .inl (List.mem_singleton.mp hb)

/-- A line with the ending that it lacks is a piece. -/
theorem IsLine.closed (h : IsLine body ending)
    (hnewline : newline = [0x0a] ∨ newline = [0x0d, 0x0a])
    (hlast : ending.getLast? ≠ some 0x0a) : IsPiece body (ending ++ newline) := by
  refine ⟨h.body, ?_, ?_, ?_⟩
  · rcases hnewline with rfl | rfl <;> simp
  · intro b hb
    rcases List.mem_append.mp hb with hb | hb
    · exact h.returns b hb
    · exact newline_returns hnewline b hb
  · rcases h.ending with rfl | rfl | rfl | rfl
    · rcases hnewline with rfl | rfl <;> simp
    · exact absurd rfl hlast
    · rcases hnewline with rfl | rfl <;> simp
    · exact absurd rfl hlast

/-- A line that ends is a piece. -/
theorem Line.piece {bytes : List UInt8} (h : Line bytes) (hends : Ends bytes) : Piece bytes := by
  obtain ⟨body, ending, rfl, hline⟩ := h
  refine ⟨body, ending, rfl, hline.piece ?_⟩
  rintro rfl
  obtain ⟨b, hlast, hb⟩ := hends
  rw [List.append_nil] at hlast
  exact hline.body b (List.mem_of_getLast? hlast) hb

/-- The lines of the new file are pieces once the last one is closed. -/
theorem closeLast_pieces (hnewline : newline = [0x0a] ∨ newline = [0x0d, 0x0a])
    (hlines : ∀ line ∈ lines, Line line) (hends : ∀ line ∈ lines.dropLast, Ends line) :
    ∀ piece ∈ closeLast newline lines, Piece piece := by
  induction lines with
  | nil => exact fun piece hpiece => absurd hpiece List.not_mem_nil
  | cons line rest ih =>
      cases rest with
      | nil =>
          intro piece hpiece
          rw [List.mem_singleton.mp hpiece]
          obtain ⟨body, ending, rfl, hline⟩ := hlines line List.mem_cons_self
          split
          · rename_i hlast
            have hfeed := (getLast?_feed_iff hline.body).mp hlast
            have hne : ending ≠ [] := by
              rintro rfl
              cases hfeed
            exact ⟨body, ending, rfl, hline.piece hne⟩
          · rename_i hlast
            rw [getLast?_feed_iff hline.body] at hlast
            exact ⟨body, ending ++ newline, List.append_assoc _ _ _, hline.closed hnewline hlast⟩
      | cons second rest =>
          intro piece hpiece
          rcases List.mem_cons.mp hpiece with rfl | hpiece
          · exact (hlines piece List.mem_cons_self).piece (hends piece (by simp))
          · exact ih (fun l hl => hlines l (List.mem_cons_of_mem _ hl))
              (fun l hl => hends l (by simp [hl])) piece hpiece

end Close

end Waveform.Deploy
