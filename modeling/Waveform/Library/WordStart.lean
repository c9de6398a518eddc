import Mathlib.Data.List.Basic

/-!
# Tokens at word starts

A search for tokens in a text that counts a match only where no word goes on: at the start of the
text, or behind something that is not part of a word.

- `found_iff`: **what the search finds**.
- `found_append`: a separator cuts the search in two.
- `found_of_foreign`: a token with a letter that the text does not have is not found.
-/

set_option autoImplicit false

namespace WordStart

variable {α : Type} [DecidableEq α]

/-- What stands before each match of a token. -/
def matchesBefore (token : List α) (before : Option α) : List α → List (Option α)
  | [] => []
  | c :: rest =>
      if token.isPrefixOf (c :: rest) then before :: matchesBefore token (some c) rest
      else matchesBefore token (some c) rest

/-- No word goes on. -/
def isStart (word : α → Bool) (before : Option α) : Bool := !before.any word

/-- One of the tokens stands at a word start. -/
def found (word : α → Bool) (tokens : List (List α)) (text : List α) : Bool :=
  tokens.any fun token => (matchesBefore token none text).any (isStart word)

/-- A token at a word start of a text. -/
def Occurs (word : α → Bool) (token text : List α) : Prop :=
  ∃ front back, text = front ++ (token ++ back) ∧ isStart word front.getLast? = true

variable {word : α → Bool} {tokens : List (List α)} {token text front back : List α} {separator : α}

theorem mem_matchesBefore_iff {before after : Option α} (hne : token ≠ []) :
    after ∈ matchesBefore token before text ↔ ∃ front back, text = front ++ (token ++ back) ∧
      after = (front.getLast?.or before) := by
  induction text generalizing before with
  | nil =>
      constructor
      · intro h
        cases h
      · rintro ⟨front, back, htext, -⟩
        have hempty := (List.append_eq_nil_iff.mp htext.symm).2
        exact absurd (List.append_eq_nil_iff.mp hempty).1 hne
  | cons c rest ih =>
      have hrest : after ∈ matchesBefore token (some c) rest ↔ ∃ front back,
          c :: rest = c :: front ++ (token ++ back) ∧
          after = ((c :: front).getLast?.or before) := by
        rw [ih]
        constructor
        · rintro ⟨front, back, rfl, rfl⟩
          refine ⟨front, back, rfl, ?_⟩
          rw [List.getLast?_cons]
          cases front.getLast? <;> rfl
        · rintro ⟨front, back, htext, rfl⟩
          refine ⟨front, back, (List.cons.inj htext).2, ?_⟩
          rw [List.getLast?_cons]
          cases front.getLast? <;> rfl
      have hfirst : token.isPrefixOf (c :: rest) = true ↔ ∃ back, c :: rest = token ++ back := by
        rw [List.isPrefixOf_iff_prefix]
        constructor
        · rintro ⟨back, hback⟩
          exact ⟨back, hback.symm⟩
        · rintro ⟨back, hback⟩
          exact ⟨back, hback.symm⟩
      have hall : (∃ front back, c :: rest = front ++ (token ++ back) ∧
            after = (front.getLast?.or before)) ↔
          (token.isPrefixOf (c :: rest) = true ∧ after = before) ∨
            after ∈ matchesBefore token (some c) rest := by
        rw [hrest, hfirst]
        constructor
        · rintro ⟨front, back, htext, rfl⟩
          cases front with
          | nil => exact .inl ⟨⟨back, htext⟩, rfl⟩
          | cons d front =>
              obtain ⟨rfl, -⟩ := List.cons.inj htext
              exact .inr ⟨front, back, htext, rfl⟩
        · rintro (⟨⟨back, htext⟩, rfl⟩ | ⟨front, back, htext, rfl⟩)
          · exact ⟨[], back, htext, rfl⟩
          · exact ⟨c :: front, back, htext, rfl⟩
      rw [hall, matchesBefore]
      by_cases hmatch : token.isPrefixOf (c :: rest) = true
      · rw [if_pos hmatch, List.mem_cons]
        simp [hmatch]
      · rw [if_neg hmatch]
        simp [hmatch]

/-- **What the search finds**: a token at a word start. -/
theorem found_iff (hne : ∀ token ∈ tokens, token ≠ []) :
    found word tokens text = true ↔ ∃ token ∈ tokens, Occurs word token text := by
  unfold found
  rw [List.any_eq_true]
  constructor
  · rintro ⟨token, htoken, hmatch⟩
    obtain ⟨after, hafter, hstart⟩ := List.any_eq_true.mp hmatch
    obtain ⟨front, back, htext, rfl⟩ := (mem_matchesBefore_iff (hne token htoken)).mp hafter
    rw [Option.or_none] at hstart
    exact ⟨token, htoken, front, back, htext, hstart⟩
  · rintro ⟨token, htoken, front, back, htext, hstart⟩
    refine ⟨token, htoken, List.any_eq_true.mpr ⟨front.getLast?, ?_, hstart⟩⟩
    exact (mem_matchesBefore_iff (hne token htoken)).mpr ⟨front, back, htext, Option.or_none.symm⟩

/-- A token has no letter that the text does not have. -/
theorem found_of_foreign (hne : ∀ token ∈ tokens, token ≠ [])
    (h : ∀ token ∈ tokens, ∃ c ∈ token, c ∉ text) : found word tokens text = false := by
  rw [Bool.eq_false_iff]
  intro hfound
  obtain ⟨token, htoken, front, back, rfl, -⟩ := (found_iff hne).mp hfound
  obtain ⟨c, hc, hnot⟩ := h token htoken
  exact hnot (List.mem_append_right _ (List.mem_append_left _ hc))

/-- A token without the separator matches on one side of it. -/
theorem matchesBefore_append (hne : token ≠ []) (hseparator : separator ∉ token) (before : Option α)
    (front back : List α) : matchesBefore token before (front ++ separator :: back) =
      matchesBefore token before front ++ matchesBefore token (some separator) back := by
  have hnot : ∀ front, token.isPrefixOf (front ++ separator :: back) = token.isPrefixOf front := by
    intro front
    rw [Bool.eq_iff_iff, List.isPrefixOf_iff_prefix, List.isPrefixOf_iff_prefix]
    constructor
    · intro h
      rcases List.prefix_or_prefix_of_prefix h (List.prefix_append front _) with hfront |
        ⟨more, rfl⟩
      · exact hfront
      · cases more with
        | nil => exact ⟨[], by rw [List.append_nil, List.append_nil]⟩
        | cons c more =>
            have hmore := (List.prefix_append_right_inj front).mp h
            obtain ⟨rfl, -⟩ := List.cons_prefix_cons.mp hmore
            exact absurd (List.mem_append_right _ List.mem_cons_self) hseparator
    · exact fun h => h.trans (List.prefix_append front _)
  induction front generalizing before with
  | nil =>
      have hfirst : token.isPrefixOf (separator :: back) = false := by
        rw [← List.nil_append (separator :: back), hnot, Bool.eq_false_iff]
        exact fun h => hne (List.prefix_nil.mp (List.isPrefixOf_iff_prefix.mp h))
      rw [List.nil_append, matchesBefore, matchesBefore, hfirst]
      rfl
  | cons c front ih =>
      rw [List.cons_append, matchesBefore, matchesBefore, ← List.cons_append, hnot, ih]
      split <;> rfl

/-- What is not part of a word stands for the start. -/
theorem any_matchesBefore (hword : word separator = false) :
    (matchesBefore token (some separator) text).any (isStart word) =
      (matchesBefore token none text).any (isStart word) := by
  have hstart : isStart word (some separator) = isStart word none := by
    simp [isStart, hword]
  cases text with
  | nil => rfl
  | cons c rest =>
      rw [matchesBefore, matchesBefore]
      split
      · rw [List.any_cons, List.any_cons, hstart]
      · rfl

/-- **A separator cuts the search in two.** -/
theorem found_append (hne : ∀ token ∈ tokens, token ≠ []) (hword : word separator = false)
    (hseparator : ∀ token ∈ tokens, separator ∉ token) (front back : List α) :
    found word tokens (front ++ separator :: back) =
      (found word tokens front || found word tokens back) := by
  induction tokens with
  | nil => rfl
  | cons token tokens ih =>
      have hrest := ih (fun t ht => hne t (List.mem_cons_of_mem _ ht))
        fun t ht => hseparator t (List.mem_cons_of_mem _ ht)
      unfold found at hrest ⊢
      rw [List.any_cons, List.any_cons, List.any_cons, hrest,
        matchesBefore_append (hne token List.mem_cons_self) (hseparator token List.mem_cons_self),
        List.any_append, any_matchesBefore hword]
      ac_rfl

end WordStart
