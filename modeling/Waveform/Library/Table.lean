import Mathlib.Data.List.Nodup

/-!
# Tables with unique columns

A table is a list of rows. A column is a function of the row, and a unique column is one that no two
rows agree in: a primary key is one, and a table may have several. Every statement is by the value
of a column, so that it concerns one row at most where the column is unique.

- `lookup`: the row with a value in a column; `lookup_eq_some_iff` where the column is unique.
- `insert`, `delete`, `update`: the statements. `lookup_insert`, `lookup_delete` and `lookup_update`
  say what is found afterwards by the same column, `mem_delete`, `mem_update` what rows there are.
- `Unique.insert`, `Unique.delete`, `Unique.update`: they keep a column unique; an update that gives
  one row a new value keeps it when no other row has that value (`Unique.update_to`).
-/

set_option autoImplicit false

namespace Table

universe u v w

variable {Row : Type u} {Key : Type v} {Other : Type w}

/-- No two rows agree in the column. -/
def Unique (column : Row → Key) (rows : List Row) : Prop := (rows.map column).Nodup

/-- A value of a unique column names a row. -/
theorem Unique.eq_of_mem {column : Row → Key} {rows : List Row} (hunique : Unique column rows)
    {row row' : Row}
    (h : row ∈ rows) (h' : row' ∈ rows) (hsame : column row = column row') : row = row' :=
  List.inj_on_of_nodup_map hunique h h' hsame

variable [DecidableEq Key]

instance (column : Row → Key) (rows : List Row) : Decidable (Unique column rows) :=
  inferInstanceAs (Decidable (rows.map column).Nodup)

/-! ## Statements -/

/-- The first row with a value in a column. -/
def lookup (column : Row → Key) (key : Key) (rows : List Row) : Option Row :=
  rows.find? fun row => decide (column row = key)

/-- A new row. -/
def insert (row : Row) (rows : List Row) : List Row := row :: rows

/-- The rows without that value. -/
def delete (column : Row → Key) (key : Key) (rows : List Row) : List Row :=
  rows.filter fun row => decide (column row ≠ key)

/-- The rows, changed where they have that value. -/
def update (column : Row → Key) (key : Key) (change : Row → Row) (rows : List Row) : List Row :=
  rows.map fun row => if column row = key then change row else row

/-! ## What is found -/

section Lookup

variable {column : Row → Key} {key key' : Key} {row : Row} {rows : List Row}

@[simp] theorem lookup_nil : lookup column key [] = none := rfl

theorem lookup_cons :
    lookup column key (row :: rows) = if column row = key then some row
      else lookup column key rows := by
  unfold lookup
  rw [List.find?_cons]
  by_cases h : column row = key
  · simp [h]
  · simp [h]

theorem column_of_lookup (h : lookup column key rows = some row) : column row = key :=
  of_decide_eq_true (@List.find?_some _ (fun row => decide (column row = key)) row rows h)

theorem mem_of_lookup (h : lookup column key rows = some row) : row ∈ rows :=
  List.mem_of_find?_eq_some h

theorem lookup_eq_none_iff : lookup column key rows = none ↔ ∀ row ∈ rows, column row ≠ key := by
  unfold lookup
  rw [List.find?_eq_none]
  constructor
  · intro h row hrow hkey
    exact h row hrow (decide_eq_true hkey)
  · intro h row hrow hkey
    exact h row hrow (of_decide_eq_true hkey)

theorem exists_lookup_of_mem (h : row ∈ rows) :
    ∃ found, lookup column (column row) rows = some found := by
  cases hfound : lookup column (column row) rows with
  | some found => exact ⟨found, rfl⟩
  | none => exact absurd rfl (lookup_eq_none_iff.mp hfound row h)

theorem lookup_eq_some_iff (hunique : Unique column rows) :
    lookup column key rows = some row ↔ row ∈ rows ∧ column row = key := by
  constructor
  · intro h
    exact ⟨mem_of_lookup h, column_of_lookup h⟩
  · rintro ⟨hmem, rfl⟩
    have hexists : ∃ found, lookup column (column row) rows = some found :=
      exists_lookup_of_mem hmem
    obtain ⟨found, hfound⟩ := hexists
    rw [hfound, hunique.eq_of_mem (mem_of_lookup hfound) hmem (column_of_lookup hfound)]

theorem lookup_insert :
    lookup column key (insert row rows) = if column row = key then some row
      else lookup column key rows :=
  lookup_cons

theorem lookup_delete :
    lookup column key' (delete column key rows) = if key' = key then none
      else lookup column key' rows := by
  induction rows with
  | nil => simp [delete]
  | cons row rows ih =>
      unfold delete at ih ⊢
      by_cases hrow : column row = key
      · rw [List.filter_cons_of_neg (by simpa using hrow), ih, lookup_cons]
        split
        · rfl
        · next hne => rw [if_neg fun h => hne (h.symm.trans hrow)]
      · rw [List.filter_cons_of_pos (by simpa using hrow), lookup_cons, lookup_cons, ih]
        by_cases hfound : column row = key'
        · rw [if_pos hfound, if_pos hfound, if_neg fun h => hrow (hfound.trans h)]
        · rw [if_neg hfound, if_neg hfound]

/-- An update that leaves the column it goes by. -/
theorem lookup_update (change : Row → Row) (hkeeps : ∀ row, column (change row) = column row) :
    lookup column key' (update column key change rows) =
      if key' = key then (lookup column key' rows).map change else lookup column key' rows := by
  induction rows with
  | nil => simp [update]
  | cons row rows ih =>
      unfold update at ih ⊢
      rw [List.map_cons, lookup_cons, lookup_cons, ih]
      by_cases hrow : column row = key
      · rw [if_pos hrow, hkeeps]
        by_cases hfound : column row = key'
        · rw [if_pos hfound, if_pos (hfound.symm.trans hrow), if_pos hfound, Option.map_some]
        · rw [if_neg hfound, if_neg hfound]
      · rw [if_neg hrow]
        by_cases hfound : column row = key'
        · rw [if_pos hfound, if_neg fun h => hrow (hfound.trans h), if_pos hfound]
        · rw [if_neg hfound, if_neg hfound]

theorem mem_insert {row' : Row} : row' ∈ insert row rows ↔ row' = row ∨ row' ∈ rows := List.mem_cons

theorem mem_delete : row ∈ delete column key rows ↔ row ∈ rows ∧ column row ≠ key := by
  unfold delete
  rw [List.mem_filter, decide_eq_true_iff]

theorem mem_update {change : Row → Row} {row' : Row} :
    row' ∈ update column key change rows ↔
      ∃ row ∈ rows, (if column row = key then change row else row) = row' := List.mem_map

/-- An update by a unique column changes one row. -/
theorem mem_update_of_mem {change : Row → Row} {row' : Row} (hunique : Unique column rows)
    (hrow : row ∈ rows) :
    row' ∈ update column (column row) change rows ↔ row' = change row ∨ row' ∈ rows ∧
      row' ≠ row := by
  rw [mem_update]
  constructor
  · rintro ⟨other, hother, rfl⟩
    by_cases hsame : column other = column row
    · rw [if_pos hsame, hunique.eq_of_mem hother hrow hsame]
      exact .inl rfl
    · rw [if_neg hsame]
      exact .inr ⟨hother, fun heq => hsame (congrArg column heq)⟩
  · rintro (rfl | ⟨hmem, hne⟩)
    · exact ⟨row, hrow, if_pos rfl⟩
    · exact ⟨row', hmem, if_neg fun hsame => hne (hunique.eq_of_mem hmem hrow hsame)⟩

/-- An update of rows that a filter leaves out before and after. -/
theorem filter_update {change : Row → Row} {shown : Row → Bool}
    (hhidden : ∀ row ∈ rows, column row = key → shown row = false ∧ shown (change row) = false) :
    (update column key change rows).filter shown = rows.filter shown := by
  induction rows with
  | nil => rfl
  | cons row rows ih =>
      have htail := ih fun other hother => hhidden other (List.mem_cons_of_mem _ hother)
      unfold update at htail ⊢
      rw [List.map_cons]
      by_cases hrow : column row = key
      · obtain ⟨hbefore, hafter⟩ := hhidden row List.mem_cons_self hrow
        rw [if_pos hrow, List.filter_cons_of_neg (by simp [hafter]),
          List.filter_cons_of_neg (by simp [hbefore]), htail]
      · rw [if_neg hrow, List.filter_cons, List.filter_cons, htail]

/-- An update that changes no row. -/
theorem update_eq_self {change : Row → Row}
    (h : ∀ row ∈ rows, column row = key → change row = row) :
    update column key change rows = rows := by
  unfold update
  refine (List.map_congr_left fun row hrow => ?_).trans (List.map_id rows)
  split
  · next hkey => exact h row hrow hkey
  · rfl

/-- Rows whose values of the column are all renamed. -/
theorem lookup_rename {change : Row → Row} {rename : Key → Key}
    (hcolumn : ∀ row, column (change row) = rename (column row))
    (hapart : ∀ row ∈ rows, rename (column row) = rename key → column row = key) :
    lookup column (rename key) (rows.map change) = (lookup column key rows).map change := by
  induction rows with
  | nil => rfl
  | cons row rows ih =>
      have htail := ih fun other hother => hapart other (List.mem_cons_of_mem _ hother)
      rw [List.map_cons, lookup_cons, lookup_cons, hcolumn, htail]
      by_cases hrow : column row = key
      · rw [if_pos (congrArg rename hrow), if_pos hrow, Option.map_some]
      · rw [if_neg fun h => hrow (hapart row List.mem_cons_self h), if_neg hrow]

end Lookup

/-! ## Unique columns -/

section Unique

variable {column : Row → Key} {other : Row → Other} {key : Key} {row : Row} {rows : List Row}

theorem Unique.insert (hunique : Unique column rows)
    (hnew : lookup column (column row) rows = none) :
    Unique column (insert row rows) := by
  refine List.nodup_cons.mpr ⟨fun hmem => ?_, hunique⟩
  obtain ⟨row', hrow', hsame⟩ := List.mem_map.mp hmem
  exact lookup_eq_none_iff.mp hnew row' hrow' hsame

theorem Unique.delete (hunique : Unique other rows) : Unique other (delete column key rows) :=
  hunique.sublist (List.filter_sublist.map other)

/-- An update that leaves the unique column. -/
theorem Unique.update (hunique : Unique other rows) (change : Row → Row)
    (hkeeps : ∀ row, other (change row) = other row) :
    Unique other (update column key change rows) := by
  have hmap : (Table.update column key change rows).map other = rows.map other := by
    unfold Table.update
    rw [List.map_map]
    refine List.map_congr_left fun row _ => ?_
    change other (if column row = key then change row else row) = other row
    split
    · exact hkeeps row
    · rfl
  unfold Unique
  rw [hmap]
  exact hunique

/-- One row is given a value that no other row has. -/
theorem Unique.update_to (hunique : Unique other rows) (hone : Unique column rows)
    (change : Row → Row) {value : Other}
    (hvalue : ∀ row, other (change row) = value)
    (hfree : ∀ row ∈ rows, column row ≠ key → other row ≠ value) :
    Unique other (Table.update column key change rows) := by
  induction rows with
  | nil => exact List.nodup_nil
  | cons row rows ih =>
      obtain ⟨hnew, hrest⟩ := List.nodup_cons.mp hunique
      obtain ⟨hnew', hrest'⟩ := List.nodup_cons.mp hone
      have htail := ih hrest hrest' fun row' hrow' => hfree row' (List.mem_cons_of_mem _ hrow')
      refine List.nodup_cons.mpr ⟨fun hmem => ?_, htail⟩
      obtain ⟨updated, hupdated, hsame⟩ := List.mem_map.mp hmem
      obtain ⟨row', hrow', rfl⟩ := mem_update.mp hupdated
      dsimp only at hsame
      -- at most one of the two rows is the one that is changed
      by_cases hrow : column row = key
      · have hother : column row' ≠ key :=
          fun h => hnew' (List.mem_map.mpr ⟨row', hrow', h.trans hrow.symm⟩)
        rw [if_pos hrow, if_neg hother, hvalue] at hsame
        exact hfree row' (List.mem_cons_of_mem _ hrow') hother hsame
      · rw [if_neg hrow] at hsame
        by_cases hother : column row' = key
        · rw [if_pos hother, hvalue] at hsame
          exact hfree row List.mem_cons_self hrow hsame.symm
        · rw [if_neg hother] at hsame
          exact hnew (List.mem_map.mpr ⟨row', hrow', hsame⟩)

omit [DecidableEq Key] in
/-- A column whose values are renamed without a clash. -/
theorem Unique.rename (hunique : Unique column rows) (change : Row → Row)
    (hapart : ∀ row ∈ rows, ∀ row' ∈ rows, column (change row) = column (change row') →
      column row = column row') :
    Unique column (rows.map change) := by
  unfold Unique at hunique ⊢
  rw [List.map_map]
  refine List.Nodup.map_on (fun row hrow row' hrow' hsame => ?_) hunique.of_map
  exact List.inj_on_of_nodup_map hunique hrow hrow' (hapart row hrow row' hrow' hsame)

end Unique

end Table
