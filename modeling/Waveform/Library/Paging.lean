import Mathlib.Data.List.Perm.Subperm
import Mathlib.Order.Lattice

/-!
# Reading a growing table by position

A reader asks for the rows of a sorted table from a position on, one page at a time, and rows are
added between two reads. The rank of a row is how many rows have a smaller key: it is the row's
position, and it grows only.

- `mem_page_iff`: a row is on the page that its rank falls on.
- `rank_le_of_grows`: rows that are added leave no row behind the reader.
- `rank_of_not_mem_page`: a row that is not on a page is on a later one, and there is a later one.
-/

set_option autoImplicit false

namespace Paging

universe u v

variable {Row : Type u} {Key : Type v} [LinearOrder Key] (key : Row → Key)

/-- How many rows have a smaller key. -/
def rank (rows : List Row) (k : Key) : Nat := (rows.filter fun row => decide (key row < k)).length

/-- The rows from a position on, so many at most. -/
def page (start limit : Nat) (rows : List Row) : List Row := (rows.drop start).take limit

variable {key} {rows rows' : List Row} {row row' : Row} {k : Key} {start limit : Nat}

theorem rank_cons_of_lt (h : key row < k) : rank key (row :: rows) k = rank key rows k + 1 := by
  unfold rank
  rw [List.filter_cons, if_pos (decide_eq_true h), List.length_cons]

theorem rank_cons_of_not_lt (h : ¬ key row < k) : rank key (row :: rows) k = rank key rows k := by
  unfold rank
  rw [List.filter_cons, if_neg (by simpa using h)]

/-- The smallest key has rank zero. -/
theorem rank_eq_zero (h : ∀ row ∈ rows, ¬ key row < k) : rank key rows k = 0 := by
  unfold rank
  rw [List.filter_eq_nil_iff.mpr fun row hrow => by simpa using h row hrow]
  rfl

/-- A row has a position in the table. -/
theorem rank_lt_length (h : row ∈ rows) : rank key rows (key row) < rows.length := by
  induction rows with
  | nil => exact absurd h List.not_mem_nil
  | cons first rest ih =>
      rw [List.length_cons]
      by_cases hlt : key first < key row
      · have hrest : row ∈ rest := by
          rcases List.mem_cons.mp h with rfl | hrest
          · exact absurd hlt (lt_irrefl _)
          · exact hrest
        rw [rank_cons_of_lt hlt]
        exact Nat.succ_lt_succ (ih hrest)
      · rw [rank_cons_of_not_lt hlt]
        exact Nat.lt_succ_of_le (List.length_filter_le _ _)

/-- **A row is on the page that its rank falls on**, in a sorted table. -/
theorem mem_page_iff (hsorted : rows.Pairwise fun a b => key a < key b) (hrow : row ∈ rows) :
    row ∈ page start limit rows ↔ start ≤ rank key rows (key row) ∧
      rank key rows (key row) < start + limit := by
  unfold page
  induction rows generalizing start limit with
  | nil => exact absurd hrow List.not_mem_nil
  | cons first rest ih =>
      obtain ⟨hfirst, hrest⟩ := List.pairwise_cons.mp hsorted
      have hnotRest : ∀ {n m : Nat}, first ∉ (rest.drop n).take m := fun hmem =>
        lt_irrefl _ (hfirst first (List.mem_of_mem_drop (List.mem_of_mem_take hmem)))
      rcases List.mem_cons.mp hrow with rfl | hmem
      · have hzero : rank key (row :: rest) (key row) = 0 := by
          refine rank_eq_zero fun other hother => ?_
          rcases List.mem_cons.mp hother with rfl | hother
          · exact lt_irrefl _
          · exact lt_asymm (hfirst other hother)
        rw [hzero]
        cases start with
        | zero =>
            cases limit with
            | zero => simp
            | succ limit => simp
        | succ start =>
            rw [List.drop_succ_cons]
            constructor
            · intro hlater
              exact absurd hlater hnotRest
            · rintro ⟨hle, _⟩
              exact absurd hle (Nat.not_succ_le_zero start)
      · have hlt := hfirst row hmem
        have hne : row ≠ first := by
          rintro rfl
          exact lt_irrefl _ hlt
        rw [rank_cons_of_lt hlt]
        cases start with
        | zero =>
            cases limit with
            | zero => simp
            | succ limit =>
                have hstep := @ih 0 limit hrest hmem
                rw [List.drop_zero] at hstep ⊢
                rw [List.take_succ_cons, List.mem_cons, hstep]
                constructor
                · rintro (heq | ⟨_, hrank⟩)
                  · exact absurd heq hne
                  · omega
                · rintro ⟨_, hrank⟩
                  exact .inr (by omega)
        | succ start =>
            rw [List.drop_succ_cons, @ih start limit hrest hmem]
            omega

/-- A row that is not on a page is on a later one, and the table goes on after the page. -/
theorem rank_of_not_mem_page (hsorted : rows.Pairwise fun a b => key a < key b) (hrow : row ∈ rows)
    (hstart : start ≤ rank key rows (key row)) (hnot : row ∉ page start limit rows) :
    start + limit ≤ rank key rows (key row) ∧ start + limit < rows.length := by
  have hrank : start + limit ≤ rank key rows (key row) := by
    by_contra hlt
    exact hnot ((mem_page_iff hsorted hrow).mpr ⟨hstart, Nat.lt_of_not_le hlt⟩)
  exact ⟨hrank, Nat.lt_of_le_of_lt hrank (rank_lt_length hrow)⟩

/-- **The rank of a key grows** with the table, where rows keep their keys. -/
theorem rank_le_of_grows (hdistinct : rows.Pairwise fun a b => key a ≠ key b)
    (hgrows : ∀ row ∈ rows, ∃ row' ∈ rows', key row' = key row) :
    rank key rows k ≤ rank key rows' k := by
  unfold rank
  rw [← List.length_map key, ← @List.length_map _ _ (rows'.filter _) key]
  refine List.Nodup.length_le_of_subset ?_ fun other hother => ?_
  · exact List.pairwise_map.mpr (hdistinct.sublist List.filter_sublist)
  · obtain ⟨row, hrow, rfl⟩ := List.mem_map.mp hother
    obtain ⟨hrow, hlt⟩ := List.mem_filter.mp hrow
    obtain ⟨row', hrow', hkey⟩ := hgrows row hrow
    exact List.mem_map.mpr ⟨row', List.mem_filter.mpr ⟨hrow', by rwa [hkey]⟩, hkey⟩

/-- A table that is sorted and has no key twice is strictly sorted. -/
theorem pairwise_lt (hsorted : rows.Pairwise fun a b => key a ≤ key b)
    (hdistinct : rows.Pairwise fun a b => key a ≠ key b) :
    rows.Pairwise fun a b => key a < key b :=
  (hsorted.and hdistinct).imp fun hboth => lt_of_le_of_ne hboth.1 hboth.2

end Paging
