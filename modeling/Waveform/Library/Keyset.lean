import Mathlib.Data.List.Basic
import Mathlib.Order.WellFounded

/-!
# Reading a changing table page by page

A reader asks for the rows below a cursor, greatest key first, and for one row more than a page
holds: when it is there, the key of the last row of the page is the next cursor. Between two reads
the table may change in any way.

- `mem_page_of_last`, `page_next`: what a page leaves for later.
- `exists_traversal`: over a well-founded order of keys every traversal comes to an end.
- `Traversal.pairwise`, `Traversal.complete`: its keys descend strictly, and a row that is there at
  every read is on one of its pages.
-/

set_option autoImplicit false

namespace Keyset

universe u v w

/-! ## Traversals -/

section Traversals

variable {Cursor : Type u} {Page : Type v}

/-- The pages that a reader gets who follows the cursors until there is none. The number counts the
reads. -/
inductive Traversal (Reads : Nat → Option Cursor → Page → Prop) (next : Page → Option Cursor) :
    Nat → Option Cursor → List Page → Prop where
  | last {n : Nat} {cursor : Option Cursor} {page : Page} :
      Reads n cursor page → next page = none → Traversal Reads next n cursor [page]
  | more {n : Nat} {cursor : Option Cursor} {page : Page} {key : Cursor} {pages : List Page} :
      Reads n cursor page → next page = some key →
        Traversal Reads next (n + 1) (some key) pages →
        Traversal Reads next n cursor (page :: pages)

/-- A traversal carries over to another form of cursors and pages that each read respects, at the
cursors that satisfy a condition. -/
theorem Traversal.map {Cursor' : Type u} {Page' : Type v}
    {Reads : Nat → Option Cursor → Page → Prop} {next : Page → Option Cursor}
    {Reads' : Nat → Option Cursor' → Page' → Prop} {next' : Page' → Option Cursor'}
    (Ok : Cursor → Prop) {f : Cursor → Cursor'} {g : Page → Page'}
    (hok : ∀ n cursor page, Reads n cursor page → ∀ key ∈ next page, Ok key)
    (hreads : ∀ n cursor page, (∀ key ∈ cursor, Ok key) → Reads n cursor page →
      Reads' n (cursor.map f) (g page))
    (hnext : ∀ page, next' (g page) = (next page).map f)
    {n : Nat} {cursor : Option Cursor} {pages : List Page} (hcursor : ∀ key ∈ cursor, Ok key)
    (h : Traversal Reads next n cursor pages) :
    Traversal Reads' next' n (cursor.map f) (pages.map g) := by
  induction h with
  | last hread hlast =>
      apply Traversal.last (hreads _ _ _ hcursor hread)
      rw [hnext, hlast]
      rfl
  | more hread hmore _ ih =>
      have hkey := hok _ _ _ hread
      rw [hmore] at hkey
      refine Traversal.more (hreads _ _ _ hcursor hread) ?_ (ih hkey)
      rw [hnext, hmore]
      rfl

/-- Where a read answers one page, there is one traversal. -/
theorem Traversal.unique {Reads : Nat → Option Cursor → Page → Prop} {next : Page → Option Cursor}
    (hreads : ∀ n cursor page page', Reads n cursor page → Reads n cursor page' → page' = page)
    {n : Nat} {cursor : Option Cursor} {pages pages' : List Page}
    (h : Traversal Reads next n cursor pages) (h' : Traversal Reads next n cursor pages') :
    pages' = pages := by
  induction h generalizing pages' with
  | last hread hlast =>
      cases h' with
      | last hread' _ => rw [hreads _ _ _ _ hread hread']
      | more hread' hmore' _ =>
          cases hreads _ _ _ _ hread hread'
          rw [hlast] at hmore'
          cases hmore'
  | more hread hmore _ ih =>
      cases h' with
      | last hread' hlast' =>
          cases hreads _ _ _ _ hread hread'
          rw [hmore] at hlast'
          cases hlast'
      | more hread' hmore' hrest' =>
          cases hreads _ _ _ _ hread hread'
          rw [hmore] at hmore'
          cases hmore'
          rw [ih hrest']

end Traversals

/-! ## Pages -/

variable {Row : Type u} {Key : Type v} [LinearOrder Key] (key : Row → Key)

/-- The key is below the cursor. -/
def Below (cursor : Option Key) (k : Key) : Prop := ∀ bound ∈ cursor, k < bound

instance (cursor : Option Key) (k : Key) : Decidable (Below cursor k) :=
  match cursor with
  | none => .isTrue fun _ h => nomatch h
  | some bound => decidable_of_iff (k < bound) (by simp [Below])

/-- The rows below the cursor, greatest key first. -/
def selected (cursor : Option Key) (rows : List Row) : List Row :=
  (rows.filter fun row => Below cursor (key row)).mergeSort fun a b => key b ≤ key a

/-- The first `limit` of one row more, and the key of the last of them when that row is there. -/
def page (limit : Nat) (cursor : Option Key) (rows : List Row) : List Row × Option Key :=
  let found := (selected key cursor rows).take (limit + 1)
  let items := found.take limit
  (items, if limit < found.length then items.getLast?.map key else none)

variable {key} {limit : Nat} {cursor : Option Key} {rows : List Row}

theorem mem_selected {row : Row} :
    row ∈ selected key cursor rows ↔ row ∈ rows ∧ Below cursor (key row) := by
  simp [selected, List.mem_mergeSort]

/-- Rows of distinct keys are selected in strictly descending order. -/
theorem pairwise_selected (h : (rows.map key).Nodup) :
    (selected key cursor rows).Pairwise fun a b => key b < key a := by
  have hsorted : (selected key cursor rows).Pairwise fun a b => key b ≤ key a := by
    refine (List.pairwise_mergeSort ?_ ?_ _).imp (by simp)
    · intro a b c hab hbc
      simp only [decide_eq_true_eq] at hab hbc ⊢
      exact hbc.trans hab
    · intro a b
      simpa using le_total (key b) (key a)
  have hdistinct : (selected key cursor rows).Pairwise fun a b => key a ≠ key b := by
    refine List.Pairwise.perm ?_ (List.mergeSort_perm _ _).symm fun hne heq => hne heq.symm
    exact (List.pairwise_map.mp h).filter _
  exact hsorted.imp₂ (fun a b hle hne => lt_of_le_of_ne hle (Ne.symm hne)) hdistinct

/-- The row more than a page holds only tells whether there is one. -/
theorem page_eq : page key limit cursor rows =
    ((selected key cursor rows).take limit,
      if limit < (selected key cursor rows).length then
        ((selected key cursor rows).take limit).getLast?.map key
      else none) := by
  have htake : ((selected key cursor rows).take (limit + 1)).take limit =
      (selected key cursor rows).take limit := by
    rw [List.take_take, Nat.min_eq_left (Nat.le_succ limit)]
  have hlength : limit < ((selected key cursor rows).take (limit + 1)).length ↔
      limit < (selected key cursor rows).length := by
    rw [List.length_take]
    omega
  simp only [page, htake, hlength]

theorem mem_page {row : Row} (h : row ∈ (page key limit cursor rows).1) :
    row ∈ rows ∧ Below cursor (key row) := by
  rw [page_eq] at h
  exact mem_selected.mp (List.mem_of_mem_take h)

theorem pairwise_page (h : (rows.map key).Nodup) :
    (page key limit cursor rows).1.Pairwise fun a b => key b < key a := by
  rw [page_eq]
  exact (pairwise_selected h).sublist (List.take_sublist _ _)

/-- The last page leaves nothing. -/
theorem mem_page_of_last (hlast : (page key limit cursor rows).2 = none) (hlimit : 0 < limit)
    {row : Row} (hrow : row ∈ rows) (hbelow : Below cursor (key row)) :
    row ∈ (page key limit cursor rows).1 := by
  have hmem : row ∈ selected key cursor rows := mem_selected.mpr ⟨hrow, hbelow⟩
  rw [page_eq] at hlast ⊢
  rcases Nat.lt_or_ge limit (selected key cursor rows).length with hmore | hall
  · -- A page that is not the last one has a last row, since it holds at least one.
    have hne : (selected key cursor rows).take limit ≠ [] := by
      intro hnil
      have hlength := congrArg List.length hnil
      rw [List.length_take, List.length_nil] at hlength
      omega
    simp [hmore, hne] at hlast
  · rwa [List.take_of_length_le hall]

/-- A page with a next cursor ends at it, and leaves only rows below it. -/
theorem page_next {k : Key} (hnext : (page key limit cursor rows).2 = some k)
    (h : (rows.map key).Nodup) :
    (∃ row ∈ (page key limit cursor rows).1, key row = k) ∧
      (∀ row ∈ (page key limit cursor rows).1, k ≤ key row) ∧
      ∀ row ∈ rows, Below cursor (key row) → row ∉ (page key limit cursor rows).1 →
        key row < k := by
  have hsorted : (selected key cursor rows).Pairwise fun a b => key b < key a :=
    pairwise_selected h
  rw [page_eq] at hnext ⊢
  obtain ⟨_, hkey⟩ := Option.ite_none_right_eq_some.mp hnext
  obtain ⟨last, hlast, rfl⟩ := Option.map_eq_some_iff.mp hkey
  obtain ⟨before, hbefore⟩ := List.getLast?_eq_some_iff.mp hlast
  have hsplit : selected key cursor rows =
      before ++ [last] ++ (selected key cursor rows).drop limit := by
    rw [← hbefore, List.take_append_drop]
  rw [hsplit, List.pairwise_append, List.pairwise_append] at hsorted
  obtain ⟨⟨_, _, hpage⟩, _, hrest⟩ := hsorted
  refine ⟨⟨last, ?_, rfl⟩, ?_, ?_⟩
  · simp [hbefore]
  · intro row hrow
    rw [hbefore, List.mem_append, List.mem_singleton] at hrow
    rcases hrow with hrow | rfl
    · exact (hpage row hrow last (List.mem_singleton_self last)).le
    · exact le_refl _
  · intro row hrow hbelow hnot
    have hmem : row ∈ selected key cursor rows := mem_selected.mpr ⟨hrow, hbelow⟩
    rw [← List.take_append_drop limit (selected key cursor rows), List.mem_append] at hmem
    exact hrest last (by simp) row (hmem.resolve_left hnot)

/-! ## Traversals of a table -/

section Tables

variable (key) (limit) (tables : Nat → List Row)

/-- The read of a page from the table as it is at that read. -/
def Reads (n : Nat) (cursor : Option Key) (result : List Row × Option Key) : Prop :=
  result = page key limit cursor (tables n)

/-- A traversal of the changing table. -/
abbrev TableTraversal : Nat → Option Key → List (List Row × Option Key) → Prop :=
  Traversal (Reads key limit tables) Prod.snd

/-- The rows on the pages. -/
def rowsOf (pages : List (List Row × Option Key)) : List Row := pages.flatMap Prod.fst

variable {key limit tables}

/-- **Every traversal comes to an end**, whatever happens to the table: the cursors descend. -/
theorem exists_traversal [WellFoundedLT Key] (hdistinct : ∀ n, ((tables n).map key).Nodup)
    (n : Nat) (cursor : Option Key) : ∃ pages, TableTraversal key limit tables n cursor pages := by
  have hfrom : ∀ (bound : Key) (n : Nat),
      ∃ pages, TableTraversal key limit tables n (some bound) pages := by
    intro bound
    induction bound using WellFoundedLT.induction with
    | ind bound ih =>
        intro n
        cases hnext : (page key limit (some bound) (tables n)).2 with
        | none => exact ⟨_, .last rfl hnext⟩
        | some k =>
            obtain ⟨⟨row, hrow, rfl⟩, _, _⟩ := page_next hnext (hdistinct n)
            obtain ⟨pages, hpages⟩ := ih _ ((mem_page hrow).2 bound rfl) (n + 1)
            exact ⟨_, .more rfl hnext hpages⟩
  cases hnext : (page key limit cursor (tables n)).2 with
  | none => exact ⟨_, .last rfl hnext⟩
  | some k =>
      obtain ⟨pages, hpages⟩ := hfrom k (n + 1)
      exact ⟨_, .more rfl hnext hpages⟩

/-- Every row on the pages was in the table when its page was read, and is below the cursor. -/
theorem TableTraversal.mem {n : Nat} {cursor : Option Key} {pages : List (List Row × Option Key)}
    (h : TableTraversal key limit tables n cursor pages)
    (hdistinct : ∀ n, ((tables n).map key).Nodup) {row : Row} (hrow : row ∈ rowsOf pages) :
    (∃ m, row ∈ tables m) ∧ Below cursor (key row) := by
  induction h with
  | @last n cursor result hread hlast =>
      obtain rfl : result = page key limit cursor (tables n) := hread
      have hmem : row ∈ (page key limit cursor (tables n)).1 := by simpa [rowsOf] using hrow
      exact ⟨⟨n, (mem_page hmem).1⟩, (mem_page hmem).2⟩
  | @more n cursor result k pages hread hmore _ ih =>
      obtain rfl : result = page key limit cursor (tables n) := hread
      rw [rowsOf, List.flatMap_cons, List.mem_append] at hrow
      rcases hrow with hrow | hrow
      · exact ⟨⟨n, (mem_page hrow).1⟩, (mem_page hrow).2⟩
      · obtain ⟨hmem, hbelow⟩ := ih hrow
        obtain ⟨⟨last, hlast, rfl⟩, _, _⟩ := page_next hmore (hdistinct n)
        refine ⟨hmem, fun bound hbound => ?_⟩
        exact (hbelow _ rfl).trans ((mem_page hlast).2 bound hbound)

/-- **The keys descend strictly over the whole traversal.** -/
theorem TableTraversal.pairwise {n : Nat} {cursor : Option Key}
    {pages : List (List Row × Option Key)} (h : TableTraversal key limit tables n cursor pages)
    (hdistinct : ∀ n, ((tables n).map key).Nodup) :
    (rowsOf pages).Pairwise fun a b => key b < key a := by
  induction h with
  | @last n cursor result hread hlast =>
      obtain rfl : result = page key limit cursor (tables n) := hread
      simpa [rowsOf] using pairwise_page (hdistinct n)
  | @more n cursor result k pages hread hmore hrest ih =>
      obtain rfl : result = page key limit cursor (tables n) := hread
      rw [rowsOf, List.flatMap_cons, List.pairwise_append]
      refine ⟨pairwise_page (hdistinct n), ih, ?_⟩
      intro a ha b hb
      obtain ⟨_, hle, _⟩ := page_next hmore (hdistinct n)
      have hbelow : Below (some k) (key b) := (TableTraversal.mem hrest hdistinct hb).2
      exact (hbelow k rfl).trans_le (hle a ha)

/-- **Nothing is left out**: a row below the cursor that is there at every read is on a page. -/
theorem TableTraversal.complete {n : Nat} {cursor : Option Key}
    {pages : List (List Row × Option Key)} (h : TableTraversal key limit tables n cursor pages)
    (hlimit : 0 < limit) (hdistinct : ∀ n, ((tables n).map key).Nodup) {k : Key}
    (hbelow : Below cursor k) (hstays : ∀ m, n ≤ m → ∃ row ∈ tables m, key row = k) :
    ∃ row ∈ rowsOf pages, key row = k := by
  induction h with
  | @last n cursor result hread hlast =>
      obtain rfl : result = page key limit cursor (tables n) := hread
      obtain ⟨row, hrow, rfl⟩ := hstays n (Nat.le_refl n)
      refine ⟨row, ?_, rfl⟩
      simpa [rowsOf] using mem_page_of_last hlast hlimit hrow hbelow
  | @more n cursor result next pages hread hmore hrest ih =>
      obtain rfl : result = page key limit cursor (tables n) := hread
      obtain ⟨row, hrow, rfl⟩ := hstays n (Nat.le_refl n)
      by_cases hmem : row ∈ (page key limit cursor (tables n)).1
      · refine ⟨row, ?_, rfl⟩
        rw [rowsOf, List.flatMap_cons]
        exact List.mem_append_left _ hmem
      · -- The page ends above the row, so a later one holds it.
        obtain ⟨_, _, hleft⟩ := page_next hmore (hdistinct n)
        have hnext : Below (some next) (key row) := by
          rintro bound ⟨rfl⟩
          exact hleft row hrow hbelow hmem
        obtain ⟨later, hlater, hkey⟩ := ih hnext fun m hm => hstays m (by omega)
        refine ⟨later, ?_, hkey⟩
        rw [rowsOf, List.flatMap_cons]
        exact List.mem_append_right _ hlater

end Tables

end Keyset
