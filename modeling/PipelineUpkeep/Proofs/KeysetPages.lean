import PipelineUpkeep.Proofs.Candidates
/-!
# Reading page by page

A query without a limit may be read in pages.  Each page asks for rows past the last identifier
of the page before, up to a number of rows, and reading ends with the first page that has fewer.
The place where a page starts is one more condition of its query: the scope is searched anew for
every page, and what lies before the page is dropped from the rows that the search has found.

What carries the reading is the list of the rows past an identifier.  A page is the front of this
list, and the rows past the last row of a full page are what the front leaves of it.  So the pages
are the pieces into which the rows of the query are cut.  If the rows fill their pages, reading
ends with an empty one.
-/

namespace PipelineUpkeep

/-- The rows of a query past an identifier, or from the first one on, up to the size of a page. -/
def Query.page (query : Query) (size : Nat) (after : Option Nat) : Query :=
  match after with
  | some id => (query.idAfter id).limitTo size
  | none => query.limitTo size

/-- The pages hold the rows one after the other.  Each of them is full but the last one, which
is not. -/
structure CutsInto {α : Type} (size : Nat) (rows : List α) (pages : List (List α)) : Prop where
  full : ∀ page ∈ pages.dropLast, page.length = size
  short : ∃ page, pages.getLast? = some page ∧ page.length < size
  whole : pages.flatten = rows

namespace CutsInto

variable {α : Type} {size : Nat} {rows rest page : List α} {pages : List (List α)}

theorem single (hShort : rows.length < size) : CutsInto size rows [rows] where
  full := by simp
  short := ⟨rows, rfl, hShort⟩
  whole := by simp

/-- A last page that is not full, behind full ones. -/
theorem exists_concat (h : CutsInto size rows pages) :
    ∃ front last, pages = front ++ [last] ∧ (∀ other ∈ front, other.length = size) ∧
      last.length < size := by
  obtain ⟨last, hLast, hShort⟩ := h.short
  obtain ⟨front, rfl⟩ := List.getLast?_eq_some_iff.mp hLast
  have hFront : ∀ other ∈ front, other.length = size := by
    simpa using h.full
  exact ⟨front, last, rfl, hFront, hShort⟩

theorem cons (hFull : page.length = size) (h : CutsInto size rest pages) :
    CutsInto size (page ++ rest) (page :: pages) := by
  obtain ⟨front, last, rfl, hFront, hShort⟩ := h.exists_concat
  constructor
  · rw [← List.cons_append, List.dropLast_concat]
    exact List.forall_mem_cons.mpr ⟨hFull, hFront⟩
  · exact ⟨last, by rw [← List.cons_append, List.getLast?_concat], hShort⟩
  · rw [List.flatten_cons, h.whole]

/-- As many pages as the rows can fill, and the last one. -/
theorem length_pages (h : CutsInto size rows pages) :
    pages.length = rows.length / size + 1 := by
  obtain ⟨front, last, rfl, hFront, hShort⟩ := h.exists_concat
  have hFilled : front.flatten.length = front.length * size := by
    rw [List.length_flatten, List.map_congr_left hFront, List.map_const', List.sum_replicate_nat]
  have hRows : rows.length = last.length + front.length * size := by
    rw [← h.whole, List.flatten_concat, List.length_append, hFilled, Nat.add_comm]
  have hPages : rows.length / size = front.length := by
    rw [hRows, Nat.add_mul_div_right _ _ (by omega), Nat.div_eq_of_lt hShort, Nat.zero_add]
  rw [hPages, List.length_append, List.length_singleton]

end CutsInto

namespace Store

variable (store : Store)

/-- The rows of a query past an identifier. -/
def rowsAfter (query : Query) (after : Option Nat) : List Pipeline :=
  (store.evaluate query).filter fun row => after.all fun id => decide (id < row.id)

@[simp]
theorem rowsAfter_none (query : Query) : store.rowsAfter query none = store.evaluate query := by
  simp [rowsAfter]

theorem pairwise_rowsAfter (query : Query) (after : Option Nat) :
    (store.rowsAfter query after).Pairwise (·.id < ·.id) :=
  (store.evaluate_pairwise_lt query).filter _

/-- What lies past the last row of a page is the rest of the list. -/
theorem rowsAfter_last {query : Query} {after : Option Nat} {page rest : List Pipeline}
    (h : store.rowsAfter query after = page ++ rest) {last : Pipeline}
    (hLast : page.getLast? = some last) : store.rowsAfter query (some last.id) = rest := by
  obtain ⟨front, rfl⟩ := List.getLast?_eq_some_iff.mp hLast
  have hSorted := store.pairwise_rowsAfter query after
  rw [h] at hSorted
  obtain ⟨hPage, -, hAcross⟩ := List.pairwise_append.mp hSorted
  obtain ⟨-, -, hFront⟩ := List.pairwise_append.mp hPage
  have hLastMem : last ∈ store.rowsAfter query after := by
    rw [h]
    simp
  have hAfter : after.all (fun id => decide (id < last.id)) = true :=
    (List.mem_filter.mp hLastMem).2
  -- The old lower bound is implied by the new one.
  have hNarrow : store.rowsAfter query (some last.id) =
      (store.rowsAfter query after).filter fun row => decide (last.id < row.id) := by
    unfold rowsAfter
    rw [List.filter_filter]
    refine List.filter_congr fun row _ => ?_
    cases after with
    | none => simp
    | some id =>
        have hId : id < last.id := by simpa using hAfter
        simp only [Option.all_some]
        by_cases hRow : last.id < row.id
        · have : id < row.id := Nat.lt_trans hId hRow
          simp [hRow, this]
        · simp [hRow]
  have hPast : rest.filter (fun row => decide (last.id < row.id)) = rest := by
    refine List.filter_eq_self.mpr fun row hRow => ?_
    exact decide_eq_true (hAcross last (by simp) row hRow)
  have hBefore : (front ++ [last]).filter (fun row => decide (last.id < row.id)) = [] := by
    refine List.filter_eq_nil_iff.mpr fun row hRow => ?_
    rcases List.mem_append.mp hRow with hRow | hRow
    · have := hFront row hRow last (by simp)
      simpa using Nat.le_of_lt this
    · rw [List.mem_singleton.mp hRow]
      simp
  rw [hNarrow, h, List.filter_append, hBefore, hPast, List.nil_append]

/-- A page is the front of what lies past the place where it starts. -/
theorem evaluate_page {query : Query} (hLimit : query.limit = none) (size : Nat)
    (after : Option Nat) :
    store.evaluate (query.page size after) = (store.rowsAfter query after).take size := by
  cases after with
  | none =>
      rw [rowsAfter_none]
      exact store.evaluate_limitTo hLimit size
  | some id =>
      have hKeep : store.rowsAfter query (some id) = store.evaluate (query.idAfter id) :=
        (store.evaluate_withCondition hLimit (.idAfter id)).symm
      have hNext : (query.idAfter id).limit = none := hLimit
      rw [hKeep]
      exact store.evaluate_limitTo hNext size

section Step

variable {store} {query : Query} {size : Nat} {after : Option Nat} {page : List Pipeline}

theorem length_page_le (hLimit : query.limit = none)
    (hPage : store.evaluate (query.page size after) = page) : page.length ≤ size := by
  rw [← hPage, store.evaluate_page hLimit]
  exact List.length_take_le size _

/-- A page that is not full leaves nothing. -/
theorem rowsAfter_of_short (hLimit : query.limit = none)
    (hPage : store.evaluate (query.page size after) = page) (hShort : page.length < size) :
    store.rowsAfter query after = page := by
  rw [store.evaluate_page hLimit] at hPage
  rw [← hPage, List.length_take] at hShort
  rw [← hPage]
  exact (List.take_of_length_le (by omega)).symm

/-- What a page leaves is what lies past its last row. -/
theorem rowsAfter_of_final (hLimit : query.limit = none)
    (hPage : store.evaluate (query.page size after) = page) {final : Pipeline}
    (hFinal : page.getLast? = some final) :
    store.rowsAfter query after = page ++ store.rowsAfter query (some final.id) := by
  have hSplit : store.rowsAfter query after =
      page ++ (store.rowsAfter query after).drop size := by
    rw [← hPage, store.evaluate_page hLimit, List.take_append_drop]
  rw [store.rowsAfter_last hSplit hFinal]
  exact hSplit

end Step

/-- The pages that are read from a place on.  The first page that is not full is the last one;
a full page is followed by those that start past its last row. -/
inductive ReadsPages (query : Query) (size : Nat) : Option Nat → List (List Pipeline) → Prop
  | last {after : Option Nat} {page : List Pipeline}
      (hPage : store.evaluate (query.page size after) = page) (hShort : page.length < size) :
      ReadsPages query size after [page]
  | next {after : Option Nat} {page : List Pipeline} {final : Pipeline}
      {pages : List (List Pipeline)}
      (hPage : store.evaluate (query.page size after) = page) (hFull : ¬ page.length < size)
      (hFinal : page.getLast? = some final) (hRest : ReadsPages query size (some final.id) pages) :
      ReadsPages query size after (page :: pages)

section Reading

variable {store} {query : Query} {size : Nat} {after : Option Nat}
  {pages others : List (List Pipeline)}

/-- The store and the place decide what is read. -/
theorem ReadsPages.unique (h : store.ReadsPages query size after pages)
    (hOther : store.ReadsPages query size after others) : pages = others := by
  induction h generalizing others with
  | last hPage hShort =>
      cases hOther with
      | last hSame _ => rw [← hPage, hSame]
      | next hSame hFull _ _ =>
          obtain rfl := hPage.symm.trans hSame
          exact absurd hShort hFull
  | next hPage hFull hFinal _ ih =>
      cases hOther with
      | last hSame hShort =>
          obtain rfl := hPage.symm.trans hSame
          exact absurd hShort hFull
      | next hSame _ hEnd hRest =>
          obtain rfl := hPage.symm.trans hSame
          obtain rfl := Option.some.inj (hFinal.symm.trans hEnd)
          rw [ih hRest]

/-- Whatever is read from a place on is cut out of what lies past it. -/
theorem ReadsPages.cutsInto (hLimit : query.limit = none)
    (h : store.ReadsPages query size after pages) :
    CutsInto size (store.rowsAfter query after) pages := by
  induction h with
  | last hPage hShort =>
      rw [rowsAfter_of_short hLimit hPage hShort]
      exact .single hShort
  | next hPage hFull hFinal _ ih =>
      have hLength := length_page_le hLimit hPage
      rw [rowsAfter_of_final hLimit hPage hFinal]
      exact ih.cons (by omega)

/-- Reading ends, because a full page leaves fewer rows than there were. -/
theorem exists_readsPages (hLimit : query.limit = none) (hSize : 0 < size) {count : Nat}
    (hCount : (store.rowsAfter query after).length < count) :
    ∃ pages, store.ReadsPages query size after pages := by
  induction count generalizing after with
  | zero => exact absurd hCount (Nat.not_lt_zero _)
  | succ count ih =>
      obtain ⟨page, hPage⟩ : ∃ page, store.evaluate (query.page size after) = page := ⟨_, rfl⟩
      by_cases hShort : page.length < size
      · exact ⟨[page], .last hPage hShort⟩
      · -- A full page has a last row, since a page has room for one.
        have hNonempty : page ≠ [] := List.ne_nil_of_length_pos (by omega)
        have hFinal : page.getLast? = some (page.getLast hNonempty) :=
          List.getLast?_eq_some_getLast hNonempty
        have hFewer : (store.rowsAfter query (some (page.getLast hNonempty).id)).length <
            count := by
          rw [rowsAfter_of_final hLimit hPage hFinal, List.length_append] at hCount
          omega
        obtain ⟨pages, hRest⟩ := ih hFewer
        exact ⟨page :: pages, .next hPage hShort hFinal hRest⟩

end Reading

/-- Reading a query page by page ends, after one read more than the rows can fill pages.  Every
page but the last is full, and one after the other they hold the rows of the whole query, each of
them once and in increasing order, whatever the scope and the conditions of the query are. -/
theorem keyset_paging_is_lossless (store : Store) {query : Query} (hLimit : query.limit = none)
    {size : Nat} (hSize : 0 < size) :
    ∃ pages, store.ReadsPages query size none pages ∧
      (∀ others, store.ReadsPages query size none others → others = pages) ∧
      CutsInto size (store.evaluate query) pages ∧
      pages.length = (store.evaluate query).length / size + 1 ∧
      pages.flatten.Pairwise (·.id < ·.id) := by
  obtain ⟨pages, hReads⟩ : ∃ pages, store.ReadsPages query size none pages :=
    exists_readsPages hLimit hSize (Nat.lt_succ_self _)
  have hCuts : CutsInto size (store.evaluate query) pages := by
    rw [← store.rowsAfter_none query]
    exact hReads.cutsInto hLimit
  have hSorted : pages.flatten.Pairwise (·.id < ·.id) := by
    rw [hCuts.whole]
    exact store.evaluate_pairwise_lt query
  exact ⟨pages, hReads, fun _ hOther => hOther.unique hReads, hCuts, hCuts.length_pages, hSorted⟩

end Store

/-- The first pipeline of a ref that has no parent, all that descends from it, and all that
descends from these. -/
def firstFamily : Query :=
  Query.hierarchyOf (Query.hierarchyOf ((Query.forRef 1 "main").notChild.limitTo 1))

/-- The two rows of a family fill two pages of one row, and a third page is read. -/
theorem Store.keyset_paging_is_lossless_firstFamily :
    firstFamily.limit = none ∧ 0 < 1 ∧
      familyRef.ReadsPages firstFamily 1 none [[pushedPipeline 1], [lateChild], []] ∧
      CutsInto 1 (familyRef.evaluate firstFamily) [[pushedPipeline 1], [lateChild], []] := by
  have hLimit : firstFamily.limit = none := rfl
  have hReads : familyRef.ReadsPages firstFamily 1 none
      [[pushedPipeline 1], [lateChild], []] :=
    .next (by decide) (by decide) rfl <|
      .next (by decide) (by decide) rfl <| .last (by decide) (by decide)
  obtain ⟨pages, -, hUnique, hCuts, -⟩ :=
    keyset_paging_is_lossless familyRef hLimit Nat.one_pos
  exact ⟨hLimit, Nat.one_pos, hReads, hUnique _ hReads ▸ hCuts⟩

end PipelineUpkeep
