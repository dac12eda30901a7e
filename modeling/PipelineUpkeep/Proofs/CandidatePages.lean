import Mathlib.Algebra.Order.Floor.Div
import PipelineUpkeep.Cancellation.Pass
import PipelineUpkeep.Proofs.KeysetPages
import PipelineUpkeep.Proofs.UndisturbedRun
/-!
# A pass visits every candidate once

A pass evaluates its query anew for every batch, although it cancels rows that the
query looks at.  The invariant that carries the pass is about the rows past the last
identifier of the batch before: cancelling rows up to that identifier neither adds
nor removes a candidate past it, and leaves their builds alone.  So the batches of a
pass are the consecutive pieces of the list of candidates at its start.
-/

namespace PipelineUpkeep

open Time

namespace Store

variable (store : Store)

/-- The identifiers of the rows of which it is true, or false, that a build keeps them
from being canceled. -/
def idsBlocked (blocked : Bool) (rows : List Pipeline) : List Nat :=
  (rows.filter fun row => store.isBlocked row.id == blocked).map (·.id)

@[simp]
theorem idsBlocked_nil (blocked : Bool) : store.idsBlocked blocked [] = [] := rfl

theorem idsBlocked_append (blocked : Bool) (rows others : List Pipeline) :
    store.idsBlocked blocked (rows ++ others) =
      store.idsBlocked blocked rows ++ store.idsBlocked blocked others := by
  simp [idsBlocked]

theorem mem_idsBlocked_iff (blocked : Bool) (rows : List Pipeline) (id : Nat) :
    id ∈ store.idsBlocked blocked rows ↔
      ∃ row ∈ rows, row.id = id ∧ store.isBlocked row.id = blocked := by
  simp only [idsBlocked, List.mem_map, List.mem_filter, beq_iff_eq]
  constructor
  · rintro ⟨row, ⟨hRow, hBlocked⟩, hId⟩
    exact ⟨row, hRow, hId, hBlocked⟩
  · rintro ⟨row, hRow, hId, hBlocked⟩
    exact ⟨row, ⟨hRow, hBlocked⟩, hId⟩

theorem idsBlocked_congr {store other : Store} {rows : List Pipeline} (blocked : Bool)
    (h : ∀ row ∈ rows, other.isBlocked row.id = store.isBlocked row.id) :
    other.idsBlocked blocked rows = store.idsBlocked blocked rows := by
  unfold idsBlocked
  rw [List.filter_congr fun row hRow => by rw [h row hRow]]

theorem mem_evaluate_interruptibleQuery_iff {ids : List Nat} {row : Pipeline} :
    row ∈ store.evaluate (interruptibleQuery ids) ↔
      row ∈ store.pipelines.rows ∧ row.id ∈ ids ∧ store.isBlocked row.id = false := by
  have hAll : row ∈ store.evaluate Query.all ↔ row ∈ store.pipelines.rows := by
    rw [mem_evaluate_iff _ rfl]
    simp [Query.all, Query.ofScope, scopeRows, meets]
  simp only [interruptibleQuery, Query.withOnlyInterruptibleBuilds, Query.idIn]
  rw [mem_evaluate_withCondition_iff _ _ _ _ rfl, mem_evaluate_withCondition_iff _ _ _ _ rfl,
    hAll, and_assoc]
  simp only [Condition.holds, List.contains_iff_mem, isBlocked, Bool.not_eq_true']

/-- Of rows with some identifiers, those that may be canceled. -/
theorem evaluate_interruptibleQuery {page : List Pipeline}
    (hSorted : page.Pairwise (·.id < ·.id)) (hStored : ∀ row ∈ page, row ∈ store.pipelines.rows) :
    store.evaluate (interruptibleQuery (page.map (·.id))) =
      page.filter fun row => store.isBlocked row.id == false := by
  refine Table.eq_of_mem_iff (store.evaluate_pairwise_lt _) (hSorted.filter _) fun row => ?_
  rw [mem_evaluate_interruptibleQuery_iff, List.mem_filter, List.mem_map, beq_iff_eq]
  constructor
  · rintro ⟨hRow, ⟨other, hOther, hId⟩, hFree⟩
    have hSame : other = row := store.pipelines.eq_of_key_eq (hStored other hOther) hRow hId
    exact ⟨hSame ▸ hOther, hFree⟩
  · rintro ⟨hRow, hFree⟩
    exact ⟨hStored row hRow, ⟨row, hRow, rfl⟩, hFree⟩

end Store

section Paging

variable {store : Store} {strategy : Strategy} {pipeline : Pipeline} {windowStart : Timestamp}

/-- Cancelling rows up to an identifier leaves the candidates past it as they are. -/
theorem rowsAfter_cancelRows {ids : List Nat} {canceledById last : Nat}
    (hIds : ∀ id ∈ ids, id ≤ last) :
    (store.cancelRows ids canceledById).rowsAfter
        (candidateQuery strategy pipeline windowStart (headSha? store pipeline)) (some last) =
      store.rowsAfter
        (candidateQuery strategy pipeline windowStart (headSha? store pipeline)) (some last) := by
  refine Table.eq_of_mem_iff (Store.pairwise_rowsAfter _ _ _) (Store.pairwise_rowsAfter _ _ _)
    fun row => ?_
  have hHead : headSha? store pipeline =
    headSha? (store.cancelRows ids canceledById) pipeline := rfl
  unfold Store.rowsAfter
  rw [List.mem_filter, List.mem_filter, and_comm, and_comm (a := row ∈ store.evaluate _)]
  refine and_congr_right fun hPast => ?_
  have hLast : last < row.id := by simpa using hPast
  -- A row past `last` is none of those that are canceled.
  have hNot : row.id ∉ ids := fun h => by
    have := hIds _ h
    omega
  rw [mem_evaluate_candidateQuery_iff, ← isCandidate_cancelRows_iff strategy hNot, hHead,
    mem_evaluate_candidateQuery_iff]

end Paging

namespace PassContext

variable (context : PassContext) {clock : Timestamp} {store : Store}

theorem batchLimit_pos : 0 < context.batchLimit :=
  Nat.lt_of_lt_of_le Nat.zero_lt_one (Nat.le_max_left 1 context.batchSize)

/-- A batch is a page of the candidates. -/
theorem batchQuery_eq_page (query : Query) (after : Option Nat) :
    context.batchQuery query after = query.page context.batchLimit after := by
  cases after <;> rfl

theorem evaluate_batchQuery {query : Query} (hLimit : query.limit = none) (after : Option Nat) :
    store.evaluate (context.batchQuery query after) =
      (store.rowsAfter query after).take context.batchLimit := by
  rw [batchQuery_eq_page]
  exact store.evaluate_page hLimit context.batchLimit after

theorem cancelOne_returns {row : Pipeline} (hRow : row ∈ store.pipelines.rows)
    (hStatus : row.status.isCancelable = true) :
    Program.Returns clock (context.cancelOne row) store (.ok .canceled)
      (store.cancelRows [row.id] context.initiator.id) := by
  have hCall := Program.returns_callStore clock .engine
    (.cancelRunning row ⟨context.initiator.id, false⟩) store
  simp only [StoreCall.perform, Store.cancelRunning_of_mem hRow hStatus] at hCall
  refine hCall.bind ?_
  refine (Program.returns_info _ _).bind ?_
  refine (Program.returns_readClock _).bind ?_
  refine (Program.returns_emit _ _).bind ?_
  exact Program.returns_pure _ _

/-- Cancelable rows, as they are stored, are all canceled. -/
theorem cancelEach_returns (clock : Timestamp) {rows : List Pipeline}
    (hSorted : rows.Pairwise (·.id < ·.id))
    (hRows : ∀ row ∈ rows, row ∈ store.pipelines.rows ∧ row.status.isCancelable = true)
    (summary : CancellationSummary) :
    Program.Returns clock (context.cancelEach rows summary) store
      (.ok (), { summary with canceled := summary.canceled.insertAll (rows.map (·.id)) })
      (store.cancelRows (rows.map (·.id)) context.initiator.id) := by
  induction rows generalizing store summary with
  | nil =>
      rw [List.map_nil, Store.cancelRows_nil]
      exact Program.returns_pure _ _
  | cons first rest ih =>
      obtain ⟨hFirst, hRest⟩ := List.pairwise_cons.mp hSorted
      obtain ⟨hStored, hStatus⟩ := hRows first List.mem_cons_self
      -- The rows still to come are past the first one, so its cancellation keeps them.
      have hLater : ∀ row ∈ rest,
          row ∈ (store.cancelRows [first.id] context.initiator.id).pipelines.rows ∧
            row.status.isCancelable = true := by
        intro row hRow
        obtain ⟨hOld, hAlive⟩ := hRows row (List.mem_cons_of_mem _ hRow)
        have hNot : row.id ∉ [first.id] := by
          have := hFirst row hRow
          simp only [List.mem_singleton]
          omega
        exact ⟨(Store.mem_pipelines_cancelRows_iff_of_not_mem hNot).mpr hOld, hAlive⟩
      have hNext := ih hRest hLater (summary.addCanceled first.id)
      rw [Store.cancelRows_cancelRows, List.singleton_append] at hNext
      exact (context.cancelOne_returns hStored hStatus).bind hNext

theorem filterInterruptible_returns (clock : Timestamp) {page : List Pipeline} (hPage : page ≠ [])
    (hSorted : page.Pairwise (·.id < ·.id)) (hStored : ∀ row ∈ page, row ∈ store.pipelines.rows) :
    Program.Returns clock (filterInterruptible (page.map (·.id))) store
      (.ok (page.filter fun row => store.isBlocked row.id == false)) store := by
  have hRead := Program.returns_callStore clock .engine
    (.pipelines (interruptibleQuery (page.map (·.id)))) store
  simp only [StoreCall.perform, store.evaluate_interruptibleQuery hSorted hStored] at hRead
  unfold filterInterruptible
  rw [if_neg (by simpa using hPage)]
  exact hRead

/-- The rows that the second query leaves out are those with a blocking build. -/
theorem filter_not_any_eq_idsBlocked {page : List Pipeline}
    (hSorted : page.Pairwise (·.id < ·.id)) :
    ((page.map (·.id)).filter fun id =>
      !(page.filter fun row => store.isBlocked row.id == false).any (·.id == id)) =
        store.idsBlocked true page := by
  rw [Store.idsBlocked, List.filter_map]
  congr 1
  refine List.filter_congr fun row hRow => ?_
  have hAny := any_id_eq_true_iff hSorted
    (fun x hx => (List.mem_filter.mp hx).1 :
      ∀ x ∈ page.filter (fun row => store.isBlocked row.id == false), x ∈ page) hRow
  rw [List.mem_filter] at hAny
  cases hBlock : store.isBlocked row.id with
  | false => simpa [hBlock] using hAny.mpr ⟨hRow, by simp [hBlock]⟩
  | true =>
      have hNone : ((page.filter fun row => store.isBlocked row.id == false).any
          (·.id == row.id)) = false := by
        rw [← Bool.not_eq_true, hAny]
        simp [hBlock]
      simp only [Function.comp_apply, hNone, Bool.not_false]
      rfl

/-- Of a page of stored rows that have not finished, those without a blocking build
are canceled and the others are noted. -/
theorem cancelBatch_returns (clock : Timestamp) {page : List Pipeline} (hPage : page ≠ [])
    (hSorted : page.Pairwise (·.id < ·.id))
    (hRows : ∀ row ∈ page, row ∈ store.pipelines.rows ∧ row.status.isCancelable = true)
    (summary : CancellationSummary) :
    Program.Returns clock (context.cancelBatch (page.map (·.id)) summary) store
      (.ok (), { summary with
        canceled := summary.canceled.insertAll (store.idsBlocked false page)
        notInterruptible := summary.notInterruptible.insertAll (store.idsBlocked true page) })
      (store.cancelRows (store.idsBlocked false page) context.initiator.id) := by
  have hFilter := filterInterruptible_returns clock hPage hSorted
    fun row hRow => (hRows row hRow).1
  have hEach := context.cancelEach_returns clock
    (hSorted.filter fun row => store.isBlocked row.id == false)
    (fun row hRow => hRows row (List.mem_filter.mp hRow).1)
    (summary.addNotInterruptible (store.idsBlocked true page))
  refine hFilter.bind ?_
  simp only [filter_not_any_eq_idsBlocked hSorted]
  exact hEach

end PassContext

/-- A page and the pages after it. -/
theorem ceilDiv_add_self {limit : Nat} (hLimit : 0 < limit) (rest : Nat) :
    (limit + rest) ⌈/⌉ limit = rest ⌈/⌉ limit + 1 := by
  rw [Nat.ceilDiv_eq_add_pred_div, Nat.ceilDiv_eq_add_pred_div,
    show limit + rest + limit - 1 = rest + limit - 1 + limit by omega]
  exact Nat.add_div_right _ hLimit

theorem ceilDiv_eq_one {limit size : Nat} (hPos : 0 < size) (hSize : size ≤ limit) :
    size ⌈/⌉ limit = 1 := by
  rw [Nat.ceilDiv_eq_add_pred_div]
  exact Nat.div_eq_of_lt_le (by omega) (by omega)

/-- The summary of a pass over `rows`, read in pages, as the store is at its start. -/
def CancellationSummary.afterPages (summary : CancellationSummary) (store : Store)
    (rows : List Pipeline) (limit : Nat) : CancellationSummary :=
  { summary with
    canceled := summary.canceled.insertAll (store.idsBlocked false rows)
    notInterruptible := summary.notInterruptible.insertAll (store.idsBlocked true rows)
    batches := summary.batches + rows.length ⌈/⌉ limit
    largestBatch := max summary.largestBatch (min rows.length limit) }

namespace CancellationSummary

theorem afterPages_nil (summary : CancellationSummary) (store : Store) (limit : Nat) :
    summary.afterPages store [] limit = summary := by
  simp [afterPages, Table.insertAll]

/-- A page that is not too long is one batch. -/
theorem afterPages_of_length_le (summary : CancellationSummary) (store : Store)
    {page : List Pipeline} {limit : Nat} (hPage : 0 < page.length) (hLimit : page.length ≤ limit) :
    summary.afterPages store page limit =
      { summary.recordBatch page.length with
        canceled := summary.canceled.insertAll (store.idsBlocked false page)
        notInterruptible := summary.notInterruptible.insertAll (store.idsBlocked true page) } := by
  simp [afterPages, recordBatch, ceilDiv_eq_one hPage hLimit, Nat.min_eq_left hLimit]

theorem afterPages_append (summary : CancellationSummary) (store : Store)
    {page : List Pipeline} {limit : Nat} (hLimit : 0 < limit) (hPage : page.length = limit)
    (rest : List Pipeline) :
    (summary.afterPages store page limit).afterPages store rest limit =
      summary.afterPages store (page ++ rest) limit := by
  have hOne : limit ⌈/⌉ limit = 1 := ceilDiv_eq_one hLimit (Nat.le_refl limit)
  have hBatches : summary.batches + 1 + rest.length ⌈/⌉ limit =
      summary.batches + (limit + rest.length) ⌈/⌉ limit := by
    rw [ceilDiv_add_self hLimit]
    omega
  have hLargest : max (max summary.largestBatch limit) (min rest.length limit) =
      max summary.largestBatch (min (limit + rest.length) limit) := by
    omega
  simp only [afterPages, hPage, hOne, hBatches, hLargest, Store.idsBlocked_append,
    Table.insertAll, List.foldl_append, List.length_append, Nat.min_self]

/-- Pages count the same in two stores that agree on what is blocked. -/
theorem afterPages_congr (summary : CancellationSummary) {store other : Store}
    {rows : List Pipeline} (limit : Nat)
    (h : ∀ row ∈ rows, other.isBlocked row.id = store.isBlocked row.id) :
    summary.afterPages other rows limit = summary.afterPages store rows limit := by
  simp only [afterPages, Store.idsBlocked_congr _ h]

end CancellationSummary

section Pages

variable {store : Store} {strategy : Strategy} {pipeline : Pipeline} {windowStart : Timestamp}
  {after : Option Nat} {page rest : List Pipeline}

variable (hRows : store.rowsAfter
  (candidateQuery strategy pipeline windowStart (headSha? store pipeline)) after = page ++ rest)

include hRows

theorem pairwise_page : page.Pairwise (·.id < ·.id) := by
  have hSorted := store.pairwise_rowsAfter
    (candidateQuery strategy pipeline windowStart (headSha? store pipeline)) after
  rw [hRows] at hSorted
  exact (List.pairwise_append.mp hSorted).1

theorem stored_of_mem_page {row : Pipeline} (hRow : row ∈ page) :
    row ∈ store.pipelines.rows ∧ row.status.isCancelable = true := by
  have hMem : row ∈ store.rowsAfter
      (candidateQuery strategy pipeline windowStart (headSha? store pipeline)) after := by
    rw [hRows]
    exact List.mem_append_left _ hRow
  have hCandidate := (mem_evaluate_candidateQuery_iff strategy row).mp (List.mem_filter.mp hMem).1
  exact ⟨hCandidate.mem, hCandidate.1⟩

/-- Once a page is canceled, what is left is the rest of the list. -/
theorem rowsAfter_page (canceledById : Nat) {last : Pipeline}
    (hLast : page.getLast? = some last) :
    (store.cancelRows (store.idsBlocked false page) canceledById).rowsAfter
      (candidateQuery strategy pipeline windowStart (headSha? store pipeline)) (some last.id) =
        rest := by
  have hSorted := store.pairwise_rowsAfter
    (candidateQuery strategy pipeline windowStart (headSha? store pipeline)) after
  obtain ⟨front, hFront⟩ := List.getLast?_eq_some_iff.mp hLast
  rw [hRows, hFront] at hSorted
  have hBefore := (List.pairwise_append.mp (List.pairwise_append.mp hSorted).1).2.2
  have hUpTo : ∀ id ∈ store.idsBlocked false page, id ≤ last.id := by
    intro id hId
    obtain ⟨row, hRow, rfl, -⟩ := (store.mem_idsBlocked_iff false page id).mp hId
    rw [hFront] at hRow
    rcases List.mem_append.mp hRow with hRow | hRow
    · exact Nat.le_of_lt (hBefore row hRow last (by simp))
    · rw [List.mem_singleton.mp hRow]
  rw [rowsAfter_cancelRows hUpTo]
  exact store.rowsAfter_last hRows hLast

/-- The cancellation of a page blocks and frees nothing in the rest of the list. -/
theorem isBlocked_page (canceledById : Nat) {row : Pipeline} (hRow : row ∈ rest) :
    (store.cancelRows (store.idsBlocked false page) canceledById).isBlocked row.id =
      store.isBlocked row.id := by
  have hSorted := store.pairwise_rowsAfter
    (candidateQuery strategy pipeline windowStart (headSha? store pipeline)) after
  rw [hRows] at hSorted
  have hAcross := (List.pairwise_append.mp hSorted).2.2
  refine Store.isBlocked_cancelRows_of_not_mem fun hMem => ?_
  obtain ⟨other, hOther, hId, -⟩ := (store.mem_idsBlocked_iff false page row.id).mp hMem
  have := hAcross other hOther row hRow
  omega

/-- Canceling a page and then the rest is canceling both at once. -/
theorem cancelRows_page (canceledById : Nat) :
    (store.cancelRows (store.idsBlocked false page) canceledById).cancelRows
        ((store.cancelRows (store.idsBlocked false page) canceledById).idsBlocked false rest)
        canceledById =
      store.cancelRows (store.idsBlocked false (page ++ rest)) canceledById := by
  rw [Store.idsBlocked_congr false fun row hRow => isBlocked_page hRows canceledById hRow,
    Store.cancelRows_cancelRows, ← Store.idsBlocked_append]

/-- The rest is summed up as the store was before the page was canceled. -/
theorem afterPages_page (summary : CancellationSummary) (canceledById : Nat) {limit : Nat}
    (hLimit : 0 < limit) (hFull : page.length = limit) :
    (summary.afterPages store page limit).afterPages
        (store.cancelRows (store.idsBlocked false page) canceledById) rest limit =
      summary.afterPages store (page ++ rest) limit := by
  rw [CancellationSummary.afterPages_congr _ _ fun row hRow =>
    isBlocked_page hRows canceledById hRow]
  exact summary.afterPages_append store hLimit hFull rest

end Pages

namespace PassContext

variable (context : PassContext) {clock : Timestamp} {strategy : Strategy}
  {pipeline : Pipeline} {windowStart : Timestamp} {headSha : Option String}

/-- What lies past a place, cut where the next batch ends. -/
theorem readPage_returns (clock : Timestamp) {store : Store} {after : Option Nat}
    {query : Query} {rows : List Pipeline} (hLimit : query.limit = none)
    (hRows : store.rowsAfter query after = rows) :
    Program.Returns clock (Program.pipelines (context.batchQuery query after)) store
      (.ok (rows.take context.batchLimit)) store := by
  have hRead := Program.returns_callStore clock .engine
    (.pipelines (context.batchQuery query after)) store
  simp only [StoreCall.perform, context.evaluate_batchQuery hLimit, hRows] at hRead
  exact hRead

/-- A batch of what lies past a place. -/
theorem cancelPage_returns (clock : Timestamp) {store : Store} {after : Option Nat}
    {page rest : List Pipeline}
    (hRows : store.rowsAfter
      (candidateQuery strategy pipeline windowStart (headSha? store pipeline)) after =
        page ++ rest)
    (hPage : page ≠ []) (hSize : page.length ≤ context.batchLimit)
    (summary : CancellationSummary) :
    Program.Returns clock
      (context.cancelBatch (page.map (·.id)) (summary.recordBatch page.length)) store
      (.ok (), summary.afterPages store page context.batchLimit)
      (store.cancelRows (store.idsBlocked false page) context.initiator.id) := by
  rw [summary.afterPages_of_length_le store (List.length_pos_iff.mpr hPage) hSize]
  exact context.cancelBatch_returns clock hPage (pairwise_page hRows)
    (fun row hRow => stored_of_mem_page hRows hRow) (summary.recordBatch page.length)

/-- The batches of a pass from a place on, when enough of them are allowed: every row
that is left is visited once, and the rows are judged as they are at this place. -/
theorem runBatches_returns {count : Nat} {store : Store} {after : Option Nat}
    {rows : List Pipeline} (hHead : headSha = headSha? store pipeline)
    (hRows : store.rowsAfter (candidateQuery strategy pipeline windowStart headSha) after = rows)
    (hCount : rows.length < count) (summary : CancellationSummary) :
    Program.Returns clock
      (context.runBatches (candidateQuery strategy pipeline windowStart headSha) count after
        summary)
      store (.ok (), summary.afterPages store rows context.batchLimit)
      (store.cancelRows (store.idsBlocked false rows) context.initiator.id) := by
  induction count generalizing store after rows summary with
  | zero => exact absurd hCount (Nat.not_lt_zero _)
  | succ count ih =>
      have hLimit := limit_candidateQuery strategy pipeline windowStart headSha
      have hRead := context.readPage_returns clock hLimit hRows
      -- The page is a prefix of the rows that are left; the rest follows it.
      obtain ⟨page, hPage⟩ : ∃ page, page = rows.take context.batchLimit := ⟨_, rfl⟩
      obtain ⟨rest, hRest⟩ : ∃ rest, rest = rows.drop context.batchLimit := ⟨_, rfl⟩
      have hSplit : rows = page ++ rest := by
        rw [hPage, hRest, List.take_append_drop]
      have hSize : page.length ≤ context.batchLimit := by
        rw [hPage]
        exact List.length_take_le _ _
      have hPos := context.batchLimit_pos
      rw [← hPage] at hRead
      rw [runBatches]
      refine hRead.bind ?_
      cases hLast : page.getLast? with
      | none =>
          have hNone : page = [] := List.getLast?_eq_none_iff.mp hLast
          have hEmpty : rows = [] := by
            rcases List.take_eq_nil_iff.mp (hPage.symm.trans hNone) with h | h
            · omega
            · exact h
          rw [hNone, hEmpty, CancellationSummary.afterPages_nil, Store.idsBlocked_nil,
            Store.cancelRows_nil]
          exact Program.returns_pure _ _
      | some last =>
          have hIds : (page.map (·.id)).getLast? = some last.id := by
            rw [List.getLast?_map, hLast]
            rfl
          have hNonempty : page ≠ [] := by
            rintro rfl
            cases hLast
          rw [hSplit, hHead] at hRows
          have hBatch := context.cancelPage_returns clock hRows hNonempty hSize summary
          simp only [hIds, List.length_map]
          refine (Program.returns_debug _ _).bind (hBatch.bind ?_)
          by_cases hShort : page.length < context.batchLimit
          · have hDone : rest = [] := by
              rw [hRest]
              refine List.drop_eq_nil_of_le ?_
              rw [hPage, List.length_take] at hShort
              omega
            rw [if_pos hShort, hSplit, hDone, List.append_nil]
            exact Program.returns_pure _ _
          · have hFull : page.length = context.batchLimit := by omega
            have hFewer : rest.length < count := by
              rw [hSplit, List.length_append] at hCount
              omega
            have hLater := rowsAfter_page hRows context.initiator.id hLast
            rw [← hHead] at hLater
            -- A cancellation leaves the tips of refs alone.
            have hTip : headSha = headSha? (store.cancelRows (store.idsBlocked false page)
                context.initiator.id) pipeline := hHead
            have hNext := ih hTip hLater hFewer
              (summary.afterPages store page context.batchLimit)
            rw [cancelRows_page hRows, afterPages_page hRows _ _ hPos hFull, ← hSplit] at hNext
            rw [if_neg hShort]
            exact hNext

end PassContext

end PipelineUpkeep
