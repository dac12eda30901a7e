import Mathlib.Data.List.Induction
import Mathlib.Data.List.Pairwise
import PipelineUpkeep.Proofs.ConcurrentRuns
/-!
# Every cancellation has one run

Several runs may read the same pipeline before one of them cancels it.  A canceled
pipeline is never written again, so one moment at most moves it to canceled.  The run of
this moment reports the pipeline, hands over its only audit record, and is the one to
which the pipeline and its canceled builds are attributed.
-/

namespace PipelineUpkeep

/-- The moment moves the pipeline to canceled. -/
def Moment.Cancels {ι : Type} (moment : Moment ι) (id : Nat) : Prop :=
  ∃ row ∈ moment.before.pipelines.rows, row.id = id ∧ row.status ≠ .canceled ∧
    ∃ later ∈ moment.after.pipelines.rows, later.id = id ∧ later.status = .canceled

theorem Moment.cancels_iff {ι : Type} (moment : Moment ι) (id : Nat) :
    moment.Cancels id ↔ moment.before.Cancels moment.after id := Iff.rfl

theorem Moment.not_cancels_of_eq {ι : Type} (moment : Moment ι)
    (hSame : moment.after = moment.before) (id : Nat) : ¬ moment.Cancels id :=
  Store.not_cancels_of_kept (fun _ hRow => hSame.symm ▸ hRow) id

/-- It takes a call that cancels. -/
theorem Moment.Cancels.exists_cancelRunning {ι : Type} {moment : Moment ι} {id : Nat}
    (h : moment.Cancels id)
    (hOccurs : moment.exchange.asked.Occurs moment.before moment.exchange.answer moment.after) :
    ∃ access row request, moment.exchange.asked = .store access (.cancelRunning row request) := by
  by_contra hNone
  refine Store.not_cancels_of_kept (fun row hRow => ?_) id h
  refine hOccurs.mem_pipelines (fun access other request hAsked => ?_) hRow
  exact hNone ⟨access, other, request, hAsked⟩

theorem Moment.cancels_iff_of_cancelRows {ι : Type} (moment : Moment ι) {current : Pipeline}
    {canceledById : Nat} (hCurrent : current ∈ moment.before.pipelines.rows)
    (hStatus : current.status.isCancelable = true)
    (hAfter : moment.after = moment.before.cancelRows [current.id] canceledById) (id : Nat) :
    moment.Cancels id ↔ id = current.id := by
  rw [moment.cancels_iff, hAfter, Store.cancels_cancelRows_iff, List.mem_singleton]
  exact ⟨fun h => h.1, fun hId => ⟨hId, current, hCurrent, hId.symm, hStatus⟩⟩

/-- The audit records that were handed over, each with its client. -/
def handedRecords {ι : Type} (history : List (Moment ι)) : List (ι × AuditRecord) :=
  history.filterMap fun moment =>
    moment.exchange.auditRecord?.map fun entry => (moment.client, entry)

theorem mem_handedRecords_iff {ι : Type} {history : List (Moment ι)} {client : ι}
    {entry : AuditRecord} :
    (client, entry) ∈ handedRecords history ↔
      ∃ moment ∈ history, moment.client = client ∧ moment.exchange.auditRecord? = some entry := by
  simp only [handedRecords, List.mem_filterMap, Option.map_eq_some_iff, Prod.mk.injEq]
  constructor
  · rintro ⟨moment, hMoment, found, hFound, hClient, rfl⟩
    exact ⟨moment, hMoment, hClient, hFound⟩
  · rintro ⟨moment, hMoment, hClient, hFound⟩
    exact ⟨moment, hMoment, entry, hFound, hClient, rfl⟩

section OwnExchanges

variable {κ : Type} [DecidableEq κ] {history : List (Moment κ)} {client : κ}

theorem mem_ownExchanges_iff {exchange : Exchange} :
    exchange ∈ ownExchanges client history ↔
      ∃ moment ∈ history, moment.client = client ∧ moment.exchange = exchange := by
  simp only [ownExchanges, List.mem_map, List.mem_filter, decide_eq_true_eq, and_assoc]

theorem mem_canceledIds_iff {id : Nat} :
    id ∈ canceledIds (ownExchanges client history) ↔
      ∃ moment ∈ history, moment.client = client ∧ moment.exchange.canceledId? = some id := by
  simp only [canceledIds, List.mem_filterMap, mem_ownExchanges_iff]
  constructor
  · rintro ⟨exchange, ⟨moment, hMoment, hClient, rfl⟩, hId⟩
    exact ⟨moment, hMoment, hClient, hId⟩
  · rintro ⟨moment, hMoment, hClient, hId⟩
    exact ⟨_, ⟨moment, hMoment, hClient, rfl⟩, hId⟩

theorem mem_auditRecords_iff {entry : AuditRecord} :
    entry ∈ auditRecords (ownExchanges client history) ↔
      ∃ moment ∈ history, moment.client = client ∧
        moment.exchange.auditRecord? = some entry := by
  simp only [auditRecords, List.mem_filterMap, mem_ownExchanges_iff]
  constructor
  · rintro ⟨exchange, ⟨moment, hMoment, hClient, rfl⟩, hEntry⟩
    exact ⟨moment, hMoment, hClient, hEntry⟩
  · rintro ⟨moment, hMoment, hClient, hEntry⟩
    exact ⟨_, ⟨moment, hMoment, hClient, rfl⟩, hEntry⟩

end OwnExchanges

/-- What holds of every entry of a list and the entries before it holds of its pairs. -/
theorem pairwise_of_split {β : Type} {relates : β → β → Prop} {entries : List β}
    (h : ∀ earlier entry later, entries = earlier ++ entry :: later →
      ∀ other ∈ earlier, relates other entry) : entries.Pairwise relates := by
  induction entries using List.reverseRecOn with
  | nil => exact .nil
  | append_singleton front last ih =>
      refine List.pairwise_append.mpr ⟨ih ?_, List.pairwise_singleton _ _, ?_⟩
      · intro earlier entry later hSplit
        refine h earlier entry (later ++ [last]) ?_
        rw [hSplit, List.append_assoc, List.cons_append]
      · intro other hOther entry hEntry
        rw [List.mem_singleton.mp hEntry]
        exact h front last [] rfl other hOther

/-- An entry is the only one with its key when no key occurs twice. -/
theorem filter_eq_singleton {β : Type} {key : β → Nat} {entries : List β} {entry : β}
    (hDistinct : entries.Pairwise fun first second => key first ≠ key second)
    (hEntry : entry ∈ entries) :
    entries.filter (fun other => decide (key other = key entry)) = [entry] := by
  induction entries with
  | nil => cases hEntry
  | cons first rest ih =>
      obtain ⟨hFirst, hRest⟩ := List.pairwise_cons.mp hDistinct
      rcases List.mem_cons.mp hEntry with rfl | hMem
      · have hNone : rest.filter (fun other => decide (key other = key entry)) = [] := by
          refine List.filter_eq_nil_iff.mpr fun other hOther => ?_
          simpa using (hFirst other hOther).symm
        simp [hNone]
      · have hOther : key first ≠ key entry := hFirst entry hMem
        simp [hOther, ih hRest hMem]

section Once

variable {κ : Type} [DecidableEq κ] {runs : κ → CancellationRun} {store : Store}
  {history : List (Moment κ)}
  {final : System fun _ : κ => Except UpkeepError CancellationReport}

/-- A moment of a run moves a pipeline to canceled exactly when its call is answered so. -/
theorem Interleaved.cancels_iff
    (h : Interleaved Store.Calls (CancellationRun.system store runs) history final)
    {moment : Moment κ} (hMoment : moment ∈ history) (id : Nat) :
    moment.Cancels id ↔ moment.exchange.canceledId? = some id := by
  rcases h.run_cases hMoment with ⟨hSame, hNone⟩ | hCancels
  · rw [hNone]
    exact ⟨fun hCancels => absurd hCancels (moment.not_cancels_of_eq hSame id), nofun⟩
  · obtain ⟨current, hCurrent, hStatus, -, hAnswer, hAfter⟩ := hCancels
    rw [hAnswer, Option.some.injEq, moment.cancels_iff_of_cancelRows hCurrent hStatus hAfter,
      eq_comm]

/-- No pipeline is moved to canceled twice. -/
theorem Interleaved.cancels_once
    (h : Interleaved Store.Calls (CancellationRun.system store runs) history final) :
    history.Pairwise fun earlier later => ∀ id, earlier.Cancels id → ¬ later.Cancels id := by
  refine (h.pairwise_relates Store.Evolves.refl Store.Evolves.trans (fun hCall => hCall.evolves)
    h.evolves_moments).imp ?_
  rintro earlier later hEvolves id ⟨-, -, -, -, row, hRow, hId, hStatus⟩ hAgain
  obtain ⟨other, hOther, hOtherId, hAlive, -⟩ := hAgain
  obtain ⟨kept, hKept, hBecomes⟩ := hEvolves.pipelines row hRow
  -- A row that is canceled once stays as it is, so it cannot be moved there again.
  have hFinished : row.status.isCancelable = false := by
    rw [hStatus]
    rfl
  have hSame : kept = row := hBecomes.eq_of_not_isCancelable hFinished
  rw [later.before.pipelines.eq_of_key_eq hOther hKept
    (hOtherId.trans (hId.symm.trans (congrArg (·.id) hSame.symm))), hSame] at hAlive
  exact hAlive hStatus

theorem Interleaved.eq_of_cancels
    (h : Interleaved Store.Calls (CancellationRun.system store runs) history final)
    {first second : Moment κ} (hFirst : first ∈ history) (hSecond : second ∈ history) {id : Nat}
    (hCancels : first.Cancels id) (hAlso : second.Cancels id) : first = second := by
  by_contra hDistinct
  have hSymm : Std.Symm fun one other : Moment κ =>
      one.Cancels id → ¬ other.Cancels id := ⟨fun _ _ hOne hOther hThis => hOne hThis hOther⟩
  have hPairs : history.Pairwise fun one other : Moment κ =>
      one.Cancels id → ¬ other.Cancels id := h.cancels_once.imp fun hOnce => hOnce id
  exact hPairs.forall hFirst hSecond hDistinct hCancels hAlso

/-- What was canceled by one client, as its own exchanges list it. -/
theorem Interleaved.mem_canceledIds_iff_cancels
    (h : Interleaved Store.Calls (CancellationRun.system store runs) history final)
    (client : κ) (id : Nat) :
    id ∈ canceledIds (ownExchanges client history) ↔
      ∃ moment ∈ history, moment.client = client ∧ moment.Cancels id := by
  rw [mem_canceledIds_iff]
  constructor
  · rintro ⟨moment, hMoment, hClient, hAnswer⟩
    exact ⟨moment, hMoment, hClient, (h.cancels_iff hMoment id).mpr hAnswer⟩
  · rintro ⟨moment, hMoment, hClient, hCancels⟩
    exact ⟨moment, hMoment, hClient, (h.cancels_iff hMoment id).mp hCancels⟩

/-- A record is handed over on behalf of the initiator, for the one pipeline that the run
has canceled and not yet recorded. -/
theorem Interleaved.record_cases
    (h : Interleaved Store.Calls (CancellationRun.system store runs) history final)
    {earlier later : List (Moment κ)} {moment : Moment κ} {entry : AuditRecord}
    (hSplit : history = earlier ++ moment :: later)
    (hEntry : moment.exchange.auditRecord? = some entry) :
    entry.canceledById = (runs moment.client).initiator.id ∧
      entry.canceledBySource = (runs moment.client).initiator.source ∧
      canceledIds (ownExchanges moment.client earlier) =
        (auditRecords (ownExchanges moment.client earlier)).map (·.canceledPipelineId) ++
          [entry.canceledPipelineId] := by
  have hPermits := h.run_permits hSplit
  rw [Exchange.asked_eq_of_auditRecord? hEntry] at hPermits
  exact hPermits

/-- Whoever hands over a record has canceled its pipeline before. -/
theorem Interleaved.cancels_of_record
    (h : Interleaved Store.Calls (CancellationRun.system store runs) history final)
    {earlier later : List (Moment κ)} {moment : Moment κ} {entry : AuditRecord}
    (hSplit : history = earlier ++ moment :: later)
    (hEntry : moment.exchange.auditRecord? = some entry) :
    ∃ other ∈ earlier, other.client = moment.client ∧ other.Cancels entry.canceledPipelineId := by
  have hPending := (h.record_cases hSplit hEntry).2.2
  have hMem : entry.canceledPipelineId ∈ canceledIds (ownExchanges moment.client earlier) := by
    rw [hPending]
    exact List.mem_append_right _ (List.mem_singleton_self _)
  obtain ⟨other, hOther, hClient, hAnswer⟩ := mem_canceledIds_iff.mp hMem
  have hHistory : other ∈ history := by
    rw [hSplit]
    exact List.mem_append_left _ hOther
  exact ⟨other, hOther, hClient, (h.cancels_iff hHistory _).mpr hAnswer⟩

/-- The pipelines that one client cancels are distinct. -/
theorem Interleaved.nodup_canceledIds
    (h : Interleaved Store.Calls (CancellationRun.system store runs) history final)
    {earlier later : List (Moment κ)} (hSplit : history = earlier ++ later) (client : κ) :
    (canceledIds (ownExchanges client earlier)).Nodup := by
  have hMembers : ∀ moment ∈ earlier, moment ∈ history := fun moment hMoment => by
    rw [hSplit]
    exact List.mem_append_left _ hMoment
  have hOnce : earlier.Pairwise fun first second =>
      ∀ id, first.Cancels id → ¬ second.Cancels id := by
    have hAll := h.cancels_once
    rw [hSplit] at hAll
    exact (List.pairwise_append.mp hAll).1
  have hOwn := hOnce.filter fun moment => decide (moment.client = client)
  refine List.pairwise_filterMap.mpr (List.pairwise_map.mpr ?_)
  refine hOwn.imp_of_mem ?_
  intro first second hFirst hSecond hNever id hId other hOther hSame
  have hFirstMem := hMembers first (List.mem_filter.mp hFirst).1
  have hSecondMem := hMembers second (List.mem_filter.mp hSecond).1
  subst hSame
  exact hNever id ((h.cancels_iff hFirstMem id).mpr hId) ((h.cancels_iff hSecondMem id).mpr hOther)

/-- No two records are about the same pipeline. -/
theorem Interleaved.pairwise_handedRecords
    (h : Interleaved Store.Calls (CancellationRun.system store runs) history final) :
    (handedRecords history).Pairwise fun first second =>
      first.2.canceledPipelineId ≠ second.2.canceledPipelineId := by
  refine List.pairwise_filterMap.mpr (pairwise_of_split ?_)
  rintro earlier moment later hSplit other hOther handed hHanded next hNext hSame
  obtain ⟨entry, hEntry, rfl⟩ := Option.map_eq_some_iff.mp hHanded
  obtain ⟨last, hLast, rfl⟩ := Option.map_eq_some_iff.mp hNext
  obtain ⟨front, back, hFront⟩ := List.append_of_mem hOther
  have hOtherSplit : history = front ++ other :: (back ++ moment :: later) := by
    rw [hSplit, hFront]
    simp
  -- Both records follow a cancellation of the pipeline, and there is only one.
  obtain ⟨cause, hCause, hCauseClient, hCauseCancels⟩ := h.cancels_of_record hOtherSplit hEntry
  obtain ⟨again, hAgain, hAgainClient, hAgainCancels⟩ := h.cancels_of_record hSplit hLast
  have hCauseMem : cause ∈ history := by
    rw [hOtherSplit]
    exact List.mem_append_left _ hCause
  have hAgainMem : again ∈ history := by
    rw [hSplit]
    exact List.mem_append_left _ hAgain
  simp only at hSame
  rw [← hSame] at hAgainCancels
  have hEqual := h.eq_of_cancels hCauseMem hAgainMem hCauseCancels hAgainCancels
  have hClients : other.client = moment.client := by
    rw [← hCauseClient, hEqual, hAgainClient]
  -- So both belong to one run, which had recorded the pipeline before.
  have hRecorded : entry ∈ auditRecords (ownExchanges moment.client earlier) :=
    mem_auditRecords_iff.mpr ⟨other, hOther, hClients, hEntry⟩
  have hDistinct := h.nodup_canceledIds hSplit moment.client
  rw [(h.record_cases hSplit hLast).2.2] at hDistinct
  have hDisjoint := (List.nodup_append.mp hDistinct).2.2
  exact hDisjoint _ (List.mem_map_of_mem hRecorded) _ (List.mem_singleton_self _) hSame

/-- What a run has canceled keeps the attribution that the run has given it, and so do
the builds that were canceled with it. -/
theorem Interleaved.attributed
    (h : Interleaved Store.Calls (CancellationRun.system store runs) history final)
    {moment : Moment κ} (hMoment : moment ∈ history) {id : Nat} (hCancels : moment.Cancels id) :
    (∃ row ∈ moment.before.pipelines.rows, row.id = id ∧
      row.afterCancel (runs moment.client).initiator.id ∈ final.store.pipelines.rows) ∧
    ∀ build ∈ moment.before.builds.rows, build.pipelineId = id →
      build.status.isCancelable = true →
        build.afterCancel (runs moment.client).initiator.id ∈ final.store.builds.rows := by
  have hEvolves : moment.after.Evolves final.store :=
    (h.relates_moment Store.Evolves.refl Store.Evolves.trans (fun hCall => hCall.evolves)
      h.evolves_moments hMoment).2
  have hAnswer := (h.cancels_iff hMoment id).mp hCancels
  rcases h.run_cases hMoment with ⟨-, hNone⟩ | hCases
  · rw [hNone] at hAnswer
    cases hAnswer
  · obtain ⟨current, hCurrent, hStatus, -, hCanceled, hAfter⟩ := hCases
    obtain rfl : current.id = id := Option.some.inj (hCanceled.symm.trans hAnswer)
    have hOwnId : current.id ∈ [current.id] := List.mem_singleton_self _
    constructor
    · refine ⟨current, hCurrent, rfl, ?_⟩
      have hWritten : current.afterCancel (runs moment.client).initiator.id ∈
          moment.after.pipelines.rows := by
        rw [hAfter]
        exact Store.afterCancel_mem_cancelRows hCurrent hOwnId hStatus
      obtain ⟨last, hLast, hBecomes⟩ := hEvolves.pipelines _ hWritten
      rw [hBecomes.eq_of_not_isCancelable rfl] at hLast
      exact hLast
    · intro build hBuild hOwn hRunning
      have hWritten : build.afterCancel (runs moment.client).initiator.id ∈
          moment.after.builds.rows := by
        rw [hAfter]
        exact Store.afterCancel_build_mem_cancelRows hCurrent hOwnId hStatus hBuild hOwn hRunning
      obtain ⟨last, hLast, hBecomes⟩ := hEvolves.builds _ hWritten
      rw [hBecomes.eq_of_not_isCancelable rfl] at hLast
      exact hLast

end Once

/-- Runs over one store share no cancellation, and account for each. -/
structure ExactlyOnce {κ : Type} (runs : κ → CancellationRun) (history : List (Moment κ))
    (final : System fun _ : κ => Except UpkeepError CancellationReport) : Prop where
  /-- No two moments move the same pipeline to canceled. -/
  once : history.Pairwise fun earlier later => ∀ id, earlier.Cancels id → ¬ later.Cancels id
  /-- Two reports never list the same pipeline. -/
  disjoint : ∀ {first second report other}, final.rest first = .done (.ok report) →
    final.rest second = .done (.ok other) → first ≠ second →
      ∀ id ∈ report.summary.canceled.toList, id ∉ other.summary.canceled.toList
  /-- A report lists the pipelines that its own run has moved to canceled. -/
  reported : ∀ {client report}, final.rest client = .done (.ok report) →
    ∀ id, id ∈ report.summary.canceled.toList ↔
      ∃ moment ∈ history, moment.client = client ∧ moment.Cancels id
  /-- A run without a report has canceled nothing. -/
  unreported : ∀ {client}, (∃ error, final.rest client = .done (.error error)) ∨
      (∃ fault, final.rest client = .crash fault) →
    ∀ moment ∈ history, moment.client = client → ∀ id, ¬ moment.Cancels id
  /-- Over all runs, one record is handed over for a reported pipeline. -/
  recorded : ∀ {client report}, final.rest client = .done (.ok report) →
    ∀ id ∈ report.summary.canceled.toList, ∃ entry,
      (handedRecords history).filter (fun handed => decide (handed.2.canceledPipelineId = id)) =
        [(client, entry)] ∧
      entry.canceledById = (runs client).initiator.id ∧
      entry.canceledBySource = (runs client).initiator.source
  /-- Whoever moves a pipeline to canceled is what it and its canceled builds are
  attributed to in the end, unless they were attributed before. -/
  attributed : ∀ moment ∈ history, ∀ id, moment.Cancels id →
    (∃ row ∈ moment.before.pipelines.rows, row.id = id ∧
      ∃ later ∈ final.store.pipelines.rows, later.id = id ∧ later.status = .canceled ∧
        later.autoCanceledById =
          some (row.autoCanceledById.getD (runs moment.client).initiator.id)) ∧
    ∀ build ∈ moment.before.builds.rows, build.pipelineId = id →
      build.status.isCancelable = true →
        ∃ later ∈ final.store.builds.rows, later.id = build.id ∧ later.status = .canceled ∧
          later.autoCanceledById =
            some (build.autoCanceledById.getD (runs moment.client).initiator.id)

theorem orElse_some_eq_getD (first : Option Nat) (second : Nat) :
    (first <|> some second) = some (first.getD second) := by
  cases first <;> rfl

section Reports

variable {κ : Type} [DecidableEq κ] {runs : κ → CancellationRun} {store : Store}
  {history : List (Moment κ)}
  {final : System fun _ : κ => Except UpkeepError CancellationReport} {client : κ}
  {report : CancellationReport}

theorem Interleaved.accounted
    (h : Interleaved Store.Calls (CancellationRun.system store runs) history final)
    (hDone : final.rest client = .done (.ok report)) :
    Accounted (ownExchanges client history) report.summary := by
  have hConcludes := h.run_concludes client
  rw [hDone] at hConcludes
  exact hConcludes final.store (Store.Evolves.refl _)

/-- A report lists what its own run has moved to canceled. -/
theorem Interleaved.mem_canceled_iff
    (h : Interleaved Store.Calls (CancellationRun.system store runs) history final)
    (hDone : final.rest client = .done (.ok report)) (id : Nat) :
    id ∈ report.summary.canceled.toList ↔
      ∃ moment ∈ history, moment.client = client ∧ moment.Cancels id := by
  rw [(h.accounted hDone).mem_canceled_iff id]
  exact h.mem_canceledIds_iff_cancels client id

/-- No error of the store stops a run halfway, so one without a report has not begun to
cancel. -/
theorem Interleaved.canceledIds_eq_nil
    (h : Interleaved Store.Calls (CancellationRun.system store runs) history final)
    (hEnded : (∃ error, final.rest client = .done (.error error)) ∨
      ∃ fault, final.rest client = .crash fault) :
    canceledIds (ownExchanges client history) = [] := by
  have hConcludes := h.run_concludes client
  rcases hEnded with ⟨error, hDone⟩ | ⟨fault, hCrash⟩
  · rw [hDone] at hConcludes
    rcases hConcludes final.store (Store.Evolves.refl _) with hNone | ⟨_, hNever, -⟩
    · exact hNone
    · exact hNever.elim
  · rw [hCrash] at hConcludes
    exact hConcludes

/-- The record of a reported pipeline is the only one, and names the initiator. -/
theorem Interleaved.recorded_once
    (h : Interleaved Store.Calls (CancellationRun.system store runs) history final)
    (hDone : final.rest client = .done (.ok report)) {id : Nat}
    (hId : id ∈ report.summary.canceled.toList) :
    ∃ entry,
      (handedRecords history).filter (fun handed => decide (handed.2.canceledPipelineId = id)) =
        [(client, entry)] ∧
      entry.canceledById = (runs client).initiator.id ∧
      entry.canceledBySource = (runs client).initiator.source := by
  have hAccounted := h.accounted hDone
  -- The records that the run has handed over are those of its canceled pipelines.
  have hMem := (hAccounted.mem_canceled_iff id).mp hId
  rw [← hAccounted.audited] at hMem
  obtain ⟨entry, hEntry, rfl⟩ := List.mem_map.mp hMem
  obtain ⟨moment, hMoment, hClient, hRecord⟩ := mem_auditRecords_iff.mp hEntry
  obtain ⟨earlier, later, hSplit⟩ := List.append_of_mem hMoment
  obtain ⟨hBy, hSource, -⟩ := h.record_cases hSplit hRecord
  rw [hClient] at hBy hSource
  have hHanded : (client, entry) ∈ handedRecords history :=
    mem_handedRecords_iff.mpr ⟨moment, hMoment, hClient, hRecord⟩
  exact ⟨entry, filter_eq_singleton h.pairwise_handedRecords hHanded, hBy, hSource⟩

end Reports

/-- Whatever the runs, the store and the order of all calls. -/
theorem runs_cancel_exactly_once {κ : Type} [DecidableEq κ] {runs : κ → CancellationRun}
    {store : Store} {history : List (Moment κ)}
    {final : System fun _ : κ => Except UpkeepError CancellationReport}
    (h : Interleaved Store.Calls (CancellationRun.system store runs) history final) :
    ExactlyOnce runs history final := by
  refine ⟨h.cancels_once, ?_, h.mem_canceled_iff, ?_, fun hDone _ => h.recorded_once hDone, ?_⟩
  · intro first second report other hFirst hSecond hDistinct id hId hAlso
    obtain ⟨moment, hMoment, hClient, hCancels⟩ := (h.mem_canceled_iff hFirst id).mp hId
    obtain ⟨again, hAgain, hAgainClient, hAgainCancels⟩ :=
      (h.mem_canceled_iff hSecond id).mp hAlso
    apply hDistinct
    rw [← hClient, ← hAgainClient, h.eq_of_cancels hMoment hAgain hCancels hAgainCancels]
  · intro client hEnded moment hMoment hClient id hCancels
    have hMem := (h.mem_canceledIds_iff_cancels client id).mpr ⟨moment, hMoment, hClient, hCancels⟩
    rw [h.canceledIds_eq_nil hEnded] at hMem
    cases hMem
  · intro moment hMoment id hCancels
    obtain ⟨⟨row, hRow, hId, hLast⟩, hBuilds⟩ := h.attributed hMoment hCancels
    refine ⟨⟨row, hRow, hId, _, hLast, hId, rfl, orElse_some_eq_getD _ _⟩, ?_⟩
    intro build hBuild hOwn hRunning
    exact ⟨_, hBuilds build hBuild hOwn hRunning, rfl, rfl, orElse_some_eq_getD _ _⟩

/-- The runs of the two newest pipelines of a crowded ref, taking turns up to their ends. -/
def crowdedRefRace :
    List (Moment Bool) × System fun _ : Bool => Except UpkeepError CancellationReport :=
  (CancellationRun.system crowdedRef fun newest : Bool =>
    ⟨.fixed ⟨true, false⟩, .standard, pushedPipeline (if newest then 3 else 2)⟩).play
      ⟨604800, 0⟩ (List.replicate 20 [true, false]).flatten

/-- What a client has reported as canceled, if it has. -/
def System.canceledBy {κ : Type}
    (system : System fun _ : κ => Except UpkeepError CancellationReport) (client : κ) :
    Option (List Nat) :=
  match system.rest client with
  | .done (.ok report) => some report.summary.canceled.toList
  | _ => none

theorem runs_cancel_exactly_once_crowdedRef :
    crowdedRefRace.2.canceledBy true = some [1] ∧ crowdedRefRace.2.canceledBy false = some [3] ∧
      ExactlyOnce (fun newest : Bool =>
        ⟨.fixed ⟨true, false⟩, .standard, pushedPipeline (if newest then 3 else 2)⟩)
        crowdedRefRace.1 crowdedRefRace.2 :=
  ⟨by decide +kernel, by decide +kernel,
    runs_cancel_exactly_once (interleaved_play Store.Calls _ _ _)⟩

end PipelineUpkeep
