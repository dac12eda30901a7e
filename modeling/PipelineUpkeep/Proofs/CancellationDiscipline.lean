import PipelineUpkeep.Proofs.CancellationAccounts
import PipelineUpkeep.Proofs.CandidatePages
import PipelineUpkeep.Proofs.RunOutline
/-!
# The discipline of a cancellation run

Among others a run writes only by canceling single rows that it may cancel, on behalf of
its initiator, and hands over the record of each right after.  What it may cancel is left
open here: a scope says when a row that was read may be canceled, and that the others
cannot take this back.  A run follows the discipline of any scope in which the rows it
finds are admitted, through all of its batches, passes and attempts.
-/

namespace PipelineUpkeep

open Time

/-- What a run may rely on, and what it may cancel. -/
structure RunScope where
  /-- How others may change the store. -/
  others : Store → Store → Prop
  refl : ∀ store, others store store
  trans : ∀ {a b c}, others a b → others b c → others a c
  /-- The row, as it was read, may be canceled now. -/
  admits : Store → Pipeline → Prop
  admits_later : ∀ {before after row}, others before after → admits before row → admits after row
  /-- How the cancellation of an admitted row may fail. -/
  fails : StoreError → Prop
  fails_of_admits : ∀ {store row request error}, admits store row →
    (store.cancelRunning row request).1 = .error error → fails error
  cancels : ∀ store row request, others store (store.cancelRunning row request).2

namespace RunScope

variable (scope : RunScope) (initiator : Pipeline)

/-- What a run may request. -/
def permits (past : List Exchange) (before : Store) : Request → Prop
  | .store _ (.cancelRunning row request) =>
      request = ⟨initiator.id, false⟩ ∧ scope.admits before row ∧ Audited past
  | .store _ call => call.isWrite = false
  | .audit entry =>
      entry.canceledById = initiator.id ∧ entry.canceledBySource = initiator.source ∧
        canceledIds past = (auditRecords past).map (·.canceledPipelineId) ++
          [entry.canceledPipelineId]
  | .creation _ => False
  | _ => True

/-- A run that ends in a fault has canceled nothing. -/
def discipline : Discipline where
  others := scope.others
  refl := scope.refl
  trans := scope.trans
  permits := scope.permits initiator
  mayFault past := canceledIds past = []

/-- Wherever the rows of a query are found again and no build blocks them, they may be
canceled. -/
def Finds (candidates : Query) : Prop :=
  ∀ {first second : Store} {row found : Pipeline}, scope.others first second →
    row ∈ first.evaluate candidates → found ∈ second.pipelines.rows → found.id = row.id →
      second.isBlocked found.id = false → scope.admits second found

end RunScope

/-- Neither the store nor the audit trail sees the request. -/
def Request.IsSilent : Request → Prop
  | .store _ _ | .audit _ | .creation _ => False
  | _ => True

section Requests

variable {scope : RunScope} {initiator : Pipeline} {past : List Exchange} {store : Store}

/-- What changes neither the store nor an account. -/
theorem ask_follows {asked : Request} (h : asked.IsSilent) :
    (Program.ask asked).Follows (scope.discipline initiator)
      (fun later _ held => SameAccount past later ∧ scope.others store held) past store := by
  intro before hBefore
  refine ⟨?_, fun answer after hOccurs => ?_⟩
  · cases asked <;> first | exact h.elim | trivial
  · have hAfter : after = before := by
      cases asked <;> first | exact hOccurs | exact h.elim
    subst hAfter
    refine fun held hHeld => ⟨sameAccount_append ?_ ?_, scope.trans hBefore hHeld⟩
    · cases asked <;> first | rfl | exact h.elim
    · cases asked <;> first | rfl | exact h.elim

theorem writeLog_follows (level : LogLevel) (message : String) :
    (Program.writeLog level message).Follows (scope.discipline initiator)
      (fun later _ held => SameAccount past later ∧ scope.others store held) past store :=
  ask_follows trivial

theorem readClock_follows :
    Program.readClock.Follows (scope.discipline initiator)
      (fun later _ held => SameAccount past later ∧ scope.others store held) past store :=
  ask_follows trivial

theorem sleep_follows (span : Span) :
    (Program.sleep span).Follows (scope.discipline initiator)
      (fun later _ held => SameAccount past later ∧ scope.others store held) past store :=
  ask_follows trivial

/-- A call that only reads gives what some store on the way holds. -/
theorem callStore_follows (access : Access) {call : StoreCall} (hRead : call.isWrite = false) :
    (Program.callStore access call).Follows (scope.discipline initiator)
      (fun later result held => SameAccount past later ∧
        ∃ before, scope.others store before ∧ scope.others before held ∧
          result = (call.perform before).1) past store := by
  intro before hBefore
  refine ⟨?_, fun answer after hOccurs => ?_⟩
  · cases call <;> first | exact hRead | cases hRead
  · have hAnswer : (call.perform before).1 = answer := congrArg Prod.fst hOccurs
    have hAfter : after = before :=
      (congrArg Prod.snd hOccurs).symm.trans (StoreCall.perform_snd_of_not_isWrite hRead before)
    subst hAfter
    refine fun held hHeld => ⟨sameAccount_append ?_ rfl, after, hBefore, hHeld, hAnswer.symm⟩
    cases call <;> first | rfl | cases hRead

/-- A row that may be canceled is canceled on behalf of the initiator, or it had
finished, or the call fails in an expected way. -/
theorem cancelRunning_follows {row : Pipeline} (hAdmits : scope.admits store row)
    (hAudited : Audited past) :
    (Program.cancelRunning row ⟨initiator.id, false⟩).Follows (scope.discipline initiator)
      (fun later result held => scope.others store held ∧
        auditRecords later = auditRecords past ∧
        (result = .ok .canceled → canceledIds later = canceledIds past ++ [row.id]) ∧
        (result ≠ .ok .canceled → canceledIds later = canceledIds past) ∧
        ∀ error, result = .error error → scope.fails error) past store := by
  intro before hBefore
  -- Whatever the others did since the row was read, it may still be canceled.
  have hNow : scope.admits before row := scope.admits_later hBefore hAdmits
  refine ⟨⟨rfl, hNow, hAudited⟩, fun answer after hOccurs held hHeld => ?_⟩
  have hAnswer : (before.cancelRunning row ⟨initiator.id, false⟩).1 = answer :=
    congrArg Prod.fst hOccurs
  have hAfter : (before.cancelRunning row ⟨initiator.id, false⟩).2 = after :=
    congrArg Prod.snd hOccurs
  have hOwn := scope.cancels before row ⟨initiator.id, false⟩
  rw [hAfter] at hOwn
  refine ⟨scope.trans hBefore (scope.trans hOwn hHeld), ?_, ?_, ?_, ?_⟩
  · rw [auditRecords_append]
    exact List.append_nil _
  · rintro rfl
    rw [canceledIds_append]
    rfl
  · intro hOther
    rw [canceledIds_append]
    match answer, hOther with
    | .ok .canceled, hOther => exact absurd rfl hOther
    | .ok (.alreadyResolved _), _ => exact List.append_nil _
    | .error _, _ => exact List.append_nil _
  · intro error hError
    exact scope.fails_of_admits hNow (hAnswer.trans hError)

/-- The record of the one canceled pipeline that has none settles the account. -/
theorem emit_follows {entry : AuditRecord} (hBy : entry.canceledById = initiator.id)
    (hSource : entry.canceledBySource = initiator.source)
    (hPending : canceledIds past = (auditRecords past).map (·.canceledPipelineId) ++
      [entry.canceledPipelineId]) :
    (Program.emit entry).Follows (scope.discipline initiator)
      (fun later _ held => scope.others store held ∧ Audited later ∧
        canceledIds later = canceledIds past) past store := by
  intro before hBefore
  refine ⟨⟨hBy, hSource, hPending⟩, fun answer after hOccurs => ?_⟩
  obtain rfl : after = before := hOccurs
  have hCanceled : canceledIds (past ++ [⟨.audit entry, answer⟩]) = canceledIds past := by
    rw [canceledIds_append]
    exact List.append_nil _
  have hAudited : Audited (past ++ [⟨.audit entry, answer⟩]) := by
    unfold Audited
    rw [hCanceled, hPending, auditRecords_append, List.map_append]
    rfl
  cases answer with
  | none => exact fun held hHeld => ⟨scope.trans hBefore hHeld, hAudited, hCanceled⟩
  | some reason =>
      refine (writeLog_follows _ _).imp fun later _ held ⟨hSame, hHeld⟩ => ?_
      exact ⟨scope.trans hBefore hHeld, hAudited.of_sameAccount hSame,
        hSame.canceledIds_eq.trans hCanceled⟩

end Requests

section Runs

variable {scope : RunScope} {context : PassContext} {past : List Exchange} {store : Store}

/-- What a run keeps up between its steps: its summary is accounted for, and only an
expected failure stops it. -/
def RunScope.Keeps (scope : RunScope) (store : Store) {α : Type} (later : List Exchange)
    (result : Except StoreError α × CancellationSummary) (held : Store) : Prop :=
  scope.others store held ∧ Accounted later result.2 ∧
    ∀ error, result.1 = .error error → scope.fails error

theorem RunScope.Keeps.since {α : Type} {result : Except StoreError α × CancellationSummary}
    {later : List Exchange} {held last : Store} (h : scope.Keeps held later result last)
    (hHeld : scope.others store held) : scope.Keeps store later result last :=
  ⟨scope.trans hHeld h.1, h.2⟩

theorem cancelOne_follows {row : Pipeline} (hAdmits : scope.admits store row)
    (hAudited : Audited past) :
    (context.cancelOne row).Follows (scope.discipline context.initiator)
      (fun later result held => scope.others store held ∧ Audited later ∧
        (result = .ok .canceled → canceledIds later = canceledIds past ++ [row.id]) ∧
        (result ≠ .ok .canceled → canceledIds later = canceledIds past) ∧
        ∀ error, result = .error error → scope.fails error) past store := by
  unfold PassContext.cancelOne
  refine (cancelRunning_follows hAdmits hAudited).andThen ?_
  rintro called result held ⟨hHeld, hRecords, hCanceled, hKept, hFails⟩
  match result with
  | .error error =>
      have hSame : SameAccount past called := ⟨hKept nofun, hRecords⟩
      refine Program.fulfills_pure fun last hLast => ⟨scope.trans hHeld hLast,
        hAudited.of_sameAccount hSame, nofun, fun _ => hSame.canceledIds_eq, ?_⟩
      rintro _ ⟨⟩
      exact hFails error rfl
  | .ok (.alreadyResolved status) =>
      have hSame : SameAccount past called := ⟨hKept nofun, hRecords⟩
      refine (writeLog_follows _ _).andThen ?_
      rintro logged _ after ⟨hLogged, hAfter⟩
      have hAll := hSame.trans hLogged
      exact Program.fulfills_pure fun last hLast =>
        ⟨scope.trans hHeld (scope.trans hAfter hLast), hAudited.of_sameAccount hAll, nofun,
          fun _ => hAll.canceledIds_eq, nofun⟩
  | .ok .canceled =>
      refine (writeLog_follows _ _).andThen ?_
      rintro logged _ after ⟨hLogged, hAfter⟩
      refine readClock_follows.andThen ?_
      rintro timed now timeHeld ⟨hTimed, hTimeHeld⟩
      have hSame := hLogged.trans hTimed
      have hIds : canceledIds timed = canceledIds past ++ [row.id] :=
        hSame.canceledIds_eq.trans (hCanceled rfl)
      -- The books were even, so the row just canceled is the one that lacks a record.
      have hPending : canceledIds timed =
          (auditRecords timed).map (·.canceledPipelineId) ++ [row.id] := by
        rw [hIds, hSame.auditRecords_eq, hRecords, hAudited]
      refine (emit_follows rfl rfl hPending).andThen ?_
      rintro emitted _ emitHeld ⟨hEmitHeld, hEmitted, hSameIds⟩
      have hOthers := scope.trans hHeld (scope.trans hAfter (scope.trans hTimeHeld hEmitHeld))
      exact Program.fulfills_pure fun last hLast => ⟨scope.trans hOthers hLast, hEmitted,
        fun _ => hSameIds.trans hIds, fun h => absurd rfl h, nofun⟩

/-- Rows that may be canceled keep their admission while others among them are canceled. -/
theorem cancelEach_follows {rows : List Pipeline} {summary : CancellationSummary}
    (hRows : ∀ row ∈ rows, scope.admits store row) (hAccounted : Accounted past summary) :
    (context.cancelEach rows summary).Follows (scope.discipline context.initiator)
      (scope.Keeps store) past store := by
  induction rows generalizing past store summary with
  | nil => exact Program.fulfills_pure fun last hLast => ⟨hLast, hAccounted, nofun⟩
  | cons row rest ih =>
      refine (cancelOne_follows (hRows row List.mem_cons_self) hAccounted.audited).andThen ?_
      rintro later result held ⟨hHeld, hAudited, hCanceled, hKept, hFails⟩
      have hRest : ∀ other ∈ rest, scope.admits held other := fun other hOther =>
        scope.admits_later hHeld (hRows other (List.mem_cons_of_mem _ hOther))
      have hSame (h : result ≠ .ok .canceled) : Accounted later summary :=
        ⟨hAudited, fun id => by rw [hKept h]; exact hAccounted.mem_canceled_iff id⟩
      match result with
      | .error error =>
          refine Program.fulfills_pure fun last hLast =>
            ⟨scope.trans hHeld hLast, hSame nofun, ?_⟩
          rintro _ ⟨⟩
          exact hFails error rfl
      | .ok .canceled =>
          have hNext := hAccounted.addCanceled hAudited (hCanceled rfl)
          exact (ih hRest hNext).imp fun _ _ _ hKeeps => hKeeps.since hHeld
      | .ok (.alreadyResolved _) =>
          have hNext : Accounted later (summary.addAlreadyResolved row.id) :=
            (hSame nofun).of_canceled_eq rfl
          exact (ih hRest hNext).imp fun _ _ _ hKeeps => hKeeps.since hHeld

/-- Of rows read before, those that are found again without a blocking build are
canceled. -/
theorem cancelBatch_follows {candidates : Query} (hFinds : scope.Finds candidates)
    {first : Store} {rows : List Pipeline} (hFirst : scope.others first store)
    (hRows : ∀ row ∈ rows, row ∈ first.evaluate candidates) {summary : CancellationSummary}
    (hAccounted : Accounted past summary) :
    (context.cancelBatch (rows.map (·.id)) summary).Follows (scope.discipline context.initiator)
      (scope.Keeps store) past store := by
  have hFilter : (filterInterruptible (rows.map (·.id))).Follows
      (scope.discipline context.initiator)
      (fun later result held => SameAccount past later ∧ scope.others store held ∧
        ∃ eligible, result = .ok eligible ∧ ∀ row ∈ eligible, scope.admits held row)
      past store := by
    unfold filterInterruptible
    split
    · exact Program.fulfills_pure fun last hLast =>
        ⟨.refl past, hLast, [], rfl, fun _ hRow => absurd hRow List.not_mem_nil⟩
    · refine (callStore_follows .engine rfl).imp ?_
      rintro later result held ⟨hSame, second, hSecond, hHeld, rfl⟩
      refine ⟨hSame, scope.trans hSecond hHeld, _, rfl, fun found hFound => ?_⟩
      -- What the second query finds bears the identifier of a row that the first one found.
      obtain ⟨hStored, hId, hFree⟩ := second.mem_evaluate_interruptibleQuery_iff.mp hFound
      obtain ⟨row, hRow, hSameId⟩ := List.mem_map.mp hId
      have hSince := scope.trans hFirst hSecond
      exact scope.admits_later hHeld
        (hFinds hSince (hRows row hRow) hStored hSameId.symm hFree)
  unfold PassContext.cancelBatch
  refine hFilter.andThen ?_
  rintro later _ held ⟨hSame, hHeld, eligible, rfl, hEligible⟩
  refine (cancelEach_follows hEligible ?_).imp fun _ _ _ hKeeps => hKeeps.since hHeld
  exact (hAccounted.of_sameAccount hSame).of_canceled_eq rfl

theorem runBatches_follows {candidates : Query} (hLimit : candidates.limit = none)
    (hFinds : scope.Finds candidates) {count : Nat} {after : Option Nat}
    {summary : CancellationSummary} (hAccounted : Accounted past summary) :
    (context.runBatches candidates count after summary).Follows
      (scope.discipline context.initiator) (scope.Keeps store) past store := by
  induction count generalizing past store after summary with
  | zero => exact Program.fulfills_pure fun last hLast => ⟨hLast, hAccounted, nofun⟩
  | succ count ih =>
      refine (callStore_follows .engine rfl).andThen ?_
      rintro read result held ⟨hSame, first, hFirst, hHeld, hResult⟩
      obtain rfl : result = .ok (first.evaluate (context.batchQuery candidates after)) := hResult
      have hOthers := scope.trans hFirst hHeld
      have hRows : ∀ row ∈ first.evaluate (context.batchQuery candidates after),
          row ∈ first.evaluate candidates := by
        intro row hRow
        rw [context.evaluate_batchQuery hLimit] at hRow
        exact (List.mem_filter.mp (List.mem_of_mem_take hRow)).1
      have hRead := hAccounted.of_sameAccount hSame
      simp only
      split
      · exact Program.fulfills_pure fun last hLast =>
          ⟨scope.trans hOthers hLast, hRead, nofun⟩
      · refine (writeLog_follows _ _).andThen ?_
        rintro logged _ logHeld ⟨hLogged, hLogHeld⟩
        have hBatch (size : Nat) : Accounted logged (summary.recordBatch size) :=
          (hRead.of_sameAccount hLogged).of_canceled_eq rfl
        refine (cancelBatch_follows hFinds (scope.trans hHeld hLogHeld) hRows
          (hBatch _)).andThen ?_
        rintro later ⟨result, total⟩ last hKeeps
        have hSince := hKeeps.since (scope.trans hOthers hLogHeld)
        match result with
        | .error error =>
            exact Program.fulfills_pure fun final hFinal =>
              ⟨scope.trans hSince.1 hFinal, hSince.2⟩
        | .ok () =>
            simp only
            split
            · exact Program.fulfills_pure fun final hFinal =>
                ⟨scope.trans hSince.1 hFinal, hSince.2⟩
            · exact (ih hSince.2.1).imp fun _ _ _ hRest => hRest.since hSince.1

/-- What a run keeps up until its end; a conflict that persists ends it as well. -/
def RunScope.KeepsRun (scope : RunScope) (store : Store) {α : Type} (later : List Exchange)
    (result : Except UpkeepError α × CancellationSummary) (held : Store) : Prop :=
  scope.others store held ∧ Accounted later result.2 ∧
    ∀ error, result.1 = .error error → ∃ cause, scope.fails cause ∧
      (error = .store cause ∨ ∃ name attempts, error = .lockRetriesExhausted name attempts)

theorem RunScope.KeepsRun.since {α : Type} {result : Except UpkeepError α × CancellationSummary}
    {later : List Exchange} {held last : Store} (h : scope.KeepsRun held later result last)
    (hHeld : scope.others store held) : scope.KeepsRun store later result last :=
  ⟨scope.trans hHeld h.1, h.2⟩

/-- The account of a run goes on from one attempt to the next. -/
theorem retryFrom_follows {α : Type} {initiator : Pipeline} (lock : OptimisticLock)
    {operation : Nat → CancellationSummary →
      Program (Except StoreError α × CancellationSummary)}
    (hOperation : ∀ attempt summary past store, Accounted past summary →
      (operation attempt summary).Follows (scope.discipline initiator) (scope.Keeps store)
        past store)
    {remaining attempt : Nat} {summary : CancellationSummary}
    (hAccounted : Accounted past summary) :
    (lock.retryFrom operation remaining attempt summary).Follows (scope.discipline initiator)
      (scope.KeepsRun store) past store := by
  induction remaining using Nat.strongRecOn generalizing attempt summary past store with
  | ind remaining ih =>
      unfold OptimisticLock.retryFrom
      refine (hOperation attempt summary past store hAccounted).andThen ?_
      rintro later ⟨result, total⟩ held ⟨hHeld, hLater, hFails⟩
      cases result with
      | ok value =>
          simp only
          split
          · refine (writeLog_follows _ _).andThen ?_
            rintro logged _ logHeld ⟨hLogged, hLogHeld⟩
            exact Program.fulfills_pure fun last hLast =>
              ⟨scope.trans hHeld (scope.trans hLogHeld hLast), hLater.of_sameAccount hLogged,
                fun _ hError => by cases hError⟩
          · exact Program.fulfills_pure fun last hLast =>
              ⟨scope.trans hHeld hLast, hLater, fun _ hError => by cases hError⟩
      | error error =>
          have hCause : scope.fails error := hFails error rfl
          simp only
          split
          · cases remaining with
            | zero =>
                refine Program.fulfills_pure fun last hLast =>
                  ⟨scope.trans hHeld hLast, hLater, ?_⟩
                rintro _ ⟨⟩
                exact ⟨error, hCause, Or.inr ⟨_, _, rfl⟩⟩
            | succ remaining =>
                refine (writeLog_follows _ _).andThen ?_
                rintro logged _ logHeld ⟨hLogged, hLogHeld⟩
                refine (sleep_follows _).andThen ?_
                rintro slept _ sleepHeld ⟨hSlept, hSleepHeld⟩
                have hAgain := hLater.of_sameAccount (hLogged.trans hSlept)
                have hSince := scope.trans hHeld (scope.trans hLogHeld hSleepHeld)
                exact (ih remaining (Nat.lt_succ_self _) hAgain).imp
                  fun _ _ _ hKeeps => hKeeps.since hSince
          · refine Program.fulfills_pure fun last hLast => ⟨scope.trans hHeld hLast, hLater, ?_⟩
            rintro _ ⟨⟩
            exact ⟨error, hCause, Or.inl rfl⟩

theorem cancelCandidates_follows (settings : CancellationSettings) (context : PassContext)
    {candidates : Query}
    (hLimit : candidates.limit = none) (hFinds : scope.Finds candidates)
    (hAccounted : Accounted past .empty) :
    (cancelCandidates settings context candidates).Follows (scope.discipline context.initiator)
      (scope.KeepsRun store) past store := by
  unfold cancelCandidates
  split
  · exact Program.fulfills_pure fun last hLast => ⟨hLast, hAccounted, nofun⟩
  · refine (retryFrom_follows settings.lock ?_ hAccounted).andThen ?_
    · intro attempt summary exchanges current hSummary
      exact runBatches_follows hLimit hFinds (hSummary.of_canceled_eq rfl)
    · rintro later ⟨result, total⟩ held ⟨hHeld, hLater, hFails⟩
      refine Program.fulfills_pure fun last hLast => ⟨scope.trans hHeld hLast, hLater, ?_⟩
      cases result with
      | ok value => exact nofun
      | error error =>
          rintro _ ⟨⟩
          exact hFails error rfl

/-- How a run ends: its report is accounted for; without a report it has canceled
nothing, unless the store failed in an expected way. -/
def RunScope.Concludes (scope : RunScope) (later : List Exchange) :
    Except UpkeepError CancellationReport → Prop
  | .ok report => Accounted later report.summary
  | .error error => canceledIds later = [] ∨ ∃ cause, scope.fails cause ∧ error = .store cause

theorem reportRun_follows {initiator pipeline : Pipeline} {strategy : Strategy}
    {run : Except UpkeepError Unit × CancellationSummary} {start : Store}
    (hKeeps : scope.KeepsRun start past run store) :
    (reportRun pipeline strategy run).Follows (scope.discipline initiator)
      (fun later result _ => scope.Concludes later result) past store := by
  obtain ⟨result, summary⟩ := run
  obtain ⟨-, hAccounted, hFails⟩ := hKeeps
  -- The last lines of the program, for either outcome.
  have hFinish (outcome : CancellationOutcome) {later : List Exchange} {held : Store}
      (hSame : SameAccount past later) :
      (do
        let count := summary.canceled.toList.length
        if count > 0 then
          Program.info
            s!"Pipeline {pipeline.id} canceled {count} redundant pipeline(s) on {pipeline.ref}"
        return (.ok ⟨pipeline.id, outcome, some strategy, summary⟩ :
          Except UpkeepError CancellationReport)).Follows (scope.discipline initiator)
        (fun later result _ => scope.Concludes later result) later held := by
    simp only
    split
    · refine (writeLog_follows _ _).andThen ?_
      rintro logged _ _ ⟨hLogged, -⟩
      exact Program.fulfills_pure fun _ _ => hAccounted.of_sameAccount (hSame.trans hLogged)
    · exact Program.fulfills_pure fun _ _ => hAccounted.of_sameAccount hSame
  unfold reportRun
  match result with
  | .ok () => exact hFinish _ (.refl past)
  | .error error =>
      obtain ⟨cause, hCause, hError⟩ := hFails error rfl
      rcases hError with rfl | ⟨name, attempts, rfl⟩
      · exact Program.fulfills_pure fun _ _ => Or.inr ⟨cause, hCause, rfl⟩
      · refine (writeLog_follows _ _).andThen ?_
        rintro warned _ _ ⟨hWarned, -⟩
        exact hFinish _ hWarned

/-- Once its candidates are selected, a run follows the discipline of every scope in which
they may be canceled. -/
theorem runSelected_follows {settings : CancellationSettings} {initiator : Pipeline}
    (project : Project) {strategy : Strategy} {windowStart : Timestamp}
    {headSha : Option String}
    (hFinds : scope.Finds (candidateQuery strategy initiator windowStart headSha))
    (hPast : SameAccount [] past) :
    (runSelected settings initiator project strategy windowStart headSha).Follows
      (scope.discipline initiator) (fun later result _ => scope.Concludes later result)
      past store := by
  have hAccounted : Accounted past .empty :=
    (Accounted.empty rfl (rfl : Audited [])).of_sameAccount hPast
  unfold runSelected
  refine (cancelCandidates_follows settings ⟨initiator, _, settings.batchSize⟩
    (limit_candidateQuery _ _ _ _) hFinds hAccounted).andThen ?_
  rintro ran run runHeld hKeeps
  exact reportRun_follows hKeeps

theorem OnlyLookups.sameAccount {later : List Exchange} (h : OnlyLookups past later) :
    SameAccount past later := by
  obtain ⟨added, rfl, hAdded⟩ := h
  have hNone (exchange : Exchange) (hLookup : exchange.asked.isLookup = true) :
      exchange.canceledId? = none ∧ exchange.auditRecord? = none := by
    obtain ⟨asked, answer⟩ := exchange
    cases asked with
    | store access call =>
        cases call <;> first | exact ⟨rfl, rfl⟩ | (cases access <;> cases hLookup)
    | clock | log => exact ⟨rfl, rfl⟩
    | _ => cases hLookup
  have hCanceled : canceledIds added = [] := List.filterMap_eq_nil_iff.mpr
    fun exchange hExchange => (hNone exchange (hAdded exchange hExchange)).1
  have hRecords : auditRecords added = [] := List.filterMap_eq_nil_iff.mpr
    fun exchange hExchange => (hNone exchange (hAdded exchange hExchange)).2
  constructor
  · rw [canceledIds_append, hCanceled, List.append_nil]
  · rw [auditRecords_append, hRecords, List.append_nil]

theorem RunScope.allowsLookups (scope : RunScope) (initiator : Pipeline) :
    (scope.discipline initiator).contract.AllowsLookups := by
  refine Discipline.allowsLookups fun past before asked hLookup => ?_
  cases asked with
  | store access call => cases access <;> cases call <;> first | rfl | cases hLookup
  | clock | log => trivial
  | _ => cases hLookup

/-- A cancellation run follows the discipline of every scope in which what it finds may
be canceled. -/
theorem cancelRedundant_follows {rules : PolicyRules} {settings : CancellationSettings}
    {initiator : Pipeline}
    (hFinds : ∀ project windowStart headSha, scope.Finds
      (candidateQuery (Strategy.ofPolicy (rules.resolve project)) initiator windowStart headSha)) :
    (cancelRedundant rules settings initiator).Follows (scope.discipline initiator)
      (fun later result _ => scope.Concludes later result) [] store := by
  have hOutline : RunOutline (scope.discipline initiator).contract rules settings initiator
      (fun later result _ => scope.Concludes later result) [] store := {
    lookups := scope.allowsLookups initiator
    skip := fun _ hLooked _ =>
      (Accounted.empty rfl (rfl : Audited [])).of_sameAccount hLooked.sameAccount
    missing := fun hLooked _ _ => Or.inl hLooked.sameAccount.canceledIds_eq
    failed := fun _ _ hLooked _ _ => Or.inl hLooked.sameAccount.canceledIds_eq
    fault := fun hLooked _ _ => hLooked.sameAccount.canceledIds_eq
    selected := fun project windowStart _ _ hLooked _ _ _ =>
      runSelected_follows project (hFinds project windowStart _) hLooked.sameAccount }
  exact hOutline.fulfills

/-- The request writes nothing, or cancels a single pipeline on behalf of another one. -/
def Request.OnlyCancels (canceledById : Nat) : Request → Prop
  | .store _ (.cancelRunning _ request) => request = ⟨canceledById, false⟩
  | .store _ call => call.isWrite = false
  | _ => True

theorem Request.onlyCancels_of_isLookup {canceledById : Nat} {asked : Request}
    (h : asked.isLookup = true) : asked.OnlyCancels canceledById := by
  cases asked with
  | store access call => cases access <;> cases call <;> first | rfl | cases h
  | clock | log => trivial
  | _ => cases h

/-- What such a request does to the store: nothing, or it cancels one stored row. -/
theorem Request.Occurs.cancels_cases {canceledById : Nat} {asked : Request}
    {answer : asked.Answer} {before after : Store} (h : asked.Occurs before answer after)
    (hOnly : asked.OnlyCancels canceledById) :
    (after = before ∧ Exchange.canceledId? ⟨asked, answer⟩ = none) ∨
      ∃ access row, asked = .store access (.cancelRunning row ⟨canceledById, false⟩) ∧
        ∃ current ∈ before.pipelines.rows, row.id = current.id ∧
          current.status.isCancelable = true ∧
          Exchange.canceledId? ⟨asked, answer⟩ = some current.id ∧
          after = before.cancelRows [current.id] canceledById := by
  cases asked with
  | store access call =>
      cases call with
      | cancelRunning row request =>
          obtain rfl : request = ⟨canceledById, false⟩ := hOnly
          rcases before.cancelRunning_cases row canceledById with ⟨hOther, hKeeps⟩ | hCancels
          · left
            have hAnswer : (before.cancelRunning row ⟨canceledById, false⟩).1 = answer :=
              congrArg Prod.fst h
            rw [hAnswer] at hOther
            refine ⟨(congrArg Prod.snd h).symm.trans hKeeps, ?_⟩
            match answer, hOther with
            | .ok .canceled, hOther => exact absurd rfl hOther
            | .ok (.alreadyResolved _), _ => rfl
            | .error _, _ => rfl
          · right
            obtain ⟨current, hCurrent, hId, hStatus, -, hCall⟩ := hCancels
            have hPair : before.cancelRunning row ⟨canceledById, false⟩ = (answer, after) := h
            rw [hCall] at hPair
            obtain ⟨rfl, rfl⟩ := Prod.mk.inj hPair
            exact ⟨access, row, rfl, current, hCurrent, hId.symm, hStatus,
              congrArg some hId.symm, rfl⟩
      | createPipeline | setRefHead | advanceNextRun | recordLastPipeline => cases hOnly
      | _ => exact Or.inl ⟨(congrArg Prod.snd h).symm, rfl⟩
  | _ => exact Or.inl ⟨h, rfl⟩

theorem RunScope.onlyCancels {initiator : Pipeline} {asked : Request} {before : Store}
    (hPermits : scope.permits initiator past before asked) : asked.OnlyCancels initiator.id := by
  cases asked with
  | store access call => cases call <;> first | exact hPermits.1 | exact hPermits
  | _ => trivial

/-- What a permitted request does to the store: nothing, or it cancels one stored row
that may be canceled. -/
theorem RunScope.occurs_cases {initiator : Pipeline} {asked : Request} {answer : asked.Answer}
    {before after : Store} (hPermits : scope.permits initiator past before asked)
    (hOccurs : asked.Occurs before answer after) :
    (after = before ∧ Exchange.canceledId? ⟨asked, answer⟩ = none) ∨
      ∃ current ∈ before.pipelines.rows, ∃ row, scope.admits before row ∧ row.id = current.id ∧
        current.status.isCancelable = true ∧ Audited past ∧
        Exchange.canceledId? ⟨asked, answer⟩ = some current.id ∧
        after = before.cancelRows [current.id] initiator.id := by
  rcases hOccurs.cancels_cases (scope.onlyCancels hPermits) with hSame | hCancels
  · exact Or.inl hSame
  · obtain ⟨access, row, rfl, current, hCurrent, hId, hStatus, hCanceled, hAfter⟩ := hCancels
    obtain ⟨-, hAdmits, hAudited⟩ := hPermits
    exact Or.inr
      ⟨current, hCurrent, row, hAdmits, hId, hStatus, hAudited, hCanceled, hAfter⟩

end Runs

end PipelineUpkeep
