import PipelineUpkeep.Proofs.CancellationDiscipline
import PipelineUpkeep.Proofs.ContractRuns
/-!
# What a run makes of failures

A cancellation run gets any answers.  Its only writes are cancellations of single pipelines
on behalf of its initiator.  It pauses and starts over only after a store call has failed,
and as long as none has, every pass it begins comes to its end: a run that has looked for
candidates completes in its first attempt.  It ends in a fault only before it has looked
for any, by a clock whose window starts out of range.
-/

namespace PipelineUpkeep

open Time

/-! ## Failed calls -/

/-- The error by which a store call was answered. -/
def Exchange.error? : Exchange → Option StoreError
  | ⟨.store _ _, .error error⟩ => some error
  | _ => none

/-- Some store call has failed. -/
def HasFailed (past : List Exchange) : Prop :=
  ∃ exchange ∈ past, exchange.error? ≠ none

/-- Pipelines have been looked for. -/
def HasLooked (past : List Exchange) : Prop :=
  ∃ exchange ∈ past, ∃ access query, exchange.asked = .store access (.pipelines query)

theorem HasFailed.of_prefix {past later : List Exchange} (h : HasFailed past)
    (hPrefix : past <+: later) : HasFailed later := by
  obtain ⟨exchange, hExchange, hError⟩ := h
  exact ⟨exchange, hPrefix.subset hExchange, hError⟩

theorem HasFailed.append {past : List Exchange} (h : HasFailed past) (later : List Exchange) :
    HasFailed (past ++ later) :=
  h.of_prefix (List.prefix_append past later)

theorem hasFailed_of_mem {past : List Exchange} {access : Access} {call : StoreCall}
    {error : StoreError} (h : ⟨.store access call, .error error⟩ ∈ past) : HasFailed past :=
  ⟨_, h, Option.some_ne_none error⟩

theorem hasFailed_append_error (past : List Exchange) (access : Access) (call : StoreCall)
    (error : StoreError) : HasFailed (past ++ [⟨.store access call, .error error⟩]) :=
  hasFailed_of_mem (List.mem_append_right _ (List.mem_singleton_self _))

/-- Lookups are no look for pipelines. -/
theorem OnlyLookups.not_hasLooked {past : List Exchange} (h : OnlyLookups [] past) :
    ¬ HasLooked past := by
  rintro ⟨exchange, hExchange, access, query, hAsked⟩
  obtain ⟨added, rfl, hAdded⟩ := h
  have hLookup := hAdded exchange hExchange
  rw [hAsked] at hLookup
  cases access <;> cases hLookup

/-! ## The terms of a run -/

/-- Clocks show some times, and everything else is answered in any way.  A run cancels on
behalf of one pipeline, pauses after failures only, and ends in a fault only if a window
starts out of range. -/
def runTerms (times : Timestamp → Prop) (lookback : Int) (pipelineId : Nat) : Contract :=
  .ofAnswers (Request.Shows times)
    (fun past asked => asked.OnlyCancels pipelineId ∧ ∀ span, asked = .sleep span → HasFailed past)
    (fun past => ¬ HasLooked past ∧ ∃ now, times now ∧ now.subSeconds? lookback = none)

section Requests

variable {times : Timestamp → Prop} {lookback : Int} {id : Nat} {past : List Exchange}
  {store : Store}

/-- What is no pause may be asked at any time. -/
theorem ask_keepsTerms (asked : Request) (hCancels : asked.OnlyCancels id)
    (hAwake : ∀ span, asked ≠ .sleep span) :
    (Program.ask asked).Fulfills (runTerms times lookback id)
      (fun later answer _ => later = past ++ [⟨asked, answer⟩] ∧ asked.Shows times answer)
      past store :=
  Program.answers_ask asked ⟨hCancels, fun span hSleep => absurd hSleep (hAwake span)⟩

theorem writeLog_keepsTerms (level : LogLevel) (message : String) :
    (Program.writeLog level message).Fulfills (runTerms times lookback id)
      (fun later _ _ => past <+: later) past store := by
  refine (ask_keepsTerms (.log _) trivial nofun).imp ?_
  rintro _ _ _ ⟨rfl, -⟩
  exact List.prefix_append _ _

theorem emit_keepsTerms (entry : AuditRecord) :
    (Program.emit entry).Fulfills (runTerms times lookback id) (fun _ _ _ => True) past store := by
  unfold Program.emit
  refine (ask_keepsTerms (.audit entry) trivial nofun).andThen ?_
  rintro later failure held -
  match failure with
  | none => exact Program.fulfills_pure fun _ _ => trivial
  | some reason => exact (writeLog_keepsTerms _ _).imp fun _ _ _ _ => trivial

/-- A store call that is no cancellation; an error is a failure. -/
theorem callStore_keepsTerms (access : Access) {call : StoreCall} (hRead : call.isWrite = false) :
    (Program.callStore access call).Fulfills (runTerms times lookback id)
      (fun later result _ => later = past ++ [⟨.store access call, result⟩] ∧
        ∀ error, result = .error error → HasFailed later) past store := by
  have hCancels : (Request.store access call).OnlyCancels id := by
    cases call <;> first | exact hRead | cases hRead
  refine (ask_keepsTerms (.store access call) hCancels nofun).imp ?_
  rintro _ result _ ⟨rfl, -⟩
  refine ⟨rfl, ?_⟩
  rintro error rfl
  exact hasFailed_append_error past access call error

end Requests

/-! ## The steps of a run -/

/-- How a pass ends: only a failure stops it, and it counts no further attempt. -/
def PassStops {α : Type} (attempts : Nat) (later : List Exchange)
    (result : Except StoreError α × CancellationSummary) : Prop :=
  result.2.attempts = attempts ∧ ∀ error, result.1 = .error error → HasFailed later

section Passes

variable {times : Timestamp → Prop} {lookback : Int} {context : PassContext}
  {past : List Exchange} {store : Store}

theorem cancelOne_keepsTerms (row : Pipeline) :
    (context.cancelOne row).Fulfills (runTerms times lookback context.initiator.id)
      (fun later result _ => ∀ error, result = .error error → HasFailed later) past store := by
  unfold PassContext.cancelOne
  refine (ask_keepsTerms (.store .engine (.cancelRunning row _)) rfl nofun).andThen ?_
  rintro _ result held ⟨rfl, -⟩
  match result with
  | .error error =>
      refine Program.fulfills_pure fun _ _ => ?_
      exact fun _ _ => hasFailed_append_error past .engine _ error
  | .ok (.alreadyResolved status) =>
      exact (writeLog_keepsTerms _ _).andThen fun _ _ _ _ => Program.fulfills_pure fun _ _ => nofun
  | .ok .canceled =>
      refine (writeLog_keepsTerms _ _).andThen fun _ _ _ _ => ?_
      refine (ask_keepsTerms .clock trivial nofun).andThen fun _ _ _ _ => ?_
      exact (emit_keepsTerms _).andThen fun _ _ _ _ => Program.fulfills_pure fun _ _ => nofun

theorem cancelEach_keepsTerms (rows : List Pipeline) (summary : CancellationSummary) :
    (context.cancelEach rows summary).Fulfills (runTerms times lookback context.initiator.id)
      (fun later result _ => PassStops summary.attempts later result) past store := by
  induction rows generalizing past store summary with
  | nil => exact Program.fulfills_pure fun _ _ => ⟨rfl, nofun⟩
  | cons row rest ih =>
      refine (cancelOne_keepsTerms row).andThen fun later result held hFails => ?_
      match result with
      | .error error => exact Program.fulfills_pure fun _ _ => ⟨rfl, fun _ _ => hFails error rfl⟩
      | .ok .canceled => exact ih (summary.addCanceled row.id)
      | .ok (.alreadyResolved _) => exact ih (summary.addAlreadyResolved row.id)

theorem cancelBatch_keepsTerms (ids : List Nat) (summary : CancellationSummary) :
    (context.cancelBatch ids summary).Fulfills (runTerms times lookback context.initiator.id)
      (fun later result _ => PassStops summary.attempts later result) past store := by
  have hFilter : (filterInterruptible ids).Fulfills
      (runTerms times lookback context.initiator.id)
      (fun later result _ => ∀ error, result = .error error → HasFailed later) past store := by
    unfold filterInterruptible
    split
    · exact Program.fulfills_pure fun _ _ => nofun
    · exact (callStore_keepsTerms .engine rfl).imp fun _ _ _ h => h.2
  unfold PassContext.cancelBatch
  refine hFilter.andThen fun later result held hFails => ?_
  match result with
  | .error error => exact Program.fulfills_pure fun _ _ => ⟨rfl, fun _ _ => hFails error rfl⟩
  | .ok eligible => exact cancelEach_keepsTerms eligible (summary.addNotInterruptible _)

theorem runBatches_keepsTerms (candidates : Query) (count : Nat) (after : Option Nat)
    (summary : CancellationSummary) :
    (context.runBatches candidates count after summary).Fulfills
      (runTerms times lookback context.initiator.id)
      (fun later result _ => PassStops summary.attempts later result) past store := by
  induction count generalizing after past store summary with
  | zero => exact Program.fulfills_pure fun _ _ => ⟨rfl, nofun⟩
  | succ count ih =>
      refine (callStore_keepsTerms .engine rfl).andThen ?_
      rintro later result held ⟨-, hFails⟩
      match result with
      | .error error => exact Program.fulfills_pure fun _ _ => ⟨rfl, fun _ _ => hFails error rfl⟩
      | .ok rows =>
          simp only
          split
          · exact Program.fulfills_pure fun _ _ => ⟨rfl, nofun⟩
          · refine (writeLog_keepsTerms _ _).andThen fun _ _ _ _ => ?_
            refine (cancelBatch_keepsTerms _ (summary.recordBatch _)).andThen ?_
            rintro last ⟨outcome, total⟩ final ⟨hAttempts, hStops⟩
            match outcome with
            | .error error =>
                exact Program.fulfills_pure fun _ _ => ⟨hAttempts, fun _ _ => hStops error rfl⟩
            | .ok () =>
                simp only
                split
                · exact Program.fulfills_pure fun _ _ => ⟨hAttempts, nofun⟩
                · have hSame : total.attempts = summary.attempts := hAttempts
                  rw [← hSame]
                  exact ih _ total

end Passes

section Runs

variable {times : Timestamp → Prop} {lookback : Int} {past : List Exchange} {store : Store}

/-- As long as nothing has failed, the first attempt is the last one. -/
theorem retryFrom_keepsTerms {α : Type} {id : Nat} (lock : OptimisticLock)
    {operation : Nat → CancellationSummary → Program (Except StoreError α × CancellationSummary)}
    (hOperation : ∀ attempt summary past store,
      (operation attempt summary).Fulfills (runTerms times lookback id)
        (fun later result _ => PassStops attempt later result) past store)
    (remaining attempt : Nat) (summary : CancellationSummary) :
    (lock.retryFrom operation remaining attempt summary).Fulfills (runTerms times lookback id)
      (fun later result _ => HasFailed later ∨
        ((∃ value, result.1 = .ok (value, attempt)) ∧ result.2.attempts = attempt))
      past store := by
  induction remaining using Nat.strongRecOn generalizing attempt summary past store with
  | ind remaining ih =>
      unfold OptimisticLock.retryFrom
      refine (hOperation attempt summary past store).andThen ?_
      rintro later ⟨result, total⟩ held ⟨hAttempts, hStops⟩
      cases result with
      | ok value =>
          simp only
          split
          · refine (writeLog_keepsTerms _ _).andThen fun _ _ _ _ => ?_
            exact Program.fulfills_pure fun _ _ => Or.inr ⟨⟨value, rfl⟩, hAttempts⟩
          · exact Program.fulfills_pure fun _ _ => Or.inr ⟨⟨value, rfl⟩, hAttempts⟩
      | error error =>
          have hFailed : HasFailed later := hStops error rfl
          simp only
          split
          · cases remaining with
            | zero => exact Program.fulfills_pure fun _ _ => Or.inl hFailed
            | succ remaining =>
                refine (writeLog_keepsTerms _ _).andThen fun logged _ _ hLogged => ?_
                have hSleep : (Program.sleep (lock.backoffFor attempt)).Fulfills
                    (runTerms times lookback id)
                    (fun slept _ _ => HasFailed slept) logged held := by
                  refine (Program.answers_ask (.sleep _)
                    ⟨trivial, fun _ _ => hFailed.of_prefix hLogged⟩).imp ?_
                  rintro _ _ _ ⟨rfl, -⟩
                  exact (hFailed.of_prefix hLogged).append _
                refine hSleep.andThen fun slept _ _ hSlept => ?_
                exact (ih remaining (Nat.lt_succ_self _) _ _).extends.imp
                  fun _ _ _ hLast => Or.inl (hSlept.of_prefix hLast.1)
          · exact Program.fulfills_pure fun _ _ => Or.inl hFailed

/-- Candidates that were selected are passed over once, unless something fails. -/
theorem cancelCandidates_keepsTerms (settings : CancellationSettings) (context : PassContext)
    {candidates : Query} (hScope : candidates.isEmptyScope = false) :
    (cancelCandidates settings context candidates).Fulfills
      (runTerms times lookback context.initiator.id)
      (fun later result _ => HasFailed later ∨ (result.1 = .ok () ∧ result.2.attempts = 1))
      past store := by
  unfold cancelCandidates
  rw [if_neg (by rw [hScope]; exact Bool.false_ne_true)]
  have hPass (attempt : Nat) (summary : CancellationSummary) (past : List Exchange)
      (store : Store) :
      (context.runPass candidates (summary.startPass attempt)).Fulfills
        (runTerms times lookback context.initiator.id)
        (fun later result _ => PassStops attempt later result) past store :=
    runBatches_keepsTerms candidates (idBound + 1) none (summary.startPass attempt)
  refine (retryFrom_keepsTerms settings.lock hPass _ 1 .empty).andThen ?_
  rintro later ⟨result, total⟩ held hEnds
  refine Program.fulfills_pure fun _ _ => hEnds.imp_right ?_
  rintro ⟨⟨value, hValue⟩, hAttempts⟩
  obtain rfl : result = .ok (value, 1) := hValue
  exact ⟨rfl, hAttempts⟩

/-- A run over its candidates that was not stopped has completed. -/
theorem reportRun_keepsTerms {id : Nat} (pipeline : Pipeline) (strategy : Strategy)
    (run : Except UpkeepError Unit × CancellationSummary) :
    (reportRun pipeline strategy run).Fulfills (runTerms times lookback id)
      (fun later result _ => past <+: later ∧ (run.1 = .ok () →
        result = .ok ⟨pipeline.id, .completed, some strategy, run.2⟩)) past store := by
  obtain ⟨result, summary⟩ := run
  have hFinish (outcome : CancellationOutcome) {later : List Exchange} {held : Store} :
      (do
        let count := summary.canceled.toList.length
        if count > 0 then
          Program.info
            s!"Pipeline {pipeline.id} canceled {count} redundant pipeline(s) on {pipeline.ref}"
        return (.ok ⟨pipeline.id, outcome, some strategy, summary⟩ :
          Except UpkeepError CancellationReport)).Fulfills (runTerms times lookback id)
        (fun last report _ => later <+: last ∧
          report = (.ok ⟨pipeline.id, outcome, some strategy, summary⟩ :
            Except UpkeepError CancellationReport)) later held := by
    simp only
    split
    · refine (writeLog_keepsTerms _ _).andThen fun _ _ _ hLogged => ?_
      exact Program.fulfills_pure fun _ _ => ⟨hLogged, rfl⟩
    · exact Program.fulfills_pure fun _ _ => ⟨List.prefix_rfl, rfl⟩
  unfold reportRun
  split
  · exact (hFinish .completed).imp fun _ _ _ hReport => ⟨hReport.1, fun _ => hReport.2⟩
  · rename_i hResult
    obtain rfl : result = _ := hResult
    refine (writeLog_keepsTerms _ _).andThen fun _ _ _ hLogged => ?_
    exact (hFinish _).imp fun _ _ _ hReport => ⟨hLogged.trans hReport.1, nofun⟩
  · rename_i hResult
    obtain rfl : result = _ := hResult
    exact Program.fulfills_pure fun _ _ => ⟨List.prefix_rfl, nofun⟩

/-- How a run ends if none of its store calls has failed. -/
inductive SmoothEnd (pipeline : Pipeline) (past : List Exchange) :
    Except UpkeepError CancellationReport → Prop where
  | skipped (reason : SkipReason) (hLooked : ¬ HasLooked past) :
      SmoothEnd pipeline past (.ok (.ofSkip pipeline.id reason))
  | missing (hLooked : ¬ HasLooked past)
      (hMissing : ⟨.store .engine (.project pipeline.projectId), .ok none⟩ ∈ past) :
      SmoothEnd pipeline past (.error (.store (.notFound .project pipeline.projectId)))
  | completed (strategy : Strategy) (summary : CancellationSummary)
      (hAttempts : summary.attempts = 1) :
      SmoothEnd pipeline past (.ok ⟨pipeline.id, .completed, some strategy, summary⟩)

theorem runSelected_keepsTerms (settings : CancellationSettings) (pipeline : Pipeline)
    (project : Project) (strategy : Strategy) (windowStart : Timestamp)
    (headSha : Option String) :
    (runSelected settings pipeline project strategy windowStart headSha).Fulfills
      (runTerms times lookback pipeline.id)
      (fun later result _ => HasFailed later ∨ SmoothEnd pipeline later result) past store := by
  unfold runSelected
  refine (cancelCandidates_keepsTerms settings ⟨pipeline, _, settings.batchSize⟩
    (isEmptyScope_candidateQuery strategy pipeline windowStart headSha)).andThen ?_
  rintro later ⟨result, summary⟩ held hEnds
  refine (reportRun_keepsTerms pipeline strategy _).imp ?_
  rintro last report _ ⟨hPrefix, hReport⟩
  rcases hEnds with hFailed | ⟨hOk, hAttempts⟩
  · exact Or.inl (hFailed.of_prefix hPrefix)
  · rw [hReport hOk]
    exact Or.inr (.completed strategy summary hAttempts)

theorem runTerms_allowsLookups (times : Timestamp → Prop) (lookback : Int) (id : Nat) :
    (runTerms times lookback id).AllowsLookups where
  permits := by
    intro past before asked hLookup
    refine ⟨Request.onlyCancels_of_isLookup hLookup, ?_⟩
    rintro span rfl
    cases hLookup
  others _ _ _ _ _ _ := trivial

/-- A cancellation run keeps to its terms, whatever it is answered. -/
theorem cancelRedundant_keepsTerms (rules : PolicyRules) (settings : CancellationSettings)
    (pipeline : Pipeline) :
    (cancelRedundant rules settings pipeline).Fulfills
      (runTerms times settings.lookback pipeline.id)
      (fun later result _ => HasFailed later ∨ SmoothEnd pipeline later result) [] store := by
  have hOutline : RunOutline (runTerms times settings.lookback pipeline.id) rules settings
      pipeline (fun later result _ => HasFailed later ∨ SmoothEnd pipeline later result) []
      store := {
    lookups := runTerms_allowsLookups times settings.lookback pipeline.id
    skip := fun reason hLooked _ => Or.inr (.skipped reason hLooked.not_hasLooked)
    missing := fun hLooked _ hTold => Or.inr (.missing hLooked.not_hasLooked hTold)
    failed := fun _ _ _ _ hTold => Or.inl (hasFailed_of_mem hTold)
    fault := fun hLooked hShown hWindow => ⟨hLooked.not_hasLooked, _, hShown, hWindow⟩
    selected := fun project windowStart _ _ _ _ _ _ =>
      runSelected_keepsTerms settings pipeline project _ windowStart _ }
  exact hOutline.fulfills

end Runs

end PipelineUpkeep
