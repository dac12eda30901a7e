import PipelineUpkeep.Pipeline.Creation
/-!
# Requests of the engine

The creation of a pipeline, with the cancellation that follows it, reads projects,
pipelines and the tips of refs, and it creates and cancels pipelines.  It has no
dealings with schedules, and it does not ask for further pipelines.  Once the candidates
of a cancellation are selected, it only looks for pipelines and cancels them.  This is
so whatever it is answered.
-/

namespace PipelineUpkeep

namespace Request

/-- A request of the engine, none of which concerns schedules. -/
def isEngineWork : Request → Bool
  | .store .engine (.project _) | .store .engine (.pipelines _) | .store .engine (.refHead ..)
  | .store .engine (.createPipeline _) | .store .engine (.cancelRunning ..)
  | .clock | .log _ | .audit _ | .sleep _ => true
  | _ => false

/-- A request of the engine once it knows its candidates. -/
def isPassWork : Request → Bool
  | .store .engine (.pipelines _) | .store .engine (.cancelRunning ..)
  | .clock | .log _ | .audit _ | .sleep _ => true
  | _ => false

theorem isEngineWork_of_isPassWork (asked : Request) (h : asked.isPassWork = true) :
    asked.isEngineWork = true := by
  unfold isPassWork at h
  split at h
  all_goals first | rfl | cases h

end Request

namespace Program

variable {α β : Type} {allowed : Request → Bool}

/-- Whatever it is answered, the program makes allowed requests only. -/
def OnlyAsks (allowed : Request → Bool) : Program α → Prop
  | done _ => True
  | crash _ => True
  | request asked resume =>
      allowed asked = true ∧ ∀ answer, (resume answer).OnlyAsks allowed

theorem onlyAsks_ask {asked : Request} (h : allowed asked = true) :
    (ask asked).OnlyAsks allowed := ⟨h, fun _ => trivial⟩

theorem OnlyAsks.bind {program : Program α} {next : α → Program β}
    (h : program.OnlyAsks allowed) (hNext : ∀ value, (next value).OnlyAsks allowed) :
    (program >>= next).OnlyAsks allowed := by
  induction program with
  | done value => exact hNext value
  | crash fault => trivial
  | request asked resume ih => exact ⟨h.1, fun answer => ih answer (h.2 answer)⟩

theorem OnlyAsks.imp {program : Program α} {weaker : Request → Bool}
    (h : program.OnlyAsks allowed)
    (hAllowed : ∀ asked, allowed asked = true → weaker asked = true) :
    program.OnlyAsks weaker := by
  induction program with
  | done value => trivial
  | crash fault => trivial
  | request asked resume ih =>
      exact ⟨hAllowed asked h.1, fun answer => ih answer (h.2 answer)⟩

end Program

open Program

theorem writeLog_passWork (level : LogLevel) (message : String) :
    (writeLog level message).OnlyAsks Request.isPassWork := onlyAsks_ask rfl

theorem emit_passWork (entry : AuditRecord) :
    (emit entry).OnlyAsks Request.isPassWork := by
  have hHand : (ask (.audit entry)).OnlyAsks Request.isPassWork := onlyAsks_ask rfl
  refine hHand.bind fun failure => ?_
  cases failure with
  | none => trivial
  | some reason => exact writeLog_passWork _ _

section Cancellation

variable {context : PassContext}

theorem cancelOne_passWork (row : Pipeline) :
    (context.cancelOne row).OnlyAsks Request.isPassWork := by
  unfold PassContext.cancelOne
  refine (onlyAsks_ask rfl).bind fun result => ?_
  match result with
  | .error _ => trivial
  | .ok (.alreadyResolved _) => exact (writeLog_passWork _ _).bind fun _ => trivial
  | .ok .canceled =>
      refine (writeLog_passWork _ _).bind fun _ => ?_
      refine (onlyAsks_ask rfl).bind fun now => ?_
      exact (emit_passWork _).bind fun _ => trivial

theorem cancelEach_passWork (rows : List Pipeline) (summary : CancellationSummary) :
    (context.cancelEach rows summary).OnlyAsks Request.isPassWork := by
  induction rows generalizing summary with
  | nil => trivial
  | cons row rest ih =>
      unfold PassContext.cancelEach
      refine (cancelOne_passWork row).bind fun result => ?_
      match result with
      | .error _ => trivial
      | .ok .canceled => exact ih _
      | .ok (.alreadyResolved _) => exact ih _

theorem cancelBatch_passWork (ids : List Nat) (summary : CancellationSummary) :
    (context.cancelBatch ids summary).OnlyAsks Request.isPassWork := by
  have hFilter : (filterInterruptible ids).OnlyAsks Request.isPassWork := by
    unfold filterInterruptible
    split
    · trivial
    · exact onlyAsks_ask rfl
  unfold PassContext.cancelBatch
  refine hFilter.bind fun eligible => ?_
  match eligible with
  | .error _ => trivial
  | .ok rows => exact cancelEach_passWork _ _

theorem runBatches_passWork (candidates : Query) (count : Nat) (after : Option Nat)
    (summary : CancellationSummary) :
    (context.runBatches candidates count after summary).OnlyAsks Request.isPassWork := by
  induction count generalizing after summary with
  | zero => trivial
  | succ count ih =>
      unfold PassContext.runBatches
      refine (onlyAsks_ask rfl).bind fun rows => ?_
      match rows with
      | .error _ => trivial
      | .ok rows =>
          simp only
          split
          · trivial
          · refine (writeLog_passWork _ _).bind fun _ => ?_
            refine (cancelBatch_passWork _ _).bind fun ⟨result, total⟩ => ?_
            match result with
            | .error _ => trivial
            | .ok () =>
                simp only
                split
                · trivial
                · exact ih _ _

/-- A retried operation asks no more than the operation, the log and for pauses. -/
theorem retryFrom_passWork {α σ : Type} (lock : OptimisticLock)
    {operation : Nat → σ → Program (Except StoreError α × σ)}
    (hOperation : ∀ attempt state, (operation attempt state).OnlyAsks Request.isPassWork)
    (remaining attempt : Nat) (state : σ) :
    (lock.retryFrom operation remaining attempt state).OnlyAsks Request.isPassWork := by
  induction remaining using Nat.strongRecOn generalizing attempt state with
  | ind remaining ih =>
      unfold OptimisticLock.retryFrom
      refine (hOperation attempt state).bind fun ⟨result, last⟩ => ?_
      match result with
      | .ok value =>
          simp only
          split
          · exact (writeLog_passWork _ _).bind fun _ => trivial
          · trivial
      | .error error =>
          simp only
          split
          · cases remaining with
            | zero => trivial
            | succ remaining =>
                refine (writeLog_passWork _ _).bind fun _ => ?_
                exact (onlyAsks_ask rfl).bind fun _ => ih remaining (Nat.lt_succ_self _) _ _
          · trivial

theorem reportRun_passWork (pipeline : Pipeline) (strategy : Strategy)
    (run : Except UpkeepError Unit × CancellationSummary) :
    (reportRun pipeline strategy run).OnlyAsks Request.isPassWork := by
  obtain ⟨result, summary⟩ := run
  have hFinish (outcome : CancellationOutcome) :
      (do
        let count := summary.canceled.toList.length
        if count > 0 then
          info s!"Pipeline {pipeline.id} canceled {count} redundant pipeline(s) on {pipeline.ref}"
        return (.ok ⟨pipeline.id, outcome, some strategy, summary⟩ :
          Except UpkeepError CancellationReport)).OnlyAsks Request.isPassWork := by
    simp only
    split
    · exact (writeLog_passWork _ _).bind fun _ => trivial
    · trivial
  unfold reportRun
  split
  · exact hFinish _
  · exact (writeLog_passWork _ _).bind fun _ => hFinish _
  · trivial

theorem cancelCandidates_passWork (settings : CancellationSettings) (candidates : Query) :
    (cancelCandidates settings context candidates).OnlyAsks Request.isPassWork := by
  unfold cancelCandidates
  split
  · trivial
  · refine (retryFrom_passWork settings.lock ?_ _ _ _).bind fun _ => trivial
    intro attempt summary
    exact runBatches_passWork _ _ _ _

theorem writeLog_engineWork (level : LogLevel) (message : String) :
    (writeLog level message).OnlyAsks Request.isEngineWork := onlyAsks_ask rfl

theorem selectCandidates_engineWork (pipeline : Pipeline) (policy : Policy) (lookback : Int)
    (now : Time.Timestamp) :
    (selectCandidates pipeline policy lookback now).OnlyAsks Request.isEngineWork := by
  unfold selectCandidates
  split
  · exact (writeLog_engineWork _ _).bind fun _ => trivial
  · split
    · exact (writeLog_engineWork _ _).bind fun _ => trivial
    · refine (onlyAsks_ask rfl).bind fun head => ?_
      match head with
      | .error _ => trivial
      | .ok head =>
          simp only
          split <;> trivial

theorem cancelRedundant_engineWork (rules : PolicyRules) (settings : CancellationSettings)
    (pipeline : Pipeline) :
    (cancelRedundant rules settings pipeline).OnlyAsks Request.isEngineWork := by
  unfold cancelRedundant
  split
  · trivial
  · refine (onlyAsks_ask rfl).bind fun project => ?_
    match project with
    | .error _ | .ok none => trivial
    | .ok (some project) =>
        simp only
        split
        · trivial
        · refine (onlyAsks_ask rfl).bind fun now => ?_
          refine (selectCandidates_engineWork _ _ _ _).bind fun candidates => ?_
          match candidates with
          | .error _ => trivial
          | .ok candidates =>
              have hWeaken (asked : Request) := asked.isEngineWork_of_isPassWork
              refine ((cancelCandidates_passWork settings candidates).imp hWeaken).bind ?_
              exact fun run => (reportRun_passWork _ _ run).imp hWeaken

end Cancellation

theorem rejectCreation_engineWork (request : CreationRequest) (project : Project) (head : RefHead)
    (status : Status) (message : String) :
    (rejectCreation request project head status message).OnlyAsks Request.isEngineWork := by
  unfold rejectCreation
  simp only
  split
  · refine (onlyAsks_ask rfl).bind fun now => ?_
    refine (onlyAsks_ask rfl).bind fun created => ?_
    match created with
    | .error _ => trivial
    | .ok _ => exact (writeLog_engineWork _ _).bind fun _ => trivial
  · exact (writeLog_engineWork _ _).bind fun _ => trivial

theorem cancelAfterCreation_engineWork (rules : PolicyRules) (settings : CancellationSettings)
    (pipeline : Pipeline) :
    (cancelAfterCreation rules settings pipeline).OnlyAsks Request.isEngineWork := by
  unfold cancelAfterCreation
  refine (cancelRedundant_engineWork rules settings pipeline).bind fun result => ?_
  match result with
  | .ok _ => trivial
  | .error _ => exact (writeLog_engineWork _ _).bind fun _ => trivial

/-- The creation of a pipeline is work of the engine throughout. -/
theorem createForRequest_engineWork (rules : PolicyRules) (settings : CancellationSettings)
    (request : CreationRequest) :
    (createForRequest rules settings request).OnlyAsks Request.isEngineWork := by
  unfold createForRequest
  refine (onlyAsks_ask rfl).bind fun project => ?_
  match project with
  | .error _ | .ok none => trivial
  | .ok (some project) =>
      refine (onlyAsks_ask rfl).bind fun head => ?_
      match head with
      | .error _ | .ok none => trivial
      | .ok (some head) =>
          simp only
          split
          · exact rejectCreation_engineWork _ _ _ _ _
          · split
            · exact rejectCreation_engineWork _ _ _ _ _
            · refine (onlyAsks_ask rfl).bind fun now => ?_
              refine (onlyAsks_ask rfl).bind fun created => ?_
              match created with
              | .error _ => trivial
              | .ok pipeline =>
                  refine (writeLog_engineWork _ _).bind fun _ => ?_
                  exact (cancelAfterCreation_engineWork _ _ _).bind fun _ => trivial

end PipelineUpkeep
