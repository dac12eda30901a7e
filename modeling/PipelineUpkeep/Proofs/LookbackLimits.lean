import PipelineUpkeep.Command.Execution
import PipelineUpkeep.Proofs.CreationEffect
import PipelineUpkeep.Proofs.NextInstant
import PipelineUpkeep.Proofs.RunEffect
/-!
# How far a lookback may reach

The window of a run starts a number of hours before the present time, and the years before
-262143 have no instants for it to start at.  Hours may be any number of 32 bits, and nearly
half of these numbers reach too far back, whatever the present time from 1970 to 9999 is.  With
such a configuration a command has a fault as soon as it needs its window: a run once its
project is found to cancel, and a creation after the new row was inserted, of which nothing is
saved.  With any other configuration there is no fault, whatever the store answers.
-/

namespace PipelineUpkeep

open Time

/-! ## Starts of windows -/

namespace Time.Timestamp

/-- The second from which a span is counted backward: in a leap second it is the next one. -/
def departure (t : Timestamp) : Int :=
  if t.nanosecond < 1000000000 then t.second else t.second + 1

theorem ofParts?_eq_none_iff {second : Int} {fraction : Nat} (h : fraction < 1000000000) :
    ofParts? second fraction = none ↔ second < firstSecond ∨ lastSecond < second := by
  have hCarry : ¬fraction ≥ 1000000000 := Nat.not_le.mpr h
  simp only [ofParts?, hCarry, if_false, ite_eq_right_iff, reduceCtorEq, imp_false,
    Bool.not_eq_true, inRange, Bool.and_eq_false_iff, decide_eq_false_iff_not, not_le]

/-- Some span back from a time there is no instant, exactly if it ends before all of them. -/
theorem subSeconds?_eq_none_iff {t : Timestamp} {seconds : Int} (hLeap : t.nanosecond < 2000000000)
    (hFirst : firstSecond ≤ t.second) (hLast : t.second < lastSecond) (hBack : 0 ≤ seconds) :
    t.subSeconds? seconds = none ↔ t.departure - seconds < firstSecond := by
  unfold subSeconds? addSpan? departure
  split
  · rename_i hNormal
    rw [ofParts?_eq_none_iff (by omega)]
    omega
  · rename_i hInLeap
    rw [if_neg (by simp; omega)]
    split
    · rw [ofParts?_eq_none_iff (by omega)]
      omega
    · simp only [reduceCtorEq, false_iff]
      omega

end Time.Timestamp

namespace Configuration

/-- The hours of the lookback reach behind the first of all seconds. -/
def LooksTooFarBack (configuration : Configuration) (now : Timestamp) : Prop :=
  now.departure - configuration.cancellation.lookbackHours * 3600 < Timestamp.firstSecond

variable {configuration : Configuration} {now : Timestamp}

theorem looksTooFarBack_iff (hLeap : now.nanosecond < 2000000000)
    (hEra : 1970 ≤ now.date.year ∧ now.date.year ≤ 9999) :
    configuration.LooksTooFarBack now ↔
      now.subSeconds? configuration.cancellationSettings.lookback = none := by
  have hSecond := Cron.second_bounds_of_era hEra
  have hFirstSecond : Timestamp.firstSecond ≤ 0 := by decide
  have hLastSecond : 253402300800 ≤ Timestamp.lastSecond := by decide
  have hBack : (0 : Int) ≤ configuration.cancellation.lookbackHours * 3600 := by omega
  exact (Timestamp.subSeconds?_eq_none_iff hLeap (by omega) (by omega) hBack).symm

/-- So many hours before the first second of 1970 the timestamps begin. -/
theorem not_looksTooFarBack (hEra : 1970 ≤ now.date.year ∧ now.date.year ≤ 9999)
    (hHours : configuration.cancellation.lookbackHours ≤ 2315167008) :
    ¬configuration.LooksTooFarBack now := by
  have hSecond := Cron.second_bounds_of_era hEra
  have hFirstSecond : Timestamp.firstSecond = -2315167008 * 3600 := by decide
  unfold LooksTooFarBack Timestamp.departure
  split <;> omega

/-- So many hours before the last second of 9999 the timestamps begin. -/
theorem looksTooFarBack (hEra : 1970 ≤ now.date.year ∧ now.date.year ≤ 9999)
    (hHours : 2385556536 < configuration.cancellation.lookbackHours) :
    configuration.LooksTooFarBack now := by
  have hSecond := Cron.second_bounds_of_era hEra
  have hFirstSecond : Timestamp.firstSecond = -2315167008 * 3600 := by decide
  unfold LooksTooFarBack Timestamp.departure
  split <;> omega

end Configuration

/-! ## Faults of runs -/

section AnyWorld

variable {α : Type} {clock : Timestamp} {rules : PolicyRules} {settings : CancellationSettings}
  {world : World} {fault : Fault}

/-- A program that keeps to terms about its answers has a fault only if they allow one. -/
theorem Program.Fulfills.mayFault_of_run {permits : List Exchange → Request → Prop}
    {mayFault : List Exchange → Prop} {post : List Exchange → α → Store → Prop}
    {program : Program α} {past : List Exchange} (hClock : world.clock = clock)
    (h : program.Fulfills (.ofAnswers (Request.Shows (· = clock)) permits mayFault) post past
      world.store)
    (hFault : (program.run world).1 = .error fault) : ∃ later, mayFault later := by
  induction program generalizing past world with
  | done value => cases hFault
  | crash other => exact ⟨past, h⟩
  | request asked resume ih =>
      have hShows := world.shows_answer asked
      rw [hClock] at hShows
      obtain ⟨-, hResume⟩ := h world.store trivial
      exact ih _ ((world.clock_answer asked).trans hClock)
        (hResume _ (world.answer asked).2.store hShows) hFault

/-- Whatever disturbs the world, a run has a fault only if its window starts out of range. -/
theorem cancelRedundant_fault {pipeline : Pipeline}
    (hFault : ((cancelRedundant rules settings pipeline).run world).1 = .error fault) :
    world.clock.subSeconds? settings.lookback = none := by
  have hTerms : (cancelRedundant rules settings pipeline).Fulfills
      (runTerms (· = world.clock) settings.lookback pipeline.id) _ [] world.store :=
    cancelRedundant_keepsTerms rules settings pipeline
  obtain ⟨-, -, now, rfl, hNone⟩ := hTerms.mayFault_of_run rfl hFault
  exact hNone

/-- So it is for a creation. -/
theorem createForRequest_fault {request : CreationRequest}
    (hFault : ((createForRequest rules settings request).run world).1 = .error fault) :
    world.clock.subSeconds? settings.lookback = none := by
  have hTerms : (createForRequest rules settings request).Fulfills
      (creationTerms (· = world.clock) settings.lookback) _ [] world.store :=
    createForRequest_trace rules settings request
  obtain ⟨-, now, rfl, hNone⟩ := hTerms.mayFault_of_run rfl hFault
  exact hNone

end AnyWorld

namespace Program

variable {α β : Type} {clock : Timestamp} {before middle after : Store}

/-- Whatever else an undisturbed world holds, the program run in it from `before` ends in a
fault and leaves `after`. -/
def Crashes (clock : Timestamp) (program : Program α) (before after : Store) : Prop :=
  ∀ world : World, world.Shows before clock →
    ∃ fault ending, program.run world = (.error fault, ending) ∧ ending.Shows after clock

theorem crashes_crash (fault : Fault) (store : Store) :
    Crashes clock (crash fault : Program α) store store :=
  fun world h => ⟨fault, world, rfl, h⟩

theorem Crashes.bind {program : Program α} (h : Crashes clock program before after)
    (next : α → Program β) : Crashes clock (program >>= next) before after := by
  intro world hWorld
  obtain ⟨fault, ending, hRun, hEnding⟩ := h world hWorld
  exact ⟨fault, ending, by rw [run_bind, hRun], hEnding⟩

theorem Returns.andCrashes {program : Program α} {next : α → Program β} {value : α}
    (h : Returns clock program before value middle)
    (hNext : Crashes clock (next value) middle after) :
    Crashes clock (program >>= next) before after := by
  intro world hWorld
  obtain ⟨between, hRun, hBetween⟩ := h world hWorld
  obtain ⟨fault, ending, hRest, hEnding⟩ := hNext between hBetween
  exact ⟨fault, ending, by rw [run_bind, hRun]; exact hRest, hEnding⟩

/-- A fault behind a program that returns is one of what follows. -/
theorem Returns.fault_of_bind {program : Program α} {next : α → Program β} {value : α}
    {world : World} {fault : Fault} (h : Returns clock program before value middle)
    (hWorld : world.Shows before clock)
    (hFault : ((program >>= next).run world).1 = .error fault) :
    ∃ later, later.Shows middle clock ∧ ((next value).run later).1 = .error fault := by
  obtain ⟨later, hRun, hLater⟩ := h world hWorld
  rw [run_bind, hRun] at hFault
  exact ⟨later, hLater, hFault⟩

/-- A fault of two programs is one of the first or, if that returns, of the second. -/
theorem fault_bind_cases {program : Program α} {next : α → Program β} {world : World}
    {fault : Fault} (hFault : ((program >>= next).run world).1 = .error fault) :
    (program.run world).1 = .error fault ∨
      ∃ value later, ((next value).run later).1 = .error fault := by
  rw [run_bind] at hFault
  rcases hRun : program.run world with ⟨other | value, later⟩
  · rw [hRun] at hFault
    exact .inl (congrArg Except.error (Except.error.inj hFault))
  · rw [hRun] at hFault
    exact .inr ⟨value, later, hFault⟩

end Program

/-! ## Which runs reach for their window -/

/-- The run of a pipeline without a parent, in a project that cancels. -/
def Pipeline.ReachesForWindow (pipeline : Pipeline) (rules : PolicyRules) (store : Store) : Prop :=
  pipeline.parentId = none ∧ ∃ project,
    store.projects.find? pipeline.projectId = some project ∧ rules.autoCancel project = true

/-- The creation of a pipeline at the tip of a ref that is not turned down, in a project that
cancels. -/
structure CreationRequest.ReachesForWindow (request : CreationRequest) (rules : PolicyRules)
    (store : Store) (project : Project) (head : RefHead) : Prop where
  stored : store.projects.find? request.projectId = some project
  tip : store.refs.find? project.id request.ref = some head
  accepted : request.refusal? project (some head) = none
  cancels : rules.autoCancel project = true

section Runs

variable {clock : Timestamp} {rules : PolicyRules} {settings : CancellationSettings}
  {store : Store} {pipeline : Pipeline} {request : CreationRequest}

theorem cancelRedundant_crashes (hReaches : pipeline.ReachesForWindow rules store)
    (hWindow : clock.subSeconds? settings.lookback = none) :
    Program.Crashes clock (cancelRedundant rules settings pipeline) store store := by
  obtain ⟨hParent, project, hProject, hAuto⟩ := hReaches
  have hNotChild : ¬pipeline.isChild = true :=
    Bool.eq_false_iff.mp (pipeline.isChild_eq_false_iff.mpr hParent)
  have hCancels : ¬(!(rules.resolve project).autoCancelPendingPipelines) = true := by
    simp [PolicyRules.resolve, hAuto]
  have hFind := Program.returns_callStore clock .engine (.project pipeline.projectId) store
  simp only [StoreCall.perform, hProject] at hFind
  have hHead := Program.returns_callStore clock .engine
    (.refHead pipeline.projectId pipeline.ref) store
  have hSelect : Program.Crashes clock
      (selectCandidates pipeline (rules.resolve project) settings.lookback clock) store store := by
    unfold selectCandidates
    rw [if_neg hNotChild, if_neg hCancels]
    refine hHead.andCrashes ?_
    simp only [hWindow]
    exact Program.crashes_crash _ _
  unfold cancelRedundant
  rw [if_neg hNotChild]
  refine hFind.andCrashes ?_
  simp only [hCancels]
  exact (Program.returns_readClock _).andCrashes (hSelect.bind _)

/-- In an undisturbed world no other run has a fault. -/
theorem reachesForWindow_of_fault {world : World} {fault : Fault} (hWorld : world.Shows store clock)
    (hFault : ((cancelRedundant rules settings pipeline).run world).1 = .error fault) :
    pipeline.ReachesForWindow rules store := by
  by_contra hIdle
  obtain ⟨result, hReturns, -⟩ : ∃ result, Program.Returns clock
      (cancelRedundant rules settings pipeline) store result store ∧ _ :=
    cancelRedundant_returns_idle settings fun project hParent hProject =>
      Bool.eq_false_iff.mpr fun hAuto => hIdle ⟨hParent, project, hProject, hAuto⟩
  obtain ⟨ending, hRun, -⟩ := hReturns world hWorld
  rw [hRun] at hFault
  cases hFault

/-- The fault comes behind the insertion. -/
theorem createForRequest_crashes {project : Project} {head : RefHead}
    (hReaches : request.ReachesForWindow rules store project head)
    (hWindow : clock.subSeconds? settings.lookback = none) :
    Program.Crashes clock (createForRequest rules settings request) store
      (store.createPipeline (request.newPipeline head .created clock project.newBuilds)).2 := by
  obtain ⟨hProject, hTip, hAccepted, hAuto⟩ := hReaches
  obtain ⟨hReason, hSkip⟩ := (request.refusal?_eq_none_iff head).mp hAccepted
  have hFind := Program.returns_callStore clock .engine (.project request.projectId) store
  have hHead := Program.returns_callStore clock .engine (.refHead project.id request.ref) store
  simp only [StoreCall.perform, hProject] at hFind
  simp only [StoreCall.perform, hTip] at hHead
  have hInsert := Program.returns_callStore clock .engine (.createPipeline
    (request.newPipeline head .created clock project.newBuilds)) store
  unfold createForRequest
  refine hFind.andCrashes (hHead.andCrashes ?_)
  simp only [hReason, hSkip]
  refine (Program.returns_readClock _).andCrashes (hInsert.andCrashes ?_)
  refine (Program.returns_info _ _).andCrashes (Program.Crashes.bind ?_ _)
  exact (cancelRedundant_crashes ⟨rfl, project, hProject, hAuto⟩ hWindow).bind _

/-- In an undisturbed world a refusal has no fault. -/
theorem rejectCreation_returns {world : World} {project : Project} {head : RefHead}
    {refusal : Refusal} {status : Status} (hWorld : world.Shows store clock)
    (hProject : store.projects.find? request.projectId = some project)
    (hTip : store.refs.find? project.id request.ref = some head)
    (hRefusal : request.refusal? project (some head) = some refusal)
    (hStatus : refusal.status = some status) :
    ∃ value, ((rejectCreation request project head status refusal.message).run world).1 =
      .ok value := by
  obtain ⟨rfl, rfl, hQuiet⟩ := hWorld
  have hAlone : (rejectCreation request project head status refusal.message).Fulfills
      (.alone world.clock) _ [] world.store :=
    rejectCreation_alone refusal hProject hTip hRefusal hStatus
  obtain ⟨value, -, hValue, -⟩ := hAlone.run_alone hQuiet
  exact ⟨value, hValue⟩

theorem reachesForWindow_of_fault_afterCreation {world : World} {fault : Fault}
    (hWorld : world.Shows store clock)
    (hFault : ((cancelAfterCreation rules settings pipeline).run world).1 = .error fault) :
    pipeline.ReachesForWindow rules store := by
  unfold cancelAfterCreation at hFault
  rcases Program.fault_bind_cases hFault with hRun | ⟨result, later, hRest⟩
  · exact reachesForWindow_of_fault hWorld hRun
  · cases result <;> cases hRest

/-- In an undisturbed world no other creation has a fault. -/
theorem exists_reachesForWindow_of_fault {world : World} {fault : Fault}
    (hWorld : world.Shows store clock)
    (hFault : ((createForRequest rules settings request).run world).1 = .error fault) :
    ∃ project head, request.ReachesForWindow rules store project head := by
  have hFind := Program.returns_callStore clock .engine (.project request.projectId) store
  obtain ⟨later, hLater, hRest⟩ := hFind.fault_of_bind hWorld hFault
  simp only [StoreCall.perform] at hLater hRest
  cases hProject : store.projects.find? request.projectId with
  | none =>
      rw [hProject] at hRest
      cases hRest
  | some project =>
      simp only [hProject] at hRest
      have hHead := Program.returns_callStore clock .engine (.refHead project.id request.ref) store
      obtain ⟨last, hLast, hAfter⟩ := hHead.fault_of_bind hLater hRest
      simp only [StoreCall.perform] at hLast hAfter
      cases hTip : store.refs.find? project.id request.ref with
      | none =>
          rw [hTip] at hAfter
          cases hAfter
      | some head =>
          simp only [hTip] at hAfter
          cases hReason : project.ciConfigError with
          | some reason =>
              have hRefusal := request.refusal?_of_reason head hReason
              obtain ⟨value, hValue⟩ := rejectCreation_returns hLast hProject hTip hRefusal rfl
              simp only [hReason] at hAfter
              cases hValue.symm.trans hAfter
          | none =>
              simp only [hReason] at hAfter
              split at hAfter
              · rename_i hSkip
                have hRefusal := request.refusal?_of_skip head hReason hSkip
                obtain ⟨value, hValue⟩ := rejectCreation_returns hLast hProject hTip hRefusal rfl
                cases hValue.symm.trans hAfter
              · rename_i hSkip
                obtain ⟨timed, hTimed, hInsertion⟩ :=
                  (Program.returns_readClock store).fault_of_bind hLast hAfter
                have hInsert := Program.returns_callStore clock .engine (.createPipeline
                  (request.newPipeline head .created clock project.newBuilds)) store
                obtain ⟨inserted, hInserted, hLogged⟩ := hInsert.fault_of_bind hTimed hInsertion
                obtain ⟨logged, hShows, hRun⟩ :=
                  (Program.returns_info _ _).fault_of_bind hInserted hLogged
                rcases Program.fault_bind_cases hRun with hCancel | ⟨report, ended, hReturn⟩
                · obtain ⟨-, found, hFound, hAuto⟩ :=
                    reachesForWindow_of_fault_afterCreation hShows hCancel
                  obtain rfl : project = found := Option.some.inj (hProject.symm.trans hFound)
                  exact ⟨project, head, hProject, hTip,
                    (request.refusal?_eq_none_iff head).mpr ⟨hReason, hSkip⟩, hAuto⟩
                · cases hReturn

end Runs

/-! ## Commands -/

namespace Session

variable {session : Session} {fault : Fault}

theorem ending_conclude_ne_crashed (world : World) (json : Data.Value) (screen : String) :
    (session.conclude world json screen).ending ≠ .crashed fault := by
  unfold conclude
  split
  · exact nofun
  · exact nofun

/-- A command that goes on from a run crashes if the run has a fault. -/
theorem afterRun_crashed_iff {α : Type} {run : Except Fault α × World}
    {next : α → World → Execution}
    (hNext : ∀ value world, (next value world).ending ≠ .crashed fault) :
    (session.afterRun run next).ending = .crashed fault ↔ run.1 = .error fault := by
  rcases run with ⟨other | value, world⟩
  · simp [afterRun]
  · simpa [afterRun] using hNext value world

theorem cancelRedundant_crashed_iff {pipelineId : Nat} :
    (session.cancelRedundant pipelineId).ending = .crashed fault ↔
      ∃ pipeline, session.store.pipelines.find? pipelineId = some pipeline ∧
        ((PipelineUpkeep.cancelRedundant session.rules session.settings pipeline).run
          session.workspace.world).1 = .error fault := by
  unfold cancelRedundant
  cases hPipeline : session.store.pipelines.find? pipelineId with
  | none => simp [fail, Execution.fail]
  | some pipeline =>
      simp only [Option.some.injEq, exists_eq_left']
      apply afterRun_crashed_iff
      rintro (error | report) world
      · exact nofun
      · exact ending_conclude_ne_crashed _ _ _

theorem createPipeline_crashed_iff {request : CreationRequest} :
    (session.createPipeline request).ending = .crashed fault ↔
      ((createForRequest session.rules session.settings request).run
        session.workspace.world).1 = .error fault := by
  unfold createPipeline
  apply afterRun_crashed_iff
  rintro (error | response) world
  · exact nofun
  · exact ending_conclude_ne_crashed _ _ _

/-- What a creation that crashes leaves is what its run leaves, and no file has changed. -/
theorem createPipeline_of_crashes {request : CreationRequest} {clock : Timestamp} {after : Store}
    (h : Program.Crashes clock (createForRequest session.rules session.settings request)
      session.store after)
    (hWorld : session.workspace.world.Shows session.store clock) :
    ∃ fault, session.createPipeline request = ⟨.crashed fault, session.directory, after, []⟩ := by
  obtain ⟨fault, ending, hRun, hEnding⟩ := h session.workspace.world hWorld
  refine ⟨fault, ?_⟩
  simp only [createPipeline, hRun, afterRun, hEnding.store_eq]

end Session

/-- The commands of a session have a fault because of its window just if it has no start. -/
structure Session.CrashesJustIf (session : Session) (noWindow : Prop) : Prop where
  /-- With a start of the window no run has a fault, whatever disturbs the world. -/
  unharmed : ¬noWindow → ∀ rules : PolicyRules, ∀ world : World,
    world.clock = session.workspace.world.clock → ∀ fault,
      (∀ pipeline, ((PipelineUpkeep.cancelRedundant rules session.settings pipeline).run
        world).1 ≠ .error fault) ∧
      ∀ request, ((createForRequest rules session.settings request).run world).1 ≠ .error fault
  /-- A run crashes if its project is found to cancel. -/
  run_iff : ∀ pipelineId, (∃ fault, (session.cancelRedundant pipelineId).ending = .crashed fault) ↔
    noWindow ∧ ∃ pipeline, session.store.pipelines.find? pipelineId = some pipeline ∧
      pipeline.ReachesForWindow session.rules session.store
  /-- A creation crashes if it is not refused and its project cancels. -/
  creation_iff : ∀ request, (∃ fault, (session.createPipeline request).ending = .crashed fault) ↔
    noWindow ∧ ∃ project head, request.ReachesForWindow session.rules session.store project head
  /-- The creation that crashes has inserted its row and saves nothing. -/
  inserted : ∀ request project head, noWindow →
    request.ReachesForWindow session.rules session.store project head →
      ∃ fault, session.createPipeline request =
        ⟨.crashed fault, session.directory, (session.store.createPipeline
          (request.newPipeline head .created session.workspace.world.clock
            project.newBuilds)).2, []⟩

theorem Session.crashesJustIf {session : Session}
    (hQuiet : session.workspace.world.disturbance = .none) :
    session.CrashesJustIf
      (session.workspace.world.clock.subSeconds? session.settings.lookback = none) := by
  have hWorld : session.workspace.world.Shows session.store session.workspace.world.clock :=
    ⟨rfl, rfl, hQuiet⟩
  have hCreation (request : CreationRequest) (project : Project) (head : RefHead)
      (hNone : session.workspace.world.clock.subSeconds? session.settings.lookback = none)
      (hReaches : request.ReachesForWindow session.rules session.store project head) :
      ∃ fault, session.createPipeline request =
        ⟨.crashed fault, session.directory, (session.store.createPipeline
          (request.newPipeline head .created session.workspace.world.clock
            project.newBuilds)).2, []⟩ :=
    createPipeline_of_crashes (createForRequest_crashes hReaches hNone) hWorld
  constructor
  case unharmed =>
    intro hSome rules world hClock fault
    rw [← hClock] at hSome
    exact ⟨fun pipeline hFault => hSome (cancelRedundant_fault hFault),
      fun request hFault => hSome (createForRequest_fault hFault)⟩
  case run_iff =>
    intro pipelineId
    simp only [cancelRedundant_crashed_iff]
    constructor
    · rintro ⟨fault, pipeline, hPipeline, hFault⟩
      exact ⟨cancelRedundant_fault hFault, pipeline, hPipeline,
        reachesForWindow_of_fault hWorld hFault⟩
    · rintro ⟨hNone, pipeline, hPipeline, hReaches⟩
      obtain ⟨fault, ending, hRun, -⟩ :=
        cancelRedundant_crashes hReaches hNone session.workspace.world hWorld
      exact ⟨fault, pipeline, hPipeline, congrArg Prod.fst hRun⟩
  case creation_iff =>
    intro request
    constructor
    · rintro ⟨fault, hCrashed⟩
      have hFault := createPipeline_crashed_iff.mp hCrashed
      exact ⟨createForRequest_fault hFault, exists_reachesForWindow_of_fault hWorld hFault⟩
    · rintro ⟨hNone, project, head, hReaches⟩
      obtain ⟨fault, hCrash⟩ := hCreation request project head hNone hReaches
      exact ⟨fault, congrArg Execution.ending hCrash⟩
  case inserted => exact hCreation

/-- Which lookbacks crash.  The window has no start just if the hours reach too far back.  Up to
2315167008 hours they never do at a time of the years 1970 to 9999, and more than 2385556536
hours always do.  Where they do not, no run has a fault; where they do, just those commands
crash that need their window. -/
theorem lookback_crashes_iff_too_far {session : Session}
    (hQuiet : session.workspace.world.disturbance = .none)
    (hLeap : session.workspace.world.clock.nanosecond < 2000000000)
    (hEra : 1970 ≤ session.workspace.world.clock.date.year ∧
      session.workspace.world.clock.date.year ≤ 9999) :
    let now := session.workspace.world.clock
    let configuration := session.workspace.configuration
    (now.subSeconds? configuration.cancellationSettings.lookback = none ↔
      configuration.LooksTooFarBack now) ∧
    (configuration.cancellation.lookbackHours ≤ 2315167008 →
      ¬configuration.LooksTooFarBack now) ∧
    (2385556536 < configuration.cancellation.lookbackHours → configuration.LooksTooFarBack now) ∧
    session.CrashesJustIf (configuration.LooksTooFarBack now) := by
  intro now configuration
  have hTooFar : configuration.LooksTooFarBack now ↔
      now.subSeconds? session.settings.lookback = none :=
    Configuration.looksTooFarBack_iff hLeap hEra
  refine ⟨hTooFar.symm, Configuration.not_looksTooFarBack hEra,
    Configuration.looksTooFarBack hEra, ?_⟩
  rw [hTooFar]
  exact Session.crashesJustIf hQuiet

/-- A configuration with that many hours. -/
def Configuration.lookingBack (hours : Nat) : Configuration :=
  { Configuration.standard with
    cancellation := { CancellationSection.standard with lookbackHours := hours } }

/-- A push to `main` on the first of March 2024. -/
def pushSession (hours : Nat) : Session where
  surroundings := ⟨.standard, "/data", ⟨1709289000, 0⟩, fun _ _ => .refused, 0⟩
  invocation := ⟨.createPipeline 1 "main" .push 1, none, some "state.json", false, false⟩
  workspace := ⟨.lookingBack hours, "state.json", World.start youngRef ⟨1709289000, 0⟩⟩
  directory := ⟨["work"], [(["work", "ci-autocancel.toml"],
    "[cancellation]\nlookback-hours = 4294967295\n")], []⟩

/-- With a week the push does not crash. -/
theorem lookback_crashes_iff_too_far_week :
    (pushSession 168).execute.ending ≠ .crashed .windowStartOutOfRange := by
  obtain ⟨-, hNear, -, hCrashes⟩ := lookback_crashes_iff_too_far
    (rfl : (pushSession 168).workspace.world.disturbance = .none) (by decide) (by decide)
  intro hCrashed
  exact hNear (by decide) ((hCrashes.creation_iff _).mp ⟨_, hCrashed⟩).1

/-- With the longest lookback that can be read, a push crashes after its row was inserted. -/
theorem longest_lookback_crashes_push :
    Configuration.load .standard (pushSession 4294967295).directory none =
        .ok (pushSession 4294967295).workspace.configuration ∧
      (pushSession 4294967295).workspace.world.clock.date.year = 2024 ∧
      (pushSession 4294967295).execute.ending = .crashed .windowStartOutOfRange ∧
      (pushSession 4294967295).execute.store.pipelines.rows.map (·.id) = [1] :=
  ⟨by decide +kernel, by decide +kernel, by decide +kernel, by decide +kernel⟩

end PipelineUpkeep
