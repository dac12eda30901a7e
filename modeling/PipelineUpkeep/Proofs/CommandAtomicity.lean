import PipelineUpkeep.Command.Execution
import PipelineUpkeep.Proofs.IdleSweeps
import PipelineUpkeep.Proofs.KeptState
/-!
# Commands save all or nothing

A command writes one file, and writing it is the last step that can fail.  So an error leaves
every file as it was, although the rows in memory may have changed by then.  A command that
works on the state ends well only after it has saved the rows that it ends with.
-/

namespace PipelineUpkeep

open Data Time

/-- The command saves the state before it ends well.  A watch does so between its sweeps. -/
def Command.savesState : Command → Bool
  | .cancelRedundant _ | .createPipeline .. | .runSchedule .. | .sweep false | .syncHeads .. => true
  | .sweep true | .list _ | .writeConfiguration .. => false

namespace Session

variable {session : Session} {execution : Execution}

/-- The instants that the command has found exist. -/
structure StartsTimely (session : Session) : Prop where
  store : session.workspace.world.store.IsTimely
  clock : session.workspace.world.clock.IsValid

/-- An error has left the directory alone. -/
def FailsCleanly (session : Session) (execution : Execution) : Prop :=
  ∀ message, execution.ending = .failed message → execution.directory = session.directory

/-- All or nothing: a command that has ended well has saved the rows that it ended with, and
these can be loaded again. -/
structure IsAtomic (session : Session) (execution : Execution) : Prop where
  failed : session.FailsCleanly execution
  saved : ∀ printed, execution.ending = .done printed →
    execution.store.snapshot.save session.surroundings.codec session.workspace.statePath
      session.directory = .ok execution.directory
  timely : ∀ printed, execution.ending = .done printed → session.StartsTimely →
    execution.store.IsTimely

/-! ## Ends -/

theorem isAtomic_fail (message : String) (store : Store) :
    session.IsAtomic (session.fail message store) where
  failed _ _ := rfl
  saved := nofun
  timely := nofun

theorem isAtomic_conclude {world : World} (h : session.StartsTimely → world.store.IsTimely)
    (json : Value) (screen : String) : session.IsAtomic (session.conclude world json screen) := by
  unfold conclude
  split
  · exact isAtomic_fail _ _
  · rename_i hSave
    exact ⟨nofun, fun _ _ => hSave, fun _ _ => h⟩

/-- Requests are no part of the end. -/
theorem IsAtomic.withRequests (h : session.IsAtomic execution) (requests : List WebRequest) :
    session.IsAtomic { execution with requests } :=
  ⟨h.failed, h.saved, h.timely⟩

section AfterRun

variable {α : Type} {next : α → World → Execution}

theorem isAtomic_afterRun {run : Except Fault α × World}
    (hNext : ∀ value world, run = (.ok value, world) → session.IsAtomic (next value world)) :
    session.IsAtomic (session.afterRun run next) := by
  match run with
  | (.error fault, world) => exact ⟨nofun, nofun, nofun⟩
  | (.ok value, world) => exact hNext value world rfl

/-- A program that brings only instants that exist may run before the end. -/
theorem isAtomic_run {program : Program α}
    (hProgram : ∀ store, program.Fulfills timelyTerms (fun _ _ _ => True) [] store)
    (hNext : ∀ value world, (session.StartsTimely → world.store.IsTimely) →
      session.IsAtomic (next value world)) :
    session.IsAtomic (session.afterRun (program.run session.workspace.world) next) := by
  refine isAtomic_afterRun fun value world hRun => hNext value world fun hStart => ?_
  obtain ⟨hTimely, -, -⟩ := (hProgram _).run_disturbed (fun _ _ => id) hStart.clock
  rw [hRun] at hTimely
  exact hTimely hStart.store

end AfterRun

/-! ## Commands -/

theorem isAtomic_cancelRedundant (pipelineId : Nat) :
    session.IsAtomic (session.cancelRedundant pipelineId) := by
  unfold cancelRedundant
  split
  · exact isAtomic_fail _ _
  · refine isAtomic_run (fun _ => cancelRedundant_timely _ _ _) fun result world hRun => ?_
    cases result with
    | error error => exact isAtomic_fail _ _
    | ok report => exact isAtomic_conclude hRun _ _

theorem isAtomic_createPipeline (request : CreationRequest) :
    session.IsAtomic (session.createPipeline request) := by
  refine isAtomic_run (fun _ => createForRequest_timely _ _ _) fun result world hRun => ?_
  cases result with
  | error error => exact isAtomic_fail _ _
  | ok response => exact isAtomic_conclude hRun _ _

theorem isAtomic_runSchedule (scheduleId userId : Nat) (nextRunScheduled : Bool) :
    session.IsAtomic (session.runSchedule scheduleId userId nextRunScheduled) :=
  isAtomic_run (fun _ => deliver_timely _ _ _ _) fun _ _ hRun => isAtomic_conclude hRun _ _

theorem isAtomic_sweepOnce : session.IsAtomic session.sweepOnce := by
  -- The deliveries run side by side, so a sweep is not the run of one program.
  refine isAtomic_afterRun fun result world hRun => ?_
  have hTimely (hStart : session.StartsTimely) : world.store.IsTimely := by
    unfold sweep at hRun
    obtain ⟨hResult, rfl⟩ := Prod.mk.inj hRun
    exact (sweepAt_disturbed hStart.clock (Prod.ext hResult rfl)).1 hStart.store
  cases result with
  | error error => exact isAtomic_fail _ _
  | ok entries => exact isAtomic_conclude hTimely _ _

/-- Heads carry no instants. -/
theorem isTimely_storeHeads {store : Store} (h : store.IsTimely) (heads : List RefHead) :
    (storeHeads store heads).IsTimely := by
  induction heads generalizing store with
  | nil => exact h
  | cons head rest ih => exact ih ⟨h.pipelines, h.schedules⟩

theorem isAtomic_syncHeads (projectId : Nat) (refs : List String) (token : Option String) :
    session.IsAtomic (session.syncHeads projectId refs token) := by
  unfold syncHeads
  split
  · exact isAtomic_fail _ _
  · simp only
    split
    · exact isAtomic_fail _ _
    · refine IsAtomic.withRequests (isAtomic_conclude (fun hStart => ?_) _ _) _
      exact isTimely_storeHeads hStart.store _

theorem failsCleanly_sweepUntilInterrupted :
    session.FailsCleanly session.sweepUntilInterrupted := by
  unfold sweepUntilInterrupted
  generalize watch session.context _ _ session.saveSweep session.directory _ = watched
  obtain ⟨_ | fault, state⟩ := watched <;> exact nofun

theorem failsCleanly_writeConfiguration (path : String) (force : Bool) :
    session.FailsCleanly (session.writeConfiguration path force) := by
  unfold writeConfiguration
  split
  · exact fun _ _ => rfl
  · split
    · exact fun _ _ => rfl
    · exact nofun

-- A watch, a listing and a written configuration end well without a save of the state, so for
-- them only the failures are settled.
theorem isAtomic_execute (hCommand : session.invocation.command.savesState = true) :
    session.IsAtomic session.execute := by
  unfold execute
  match h : session.invocation.command with
  | .cancelRedundant pipelineId => exact isAtomic_cancelRedundant pipelineId
  | .createPipeline projectId ref source userId => exact isAtomic_createPipeline _
  | .runSchedule scheduleId userId nextRunScheduled => exact isAtomic_runSchedule _ _ _
  | .sweep false => exact isAtomic_sweepOnce
  | .syncHeads projectId refs token => exact isAtomic_syncHeads _ _ _
  | .sweep true | .list _ | .writeConfiguration .. =>
      rw [h] at hCommand
      cases hCommand

/-- The other commands fail as cleanly. -/
theorem failsCleanly_execute : session.FailsCleanly session.execute := by
  by_cases hCommand : session.invocation.command.savesState = true
  · exact (isAtomic_execute hCommand).failed
  · unfold execute
    match h : session.invocation.command with
    | .sweep true => exact failsCleanly_sweepUntilInterrupted
    | .list projectId => exact nofun
    | .writeConfiguration path force => exact failsCleanly_writeConfiguration path force
    | .cancelRedundant _ | .createPipeline .. | .runSchedule .. | .sweep false | .syncHeads .. =>
        rw [h] at hCommand
        exact absurd rfl hCommand

end Session

/-! ## Invocations -/

/-- A command that ends with an error has changed no file and made none.  A command that works
on the state and ends well has made its state file keep the rows that it ended with, if their
numbers have 64 bits and the codec reads back what it writes there. -/
theorem commands_save_all_or_nothing (invocation : Invocation) {surroundings : Surroundings}
    (directory : Directory) (hClock : surroundings.clock.IsValid) :
    (∀ message, (invocation.execute surroundings directory).ending = .failed message →
      (invocation.execute surroundings directory).directory.files = directory.files) ∧
    ∀ printed, (invocation.execute surroundings directory).ending = .done printed →
      invocation.command.savesState = true →
      ∃ path, (surroundings.locateState invocation.statePath directory).1 = .ok path ∧
        (surroundings.codec.KeepsStates path →
          (invocation.execute surroundings directory).store.HasIds →
          (invocation.execute surroundings directory).store.IsKept surroundings.codec
            (invocation.execute surroundings directory).directory path) := by
  have hFiles := Workspace.files_load surroundings invocation directory
  unfold Invocation.execute
  split
  · rename_i hLoad
    rw [hLoad] at hFiles
    exact ⟨fun _ _ => hFiles, nofun⟩
  · rename_i workspace loaded hLoad
    rw [hLoad] at hFiles
    obtain ⟨hLocate, -⟩ := Workspace.exists_of_load hLoad
    have hFresh := Workspace.isFresh_of_load hLoad
    refine ⟨fun message hEnding => ?_, fun printed hEnding hCommand =>
      ⟨workspace.statePath, congrArg Prod.fst hLocate, fun hCodec hIds => ?_⟩⟩
    · rw [Session.failsCleanly_execute message hEnding]
      exact hFiles
    · have hWhole : Session.IsAtomic ⟨surroundings, invocation, workspace, loaded⟩ _ :=
        Session.isAtomic_execute hCommand
      have hTimely := hWhole.timely printed hEnding ⟨hFresh.timely, hFresh.clock_eq ▸ hClock⟩
      exact hTimely.isKept_of_save hCodec hIds (hWhole.saved printed hEnding)

/-- A delivery whose state is saved. -/
theorem Session.execute_of_delivery {session : Session} {scheduleId userId : Nat}
    {nextRunScheduled : Bool} {outcome : DeliveryOutcome} {world : World} {after : Directory}
    (hCommand : session.invocation.command = .runSchedule scheduleId userId nextRunScheduled)
    (hRun : (deliver session.context scheduleId userId nextRunScheduled).run
      session.workspace.world = (.ok outcome, world))
    (hSave : session.workspace.save session.surroundings world session.directory = .ok after) :
    ∃ printed, session.execute = ⟨.done printed, after, world.store, []⟩ := by
  simp only [execute, hCommand, runSchedule, hRun, afterRun, conclude, hSave]
  exact ⟨_, rfl⟩

/-- A cancellation without its pipeline. -/
theorem Session.execute_of_missing {session : Session} {pipelineId : Nat}
    (hCommand : session.invocation.command = .cancelRedundant pipelineId)
    (hMissing : session.workspace.world.store.pipelines.find? pipelineId = none) :
    session.execute =
      session.fail s!"Pipeline {pipelineId} not found" session.workspace.world.store := by
  simp only [execute, hCommand, cancelRedundant, store, hMissing]

/-- A command at noon. -/
def noonSession (command : Command) : Session :=
  ⟨noonSurroundings, noonInvocation command, noonWorkspace, noonDirectory⟩

theorem execute_noonInvocation (command : Command) :
    (noonInvocation command).execute noonSurroundings noonDirectory =
      (noonSession command).execute := by
  rw [Invocation.execute, load_noonDirectory, noonSession]

/-- Deliver the first schedule. -/
def noonDelivery : Command := .runSchedule 1 1 true

/-- What comes of the delivery. -/
def noonOutcome : Except Fault DeliveryOutcome × World :=
  (deliver (noonSession noonDelivery).context 1 1 true).run noonWorkspace.world

/-- A delivery that is saved, and a cancellation without its pipeline. -/
theorem commands_save_all_or_nothing_noon :
    (∃ delivered, (noonInvocation noonDelivery).execute noonSurroundings noonDirectory = delivered ∧
      delivered.store.pipelines.rows.map (·.id) = [1] ∧
      delivered.store.IsKept Codec.standard delivered.directory "state.json") ∧
    ∃ failed, (noonInvocation (.cancelRedundant 99)).execute noonSurroundings noonDirectory =
        failed ∧
      failed.ending = .failed "Pipeline 99 not found" ∧
      failed.directory.files = noonDirectory.files := by
  have hOutcome : noonOutcome.1 = .ok (.created 1) := by decide +kernel
  have hIds : noonOutcome.2.store.HasIds := by decide +kernel
  have hRows : noonOutcome.2.store.pipelines.rows.map (·.id) = [1] := by decide +kernel
  have hNone : noonWorkspace.world.store.pipelines.find? 99 = none := by decide +kernel
  have hFormat : Snapshot.fileFormat "state.json" = .json := by decide
  have hClock : noonSurroundings.clock.IsValid := by decide
  -- From here on it does not matter how the delivery went.
  generalize hRun : noonOutcome = run at hOutcome hIds hRows
  obtain ⟨result, world⟩ := run
  obtain rfl : result = .ok (.created 1) := hOutcome
  have hSave := world.store.snapshot.save_json hFormat accepts_noonDirectory
  obtain ⟨printed, hDone⟩ := (noonSession noonDelivery).execute_of_delivery rfl hRun hSave
  have hMissing := (noonSession (.cancelRedundant 99)).execute_of_missing rfl hNone
  have hDelivery := commands_save_all_or_nothing (noonInvocation noonDelivery) noonDirectory hClock
  have hCancellation :=
    commands_save_all_or_nothing (noonInvocation (.cancelRedundant 99)) noonDirectory hClock
  rw [execute_noonInvocation, hDone] at hDelivery
  rw [execute_noonInvocation, hMissing] at hCancellation
  refine ⟨⟨_, (execute_noonInvocation _).trans hDone, hRows, ?_⟩,
    ⟨_, (execute_noonInvocation _).trans hMissing, rfl, hCancellation.1 _ rfl⟩⟩
  obtain ⟨path, hPath, hKept⟩ := hDelivery.2 printed rfl rfl
  obtain rfl : "state.json" = path := Except.ok.inj hPath
  exact hKept (Codec.standard_keepsStates hFormat) hIds

end PipelineUpkeep
