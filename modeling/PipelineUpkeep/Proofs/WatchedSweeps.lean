import PipelineUpkeep.Command.Execution
import PipelineUpkeep.Proofs.IdleSweeps
import PipelineUpkeep.Proofs.KeptState
/-!
# Watching loses no update

A watch handles one sweep after the other.  A sweep with entries is followed by a save, and
every other sweep has changed nothing.  So if the saves succeed, the file keeps the rows of
the store after every sweep that was handled: this is carried from one sweep to the next, and
between two sweeps time may pass and other parts of the store may begin to fail.  The hook
sees each completed sweep once.
-/

namespace PipelineUpkeep

open Data Time

variable {σ : Type} {context : DeliveryContext} {period : Nat} {hook : SweepHook σ}

/-! ## Handled sweeps -/

/-- The state after a sweep that did not end in a fault. -/
def WatchState.handle (period : Nat) (hook : SweepHook σ)
    (result : Except UpkeepError (List SweepEntry)) (moment : Nat) (swept : World)
    (state : WatchState σ) : WatchState σ :=
  match result with
  | .error error =>
      { state with
        moment
        nextSweep := state.nextSweep + period
        world := swept.addLog ⟨.warn, false, "Schedule sweep failed: " ++ error.message⟩ }
  | .ok entries =>
      let (world, hookState) := hook entries swept state.hookState
      { moment
        nextSweep := state.nextSweep + period
        completed := state.completed + 1
        world
        hookState }

/-- A sweep of a watch that did not end in a fault. -/
structure HandledSweep (σ : Type) where
  result : Except UpkeepError (List SweepEntry)
  before : WatchState σ
  /-- The world at the end of the sweep, before the hook. -/
  swept : World
  after : WatchState σ

/-- The entries of the sweep; a failed one has none. -/
def HandledSweep.entries (sweep : HandledSweep σ) : List SweepEntry :=
  sweep.result.toOption.getD []

/-- The entries of the sweeps that were completed. -/
def completedEntries (sweeps : List (HandledSweep σ)) : List (List SweepEntry) :=
  sweeps.filterMap (·.result.toOption)

/-- The sweeps that a watch has handled since its start, and its state after them.  When a
sweep begins, time has passed, and other calls than before may fail or be disturbed; nobody
else has written to the store. -/
inductive Watched (context : DeliveryContext) (period : Nat) (hook : SweepHook σ)
    (start : WatchState σ) : List (HandledSweep σ) → WatchState σ → Prop where
  | start : Watched context period hook start [] start
  | sweep {sweeps : List (HandledSweep σ)} {state : WatchState σ}
      (h : Watched context period hook start sweeps state) {world : World}
      (hStore : world.store = state.world.store) (hClock : world.clock.IsValid)
      {moment later : Nat} {result : Except UpkeepError (List SweepEntry)} {swept : World}
      (hSweep : sweepAt context moment world.clock world = (.ok result, later, swept)) :
      Watched context period hook start
        (sweeps ++ [⟨result, state, swept, state.handle period hook result later swept⟩])
        (state.handle period hook result later swept)

/-- One more sweep of a watch, or its end. -/
theorem watchFrom_succ (finish count : Nat) (state : WatchState σ) :
    watchFrom context period finish hook (count + 1) state =
      if finish ≤ max state.moment (min finish state.nextSweep) then (none, state.stop)
      else
        match sweepAt context (max state.moment (min finish state.nextSweep)) state.world.clock
            state.world with
        | (.error fault, _, world) => (some fault, { state with world })
        | (.ok result, moment, world) =>
            watchFrom context period finish hook count
              (state.handle period hook result moment world) := by
  rw [watchFrom]
  simp only
  split
  · rfl
  · match sweepAt context (max state.moment (min finish state.nextSweep)) state.world.clock
        state.world with
    | (.error fault, moment, world) => rfl
    | (.ok (.error error), moment, world) => rfl
    | (.ok (.ok entries), moment, world) => rfl

/-- Watching handles some sweeps and then stops, or it ends in the fault of a further one. -/
theorem Watched.exists_of_watchFrom
    (hHook : ∀ entries world hookState, (hook entries world hookState).1.clock = world.clock)
    (finish count : Nat) {start state : WatchState σ} {sweeps : List (HandledSweep σ)}
    (h : Watched context period hook start sweeps state) (hClock : state.world.clock.IsValid) :
    ∃ all last, Watched context period hook start all last ∧
      (watchFrom context period finish hook count state = (none, last.stop) ∨
        ∃ fault world, watchFrom context period finish hook count state =
          (some fault, { last with world })) := by
  -- The sweeps so far grow with each step, and the clock stays valid.
  induction count generalizing state sweeps with
  | zero => exact ⟨sweeps, state, h, Or.inl rfl⟩
  | succ count ih =>
      rw [watchFrom_succ]
      split
      · exact ⟨sweeps, state, h, Or.inl rfl⟩
      · match hSweep : sweepAt context (max state.moment (min finish state.nextSweep))
            state.world.clock state.world with
        | (.error fault, moment, world) => exact ⟨sweeps, state, h, Or.inr ⟨fault, world, rfl⟩⟩
        | (.ok result, moment, swept) =>
            have hStill := (sweepAt_disturbed hClock hSweep).2.1
            have hNext := h.sweep rfl hClock hSweep
            refine ih hNext ?_
            cases result with
            | error error => exact hStill ▸ hClock
            | ok entries =>
                have hSame := hHook entries swept state.hookState
                exact (hSame.trans hStill) ▸ hClock

/-! ## Calls of the hook -/

/-- The hook, with a list of its calls. -/
def SweepHook.recorded (hook : SweepHook σ) : SweepHook (σ × List (List SweepEntry)) :=
  fun entries world (hookState, calls) =>
    let (world, hookState) := hook entries world hookState
    (world, hookState, calls ++ [entries])

/-- The same watch without the list. -/
def WatchState.unrecorded (state : WatchState (σ × List (List SweepEntry))) : WatchState σ :=
  { state with hookState := state.hookState.1 }

theorem unrecorded_handle (result : Except UpkeepError (List SweepEntry)) (moment : Nat)
    (swept : World) (state : WatchState (σ × List (List SweepEntry))) :
    (state.handle period hook.recorded result moment swept).unrecorded =
      state.unrecorded.handle period hook result moment swept := by
  cases result <;> rfl

/-- Keeping a list of the calls changes nothing else. -/
theorem watchFrom_recorded (finish count : Nat) (state : WatchState (σ × List (List SweepEntry))) :
    watchFrom context period finish hook count state.unrecorded =
      ((watchFrom context period finish hook.recorded count state).1,
        (watchFrom context period finish hook.recorded count state).2.unrecorded) := by
  induction count generalizing state with
  | zero => rfl
  | succ count ih =>
      rw [watchFrom_succ, watchFrom_succ]
      change (if finish ≤ max state.moment (min finish state.nextSweep) then _ else
        match sweepAt context (max state.moment (min finish state.nextSweep)) state.world.clock
            state.world with
        | (.error fault, _, world) => _
        | (.ok result, moment, world) => _) = _
      split
      · rfl
      · match sweepAt context (max state.moment (min finish state.nextSweep)) state.world.clock
            state.world with
        | (.error fault, moment, world) => rfl
        | (.ok result, moment, swept) =>
            have hNext := ih (state.handle period hook.recorded result moment swept)
            rw [unrecorded_handle] at hNext
            exact hNext

/-- The hook is called once for each completed sweep, with its entries. -/
theorem Watched.calls_eq {start state : WatchState (σ × List (List SweepEntry))}
    {sweeps : List (HandledSweep (σ × List (List SweepEntry)))}
    (h : Watched context period hook.recorded start sweeps state) :
    state.hookState.2 = start.hookState.2 ++ completedEntries sweeps ∧
      state.completed = start.completed + (completedEntries sweeps).length := by
  induction h with
  | start => exact ⟨(List.append_nil _).symm, rfl⟩
  | sweep h hStore hClock hSweep ih =>
      rename_i result swept
      obtain ⟨hCalls, hCompleted⟩ := ih
      rw [completedEntries, List.filterMap_append, ← completedEntries]
      cases result with
      | error error =>
          simpa only [WatchState.handle, Except.toOption, List.filterMap_cons, List.filterMap_nil,
            List.append_nil] using ⟨hCalls, hCompleted⟩
      | ok entries =>
          refine ⟨?_, ?_⟩
          · change _ ++ [entries] = _
            rw [hCalls, List.append_assoc]
            rfl
          · change _ + 1 = _
            rw [hCompleted, List.length_append]
            rfl

/-- A watch from its beginning, for any span of time. -/
theorem Watched.exists_of_watch
    (hHook : ∀ entries world hookState, (hook entries world hookState).1.clock = world.clock)
    (periodMs spanMs : Nat) (hookState : σ) {world : World} (hClock : world.clock.IsValid) :
    ∃ sweeps state, Watched context (periodMs * 1000000) hook.recorded
        ⟨0, 0, 0, world, (hookState, [])⟩ sweeps state ∧
      (watch context periodMs spanMs hook hookState world = (none, state.stop.unrecorded) ∨
        ∃ fault ended, watch context periodMs spanMs hook hookState world =
          (some fault, WatchState.unrecorded { state with world := ended })) := by
  have hRecorded : ∀ entries world (hookState : σ × List (List SweepEntry)),
      (hook.recorded entries world hookState).1.clock = world.clock :=
    fun entries world hookState => hHook entries world hookState.1
  have hStart : Watched context (periodMs * 1000000) hook.recorded
      ⟨0, 0, 0, world, (hookState, [])⟩ [] ⟨0, 0, 0, world, (hookState, [])⟩ := .start
  obtain ⟨sweeps, state, hWatched, hEnd⟩ :=
    exists_of_watchFrom hRecorded (spanMs * 1000000) (spanMs / periodMs + 1) hStart hClock
  have hSame : watch context periodMs spanMs hook hookState world = _ :=
    watchFrom_recorded (spanMs * 1000000) (spanMs / periodMs + 1)
      ⟨0, 0, 0, world, (hookState, [])⟩
  refine ⟨sweeps, state, hWatched, ?_⟩
  rw [hSame]
  rcases hEnd with hStop | ⟨fault, ended, hFault⟩
  · left
    rw [hStop]
  · right
    exact ⟨fault, ended, by rw [hFault]⟩

/-! ## The watch of a session -/

namespace Session

variable {session : Session}

/-- The sweeps that the watch of a session has handled, and its state after them: its
directory, and the calls of its hook. -/
def Watches (session : Session)
    (sweeps : List (HandledSweep (Directory × List (List SweepEntry))))
    (state : WatchState (Directory × List (List SweepEntry))) : Prop :=
  Watched session.context (session.workspace.configuration.sweepInterval * 1000 * 1000000)
    session.saveSweep.recorded ⟨0, 0, 0, session.workspace.world, (session.directory, [])⟩
    sweeps state

/-- If there was something to save after the sweep, it was saved.  Rows of the program have
numbers of 64 bits. -/
def HasSaved (session : Session)
    (sweep : HandledSweep (Directory × List (List SweepEntry))) : Prop :=
  sweep.entries ≠ [] → sweep.swept.store.HasIds ∧
    ∃ saved, session.workspace.save session.surroundings sweep.swept sweep.before.hookState.1 =
      .ok saved

/-- The file keeps the rows of the store, and these can be written again. -/
structure KeepsRows (session : Session)
    (state : WatchState (Directory × List (List SweepEntry))) : Prop where
  kept : state.world.store.IsKept session.surroundings.codec state.hookState.1
    session.workspace.statePath
  timely : state.world.store.IsTimely

/-- Saving only adds to the log. -/
theorem world_saveSweep (entries : List SweepEntry) (world : World) (directory : Directory) :
    (session.saveSweep entries world directory).1.store = world.store ∧
      (session.saveSweep entries world directory).1.clock = world.clock := by
  unfold saveSweep
  split
  · exact ⟨rfl, rfl⟩
  · split <;> exact ⟨rfl, rfl⟩

/-- The rows stay as the sweep has left them. -/
theorem store_handle (session : Session) (period : Nat)
    (result : Except UpkeepError (List SweepEntry)) (moment : Nat) (swept : World)
    (state : WatchState (Directory × List (List SweepEntry))) :
    (state.handle period session.saveSweep.recorded result moment swept).world.store =
      swept.store := by
  cases result with
  | error error => rfl
  | ok entries => exact (world_saveSweep entries swept state.hookState.1).1

/-- One more sweep. -/
theorem KeepsRows.handle
    (hCodec : session.surroundings.codec.KeepsStates session.workspace.statePath) (period : Nat)
    {state : WatchState (Directory × List (List SweepEntry))} (h : session.KeepsRows state)
    {world swept : World} (hStore : world.store = state.world.store)
    (hClock : world.clock.IsValid) {moment later : Nat}
    {result : Except UpkeepError (List SweepEntry)}
    (hSweep : sweepAt session.context moment world.clock world = (.ok result, later, swept))
    (hSaved : result.toOption.getD [] ≠ [] → swept.store.HasIds ∧
      ∃ saved, session.workspace.save session.surroundings swept state.hookState.1 = .ok saved) :
    session.KeepsRows
      (state.handle period session.saveSweep.recorded result later swept) := by
  obtain ⟨hTimely, -, hIdle⟩ := sweepAt_disturbed hClock hSweep
  rw [hStore] at hTimely hIdle
  have hSwept : swept.store.IsTimely := hTimely h.timely
  -- Nothing is written here, but then nothing has changed.
  have hUnsaved (hNone : result.toOption.getD [] = []) :
      swept.store.IsKept session.surroundings.codec state.hookState.1
        session.workspace.statePath := by
    rw [hIdle hNone]
    exact h.kept
  match result with
  | .error error => exact ⟨hUnsaved rfl, hSwept⟩
  | .ok [] => exact ⟨hUnsaved rfl, hSwept⟩
  | .ok (entry :: entries) =>
      obtain ⟨hIds, saved, hSave⟩ := hSaved nofun
      have hHook : session.saveSweep (entry :: entries) swept state.hookState.1 =
          (swept, saved) := by
        simp only [saveSweep, List.isEmpty_cons, Bool.false_eq_true, if_false, hSave]
      simp only [WatchState.handle, SweepHook.recorded, hHook]
      exact ⟨hSwept.isKept_of_save hCodec hIds hSave, hSwept⟩

/-- All sweeps of a watch. -/
theorem KeepsRows.watched
    (hCodec : session.surroundings.codec.KeepsStates session.workspace.statePath)
    {start state : WatchState (Directory × List (List SweepEntry))}
    {sweeps : List (HandledSweep (Directory × List (List SweepEntry)))}
    (hStart : session.KeepsRows start)
    (h : Watched session.context period session.saveSweep.recorded start sweeps state)
    (hSaved : ∀ sweep ∈ sweeps, session.HasSaved sweep) :
    session.KeepsRows state ∧ ∀ sweep ∈ sweeps, session.KeepsRows sweep.after := by
  induction h with
  | start => exact ⟨hStart, List.forall_mem_nil _⟩
  | sweep h hStore hClock hSweep ih =>
      obtain ⟨hBefore, hLast⟩ := List.forall_mem_append.1 hSaved
      obtain ⟨hState, hEarlier⟩ := ih hBefore
      have hNext := hState.handle hCodec period hStore hClock hSweep
        (List.forall_mem_singleton.1 hLast)
      exact ⟨hNext, List.forall_mem_append.2 ⟨hEarlier, List.forall_mem_singleton.2 hNext⟩⟩

end Session

/-- After each handled sweep of a watch, loading the state file gives the rows of the store,
though only sweeps with entries are saved, if each save that was attempted succeeded.  The
hook has been called once for each completed sweep with its entries, and these are counted.
The command is such a watch, and ends with its files and, unless it ends in a fault, with its
rows. -/
theorem watching_loses_no_update {session : Session} {directory : Directory}
    (hLoad : Workspace.load session.surroundings session.invocation directory =
      (.ok session.workspace, session.directory))
    (hClock : session.surroundings.clock.IsValid)
    (hCodec : session.surroundings.codec.KeepsStates session.workspace.statePath) :
    (∀ sweeps state, session.Watches sweeps state →
      ((∀ sweep ∈ sweeps, session.HasSaved sweep) →
        ∀ sweep ∈ sweeps, sweep.after.world.store.IsKept session.surroundings.codec
          sweep.after.hookState.1 session.workspace.statePath) ∧
      state.hookState.2 = completedEntries sweeps ∧
      state.completed = (completedEntries sweeps).length) ∧
    ∃ sweeps state, session.Watches sweeps state ∧
      (watch session.context (session.workspace.configuration.sweepInterval * 1000)
        session.surroundings.interruptAfter session.saveSweep session.directory
        session.workspace.world).2.completed = state.completed ∧
      session.sweepUntilInterrupted.directory = state.hookState.1 ∧
      ∀ printed, session.sweepUntilInterrupted.ending = .done printed →
        session.sweepUntilInterrupted.store = state.world.store := by
  have hFresh := Workspace.isFresh_of_load hLoad
  refine ⟨fun sweeps state hWatches => ?_, ?_⟩
  · have hStart : session.KeepsRows
        ⟨0, 0, 0, session.workspace.world, (session.directory, [])⟩ := ⟨hFresh.kept, hFresh.timely⟩
    obtain ⟨hCalls, hCompleted⟩ := Watched.calls_eq hWatches
    refine ⟨fun hSaved sweep hSweep => ?_, hCalls, hCompleted.trans (Nat.zero_add _)⟩
    obtain ⟨-, hKeeps⟩ := hStart.watched hCodec hWatches hSaved
    exact (hKeeps sweep hSweep).kept
  · obtain ⟨sweeps, state, hWatches, hEnd⟩ := Watched.exists_of_watch
      (fun entries world directory => (Session.world_saveSweep entries world directory).2)
      (session.workspace.configuration.sweepInterval * 1000) session.surroundings.interruptAfter
      session.directory (hFresh.clock_eq ▸ hClock)
    refine ⟨sweeps, state, hWatches, ?_⟩
    rcases hEnd with hStop | ⟨fault, ended, hFault⟩
    · rw [Session.sweepUntilInterrupted, hStop]
      exact ⟨rfl, rfl, fun _ _ => rfl⟩
    · rw [Session.sweepUntilInterrupted, hFault]
      exact ⟨rfl, rfl, nofun⟩

/-- A watch that starts at noon. -/
def noonWatch : Session where
  surroundings := noonSurroundings
  invocation := noonInvocation (.sweep true)
  workspace := noonWorkspace
  directory := noonDirectory

/-- Its first sweep. -/
def noonSweep : Except Fault (Except UpkeepError (List SweepEntry)) × Nat × World :=
  sweepAt noonWatch.context 0 noonWorkspace.world.clock noonWorkspace.world

def noonEntries : List SweepEntry :=
  [⟨1, .created 1⟩, ⟨2, .created 2⟩, ⟨4, .creationFailed "Reference not found"⟩]

/-- A minute later the store cannot list its due schedules. -/
def aMinuteLater (world : World) : World :=
  { world with
    clock := ⟨43260, 0⟩
    disturbance := { Disturbance.none with
      failures := [⟨.dueSchedules, none, none, none, .poisoned⟩] } }

theorem sweepAt_aMinuteLater (context : DeliveryContext) (moment : Nat) (world : World) :
    sweepAt context moment (aMinuteLater world).clock (aMinuteLater world) =
      (.ok (.error (.store .poisoned)), moment, aMinuteLater world) := by
  have hClaims : (claimAllDue (aMinuteLater world).clock).run (aMinuteLater world) =
      (.ok (.error (.store .poisoned)), aMinuteLater world) := rfl
  rw [sweepAt, hClaims]

/-- A sweep that fires, and one that fails. -/
theorem watching_loses_no_update_noon :
    ∃ sweeps state, noonWatch.Watches sweeps state ∧
      sweeps.map (·.result.toOption) = [some noonEntries, none] ∧
      (∀ sweep ∈ sweeps, sweep.after.world.store.IsKept Codec.standard
        sweep.after.hookState.1 "state.json") ∧
      state.completed = 1 := by
  have hEntries : noonSweep.1 = .ok (.ok noonEntries) := by decide +kernel
  have hIds : noonSweep.2.2.store.HasIds := by decide +kernel
  -- From here on it does not matter how the sweep went.
  generalize hSweep : noonSweep = run at hEntries hIds
  obtain ⟨result, moment, swept⟩ := run
  obtain rfl : result = .ok (.ok noonEntries) := hEntries
  have hStart : noonWatch.Watches [] _ := .start
  have hFirst := hStart.sweep rfl (by decide) hSweep
  have hTime : (Timestamp.mk 43260 0).IsValid := by decide
  have hSecond := hFirst.sweep
    (show (aMinuteLater swept).store = _ from (noonWatch.store_handle _ _ _ swept _).symm) hTime
    (sweepAt_aMinuteLater noonWatch.context 0 swept)
  have hFormat : Snapshot.fileFormat "state.json" = .json := by decide
  have hSave := swept.store.snapshot.save_json hFormat accepts_noonDirectory
  obtain ⟨hKept, -, hCompleted⟩ := (@watching_loses_no_update noonWatch noonDirectory
    (load_noonDirectory _) (by decide) (Codec.standard_keepsStates hFormat)).1 _ _ hSecond
  refine ⟨_, _, hSecond, rfl, hKept ?_, hCompleted⟩
  exact List.forall_mem_cons.2 ⟨fun _ => ⟨hIds, _, hSave⟩,
    List.forall_mem_singleton.2 fun hNone => absurd rfl hNone⟩

end PipelineUpkeep
