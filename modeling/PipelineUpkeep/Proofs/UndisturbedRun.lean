import PipelineUpkeep.Proofs.Interleaving
/-!
# Runs without other writers

In a world that nobody disturbs, what a program returns and the store it leaves
depend on the store and the clock at its start, and not on the log, the audit trail
or the counters.  `Program.Returns` states both at once; the lemmas below give it
for each request and for programs put one after the other.
-/

namespace PipelineUpkeep

open Time

/-- The world holds a store, shows a time, and no call in it fails or is preceded by
another writer's. -/
structure World.Shows (world : World) (store : Store) (clock : Timestamp) : Prop where
  store_eq : world.store = store
  clock_eq : world.clock = clock
  undisturbed : world.disturbance = .none

namespace World

variable {world : World} {store : Store} {clock : Timestamp}

theorem Shows.addLog (h : world.Shows store clock) (entry : LogEntry) :
    (world.addLog entry).Shows store clock :=
  ⟨h.store_eq, h.clock_eq, h.undisturbed⟩

theorem Shows.logCall (h : world.Shows store clock) (call : StoreCall)
    (result : Except StoreError call.Answer) : (world.logCall call result).Shows store clock := by
  unfold World.logCall
  split
  · exact h.addLog _
  · exact h

/-- A call of an undisturbed store is performed as it is. -/
theorem Shows.callStore (h : world.Shows store clock) (access : Access) (call : StoreCall) :
    (world.callStore access call).1 = (call.perform store).1 ∧
      (world.callStore access call).2.Shows (call.perform store).2 clock := by
  have hPerform : world.disturbance.perform access call world.store =
      ((call.perform store).1, Disturbance.none, (call.perform store).2) := by
    rw [h.undisturbed, h.store_eq]
    exact Disturbance.perform_none access call store
  have hPerformed : World.Shows
      { world with disturbance := .none, store := (call.perform store).2 }
      (call.perform store).2 clock := ⟨rfl, h.clock_eq, rfl⟩
  unfold World.callStore
  rw [hPerform]
  exact ⟨rfl, hPerformed.logCall call _⟩

end World

namespace Program

variable {α β : Type} {clock : Timestamp} {before middle after : Store}

/-- Whatever else an undisturbed world holds, the program run in it from `before`
returns `value` and leaves `after`. -/
def Returns (clock : Timestamp) (program : Program α) (before : Store) (value : α)
    (after : Store) : Prop :=
  ∀ world : World, world.Shows before clock →
    ∃ ending, program.run world = (.ok value, ending) ∧ ending.Shows after clock

theorem returns_pure (value : α) (store : Store) :
    Returns clock (pure value) store value store :=
  fun world h => ⟨world, rfl, h⟩

theorem Returns.bind {program : Program α} {next : α → Program β} {value : α} {result : β}
    (h : Returns clock program before value middle)
    (hNext : Returns clock (next value) middle result after) :
    Returns clock (program >>= next) before result after := by
  intro world hWorld
  obtain ⟨between, hRun, hBetween⟩ := h world hWorld
  obtain ⟨ending, hRest, hEnding⟩ := hNext between hBetween
  refine ⟨ending, ?_, hEnding⟩
  rw [run_bind, hRun]
  exact hRest

theorem returns_callStore (clock : Timestamp) (access : Access) (call : StoreCall)
    (store : Store) :
    Returns clock (callStore access call) store (call.perform store).1
      (call.perform store).2 := by
  intro world hWorld
  obtain ⟨hResult, hShows⟩ := hWorld.callStore access call
  refine ⟨(world.callStore access call).2, ?_, hShows⟩
  rw [← hResult]
  rfl

theorem returns_writeLog (level : LogLevel) (message : String) (store : Store) :
    Returns clock (writeLog level message) store () store :=
  fun world hWorld => ⟨world.addLog _, rfl, hWorld.addLog _⟩

theorem returns_debug (message : String) (store : Store) :
    Returns clock (debug message) store () store :=
  returns_writeLog _ _ _

theorem returns_info (message : String) (store : Store) :
    Returns clock (info message) store () store :=
  returns_writeLog _ _ _

theorem returns_readClock (store : Store) : Returns clock readClock store clock store :=
  fun world hWorld => ⟨world, by rw [← hWorld.clock_eq]; rfl, hWorld⟩

/-- An audit record changes no row, whatever becomes of it. -/
theorem returns_emit (entry : AuditRecord) (store : Store) :
    Returns clock (emit entry) store () store := by
  rintro ⟨stored, disturbance, time, trail, log, audit, failures⟩ ⟨hStore, hClock, hQuiet⟩
  cases trail with
  | keep => exact ⟨_, rfl, ⟨hStore, hClock, hQuiet⟩⟩
  | toLog => exact ⟨_, rfl, ⟨hStore, hClock, hQuiet⟩⟩
  | offline => exact ⟨_, rfl, ⟨hStore, hClock, hQuiet⟩⟩

end Program

/-! ## Runs as histories -/

/-- One client alone with a store. -/
def System.solo {β : Type} (store : Store) (program : Program β) : System fun _ : Unit => β :=
  ⟨store, fun _ => program⟩

theorem System.resume_solo {β : Type} (store after : Store) (program rest : Program β) :
    (System.solo store program).resume () rest after = System.solo after rest := rfl

/-- An undisturbed world answers a request as it may be answered, and stays undisturbed. -/
theorem World.occurs_answer {world : World} (hQuiet : world.disturbance = .none)
    (asked : Request) :
    asked.Occurs world.store (world.answer asked).1 (world.answer asked).2.store ∧
      (world.answer asked).2.disturbance = .none := by
  match asked with
  | .store access call =>
      have hShows : world.Shows world.store world.clock := ⟨rfl, rfl, hQuiet⟩
      obtain ⟨hAnswer, hAfter⟩ := hShows.callStore access call
      exact ⟨Prod.ext hAnswer.symm hAfter.store_eq.symm, hAfter.undisturbed⟩
  | .audit entry =>
      unfold World.answer
      cases hTrail : world.trail <;> exact ⟨rfl, hQuiet⟩
  | .clock | .log _ | .sleep _ | .countFailure | .track .. | .creation _ => exact ⟨rfl, hQuiet⟩

/-- A run in an undisturbed world is a history of one client, up to its end. -/
theorem exists_interleaved_run {β : Type} (foreign : Store → Store → Prop) (program : Program β)
    {world : World} (hQuiet : world.disturbance = .none) :
    ∃ history final, Interleaved foreign (System.solo world.store program) history final ∧
      final.store = (program.run world).2.store ∧
      final.rest () = match (program.run world).1 with
        | .ok value => .done value
        | .error fault => .crash fault := by
  induction program generalizing world with
  | done value => exact ⟨[], _, .start, rfl, rfl⟩
  | crash fault => exact ⟨[], _, .start, rfl, rfl⟩
  | request asked resume ih =>
      obtain ⟨hOccurs, hStill⟩ := World.occurs_answer hQuiet asked
      obtain ⟨history, final, hRest, hStore, hEnd⟩ := ih (world.answer asked).1 hStill
      have hFirst : (System.solo world.store (.request asked resume)).rest () =
          .request asked resume := rfl
      have hMove := Interleaved.move (.start : Interleaved foreign _ [] _) hFirst hOccurs
      rw [System.resume_solo] at hMove
      exact ⟨_, final, hMove.append hRest, hStore, hEnd⟩

end PipelineUpkeep
