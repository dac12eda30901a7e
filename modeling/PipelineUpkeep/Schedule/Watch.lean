import PipelineUpkeep.Program.Timeline
import PipelineUpkeep.Schedule.Sweep
/-!
# Runs of deliveries and sweeps

Several deliveries of one schedule run side by side, and so do the deliveries of
a sweep.  Watching means sweeping at the start and then once every period until
the end; a sweep that takes longer than a period is followed by the missed ones
at once.  After each sweep that did not fail, a hook sees its entries.
-/

namespace PipelineUpkeep

open Time

/-- Deliver a schedule several times side by side. -/
def deliverTogether (context : DeliveryContext) (scheduleId userId : Nat)
    (nextRunScheduled : Bool) (count : Nat) (world : World) :
    Except Fault (List DeliveryOutcome) × World :=
  let deliveries :=
    List.replicate count (deliver context scheduleId userId nextRunScheduled)
  let (result, _, world) :=
    Program.runTogether context.settings.maxLockAttempts 0 deliveries world
  (result, world)

/-- Sweep at a moment; gives the moment at which the sweep ends. -/
def sweepAt (context : DeliveryContext) (moment : Nat) (now : Timestamp) (world : World) :
    Except Fault (Except UpkeepError (List SweepEntry)) × Nat × World :=
  match (claimAllDue now).run world with
  | (.error fault, world) => (.error fault, moment, world)
  | (.ok (.error error), world) => (.ok (.error error), moment, world)
  | (.ok (.ok claimed), world) =>
      match Program.runTogether context.settings.maxLockAttempts moment
          (sweepDeliveries context claimed) world with
      | (.error fault, moment, world) => (.error fault, moment, world)
      | (.ok entries, moment, world) =>
          let (result, world) := (closeSweep entries).run world
          (result.map .ok, moment, world)

/-- Sweep once. -/
def sweep (context : DeliveryContext) (now : Timestamp) (world : World) :
    Except Fault (Except UpkeepError (List SweepEntry)) × World :=
  let (result, _, world) := sweepAt context 0 now world
  (result, world)

/-- The state of watching: the moment, the moment of the next sweep, and the
entries of the sweeps so far, the newest first. -/
structure WatchState (σ : Type) where
  moment : Nat
  nextSweep : Nat
  completed : Nat
  world : World
  hookState : σ

/-- What the caller does after a sweep. -/
abbrev SweepHook (σ : Type) := List SweepEntry → World → σ → World × σ

/-- Stop watching. -/
def WatchState.stop {σ : Type} (state : WatchState σ) : WatchState σ :=
  { state with
    world := state.world.addLog
      ⟨.info, false, s!"Stopping schedule sweeper after {state.completed} sweep(s)"⟩ }

/-- Watch until the moment `finish`, for at most a number of sweeps.  A fault ends
watching in the state before its sweep, but for what the sweep did to the world. -/
def watchFrom {σ : Type} (context : DeliveryContext) (period finish : Nat)
    (hook : SweepHook σ) : Nat → WatchState σ → Option Fault × WatchState σ
  | 0, state => (none, state.stop)
  | count + 1, state =>
      -- The next sweep is waited for, or has been due since the last one.
      let moment := max state.moment (min finish state.nextSweep)
      if finish ≤ moment then (none, state.stop)
      else
        match sweepAt context moment state.world.clock state.world with
        | (.error fault, _, world) => (some fault, { state with world })
        | (.ok (.error error), moment, world) =>
            let world := world.addLog ⟨.warn, false, "Schedule sweep failed: " ++ error.message⟩
            watchFrom context period finish hook count
              { state with moment, nextSweep := state.nextSweep + period, world }
        | (.ok (.ok entries), moment, world) =>
            let (world, hookState) := hook entries world state.hookState
            watchFrom context period finish hook count
              { moment, nextSweep := state.nextSweep + period,
                completed := state.completed + 1, world, hookState }

/-- Watch for a span of time, counted in milliseconds.  At most one sweep starts
in each period. -/
def watch {σ : Type} (context : DeliveryContext) (periodMs spanMs : Nat) (hook : SweepHook σ)
    (hookState : σ) (world : World) : Option Fault × WatchState σ :=
  watchFrom context (periodMs * 1000000) (spanMs * 1000000) hook (spanMs / periodMs + 1)
    ⟨0, 0, 0, world, hookState⟩

end PipelineUpkeep
