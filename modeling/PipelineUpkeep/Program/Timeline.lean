import PipelineUpkeep.Program.World
/-!
# Programs side by side

Programs that run side by side take turns: each runs up to its next pause or its
end, in the given order; then time moves on to the first moment at which one of
them wakes up, and all that are awake run on, in the given order again.  Time
counts nanoseconds of pauses only and does not move the clock of the world.
-/

namespace PipelineUpkeep

/-- A program among others. -/
inductive Task (α : Type) where
  | finished (value : α)
  | asleep (wakeAt : Nat) (rest : Program α)

namespace Task

variable {α : Type}

/-- Run a program at a moment up to its next pause or its end. -/
def advance (now : Nat) (program : Program α) (world : World) : Except Fault (Task α) × World :=
  match program.runToPause world with
  | (.finished value, world) => (.ok (finished value), world)
  | (.crashed fault, world) => (.error fault, world)
  | (.asleep span rest, world) => (.ok (asleep (now + span.nanoseconds) rest), world)

/-- Run a task that is awake. -/
def turn (now : Nat) (task : Task α) (world : World) : Except Fault (Task α) × World :=
  match task with
  | finished value => (.ok (finished value), world)
  | asleep wakeAt rest =>
      if wakeAt ≤ now then advance now rest world else (.ok (asleep wakeAt rest), world)

/-- Give each task its turn. -/
def turns (now : Nat) : List (Task α) → World → Except Fault (List (Task α)) × World
  | [], world => (.ok [], world)
  | task :: rest, world =>
      match task.turn now world with
      | (.error fault, world) => (.error fault, world)
      | (.ok task, world) =>
          match turns now rest world with
          | (.error fault, world) => (.error fault, world)
          | (.ok rest, world) => (.ok (task :: rest), world)

/-- The first moment at which a task wakes up. -/
def nextWake? (tasks : List (Task α)) : Option Nat :=
  (tasks.filterMap fun
    | finished _ => none
    | asleep wakeAt _ => some wakeAt).min?

/-- The value of a task, without regard to further pauses. -/
def conclude (task : Task α) (world : World) : Except Fault α × World :=
  match task with
  | finished value => (.ok value, world)
  | asleep _ rest => rest.run world

def concludeAll : List (Task α) → World → Except Fault (List α) × World
  | [], world => (.ok [], world)
  | task :: rest, world =>
      match task.conclude world with
      | (.error fault, world) => (.error fault, world)
      | (.ok value, world) =>
          match concludeAll rest world with
          | (.error fault, world) => (.error fault, world)
          | (.ok values, world) => (.ok (value :: values), world)

/-- Give turns until all tasks are finished, for at most a number of rounds.
Gives the values, the moment of the end and the world. -/
def runAll : Nat → Nat → List (Task α) → World → Except Fault (List α) × Nat × World
  | 0, now, tasks, world =>
      let (result, world) := concludeAll tasks world
      (result, now, world)
  | rounds + 1, now, tasks, world =>
      match nextWake? tasks with
      | none =>
          let (result, world) := concludeAll tasks world
          (result, now, world)
      | some wake =>
          let now := max now wake
          match turns now tasks world with
          | (.error fault, world) => (.error fault, now, world)
          | (.ok tasks, world) => runAll rounds now tasks world

end Task

/-- Run programs side by side from a moment on.  `pauses` bounds the pauses of
each of them. -/
def Program.runTogether {α : Type} (pauses : Nat) (now : Nat) (programs : List (Program α))
    (world : World) : Except Fault (List α) × Nat × World :=
  Task.runAll (programs.length * (pauses + 1) + 1) now (programs.map (Task.asleep now)) world

end PipelineUpkeep
