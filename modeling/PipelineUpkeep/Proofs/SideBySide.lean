import PipelineUpkeep.Schedule.Watch
/-!
# Side by side as one program

Programs that run side by side are one program again once the order of their requests
is fixed: the order names, request by request, the program that goes on.  The turns of
a timeline, which end at pauses, are one such order, and so a sweep is one program.
What holds of that program for every order holds of the sweep.
-/

namespace PipelineUpkeep

open Time

namespace Program

variable {α β : Type}

/-- Run programs one after the other. -/
def inTurn : List (Program α) → Program (List α)
  | [] => done []
  | program :: rest => do
      let value ← program
      let values ← inTurn rest
      return value :: values

/-- Let the programs make their requests in some order; one that has none left passes.
What the order leaves of them runs in turn. -/
def sideBySide : List Nat → List (Program α) → Program (List α)
  | [], programs => inTurn programs
  | next :: order, programs =>
      match programs[next]? with
      | some (request asked resume) =>
          request asked fun answer => sideBySide order (programs.set next (resume answer))
      | some (crash fault) => crash fault
      | _ => sideBySide order programs

/-- What comes of the programs that are left, or of a fault. -/
def proceed (order : List Nat) :
    Except Fault (List (Program α)) × World → Except Fault (List α) × World
  | (.ok programs, world) => (sideBySide order programs).run world
  | (.error fault, world) => (.error fault, world)

/-- Some requests of the programs lead to what is left of them, or to a fault. -/
def Leads (programs : List (Program α)) (world : World)
    (reached : Except Fault (List (Program α)) × World) : Prop :=
  ∃ requests, ∀ order,
    (sideBySide (requests ++ order) programs).run world = proceed order reached

variable {programs middle : List (Program α)} {world between : World}

theorem Leads.refl : Leads programs world (.ok programs, world) :=
  ⟨[], fun _ => rfl⟩

theorem Leads.trans {reached : Except Fault (List (Program α)) × World}
    (h : Leads programs world (.ok middle, between)) (hLater : Leads middle between reached) :
    Leads programs world reached := by
  obtain ⟨first, hFirst⟩ := h
  obtain ⟨second, hSecond⟩ := hLater
  refine ⟨first ++ second, fun order => ?_⟩
  rw [List.append_assoc, hFirst]
  exact hSecond order

/-- One request of one of the programs. -/
theorem leads_request (front back : List (Program α)) (world : World) (asked : Request)
    (resume : asked.Answer → Program α) :
    Leads (front ++ request asked resume :: back) world
      (.ok (front ++ resume (world.answer asked).1 :: back), (world.answer asked).2) := by
  refine ⟨[front.length], fun order => ?_⟩
  have hNext : (front ++ request asked resume :: back)[front.length]? =
      some (request asked resume) := by simp
  have hSet (rest : Program α) :
      (front ++ request asked resume :: back).set front.length rest = front ++ rest :: back := by
    simp
  rw [List.singleton_append, sideBySide, hNext]
  simp only [hSet]
  rfl

theorem leads_crash (front back : List (Program α)) (world : World) (fault : Fault) :
    Leads (front ++ crash fault :: back) world (.error fault, world) := by
  refine ⟨[front.length], fun order => ?_⟩
  have hNext : (front ++ crash fault :: back)[front.length]? = some (crash fault) := by simp
  rw [List.singleton_append, sideBySide, hNext]
  rfl

/-- What is left of a program that has run for a while. -/
def Progress.rest : Progress α → Except Fault (Program α)
  | .finished value => .ok (done value)
  | .crashed fault => .error fault
  | .asleep _ rest => .ok rest

/-- A program that runs up to its next pause makes some requests; the others wait. -/
theorem leads_runToPause (front back : List (Program α)) (program : Program α)
    (world : World) :
    Leads (front ++ program :: back) world
      ((program.runToPause world).1.rest.map fun rest => front ++ rest :: back,
        (program.runToPause world).2) := by
  induction program generalizing world with
  | done value => exact .refl
  | crash fault => exact leads_crash front back world fault
  | request asked resume ih =>
      have hFirst := leads_request front back world asked resume
      cases asked with
      | sleep span =>
          unfold runToPause
          split
          · exact hFirst.trans (ih () _)
          · exact hFirst
      | _ => exact hFirst.trans (ih _ _)

end Program

namespace Task

variable {α : Type}

/-- What a task has still to do. -/
def program : Task α → Program α
  | finished value => .done value
  | asleep _ rest => rest

theorem leads_advance (front back : List (Program α)) (now : Nat) (program : Program α)
    (world : World) :
    Program.Leads (front ++ program :: back) world
      ((advance now program world).1.map fun task => front ++ task.program :: back,
        (advance now program world).2) := by
  have h := Program.leads_runToPause front back program world
  unfold advance
  match hRun : program.runToPause world with
  | (.finished value, reached) => rwa [hRun] at h
  | (.crashed fault, reached) => rwa [hRun] at h
  | (.asleep span rest, reached) => rwa [hRun] at h

theorem leads_turn (front back : List (Program α)) (now : Nat) (task : Task α)
    (world : World) :
    Program.Leads (front ++ task.program :: back) world
      ((task.turn now world).1.map fun later => front ++ later.program :: back,
        (task.turn now world).2) := by
  cases task with
  | finished value => exact .refl
  | asleep wakeAt rest =>
      by_cases hAwake : wakeAt ≤ now
      · simp only [turn, if_pos hAwake]
        exact leads_advance front back now rest world
      · simp only [turn, if_neg hAwake]
        exact .refl

/-- A round of turns. -/
theorem leads_turns (front : List (Program α)) (now : Nat) (tasks : List (Task α))
    (world : World) :
    Program.Leads (front ++ tasks.map program) world
      ((turns now tasks world).1.map fun later => front ++ later.map program,
        (turns now tasks world).2) := by
  induction tasks generalizing front world with
  | nil => exact .refl
  | cons task rest ih =>
      have hTurn := leads_turn front (rest.map program) now task world
      match hResult : task.turn now world with
      | (.error fault, reached) =>
          rw [hResult] at hTurn
          simp only [turns, hResult]
          exact hTurn
      | (.ok later, reached) =>
          rw [hResult] at hTurn
          refine hTurn.trans ?_
          -- The task that has had its turn waits in front while the rest take theirs.
          have hRest := ih (front ++ [later.program]) reached
          match hOthers : turns now rest reached with
          | (.error fault, last) =>
              rw [hOthers, List.append_assoc] at hRest
              simp only [turns, hResult, hOthers]
              exact hRest
          | (.ok others, last) =>
              rw [hOthers] at hRest
              simp only [List.append_assoc] at hRest
              simp only [turns, hResult, hOthers]
              exact hRest

theorem run_conclude (task : Task α) (world : World) :
    task.program.run world = task.conclude world := by
  cases task <;> rfl

theorem run_inTurn (tasks : List (Task α)) (world : World) :
    (Program.inTurn (tasks.map program)).run world = concludeAll tasks world := by
  induction tasks generalizing world with
  | nil => rfl
  | cons task rest ih =>
      simp only [List.map_cons, Program.inTurn, concludeAll, Program.run_bind, run_conclude]
      match task.conclude world with
      | (.error fault, reached) => rfl
      | (.ok value, reached) =>
          simp only [ih]
          match concludeAll rest reached with
          | (.error fault, last) => rfl
          | (.ok values, last) => rfl

/-- Giving turns until all tasks are finished is running them in some order. -/
theorem exists_run_eq_runAll (rounds now : Nat) (tasks : List (Task α)) (world : World) :
    ∃ order, (Program.sideBySide order (tasks.map program)).run world =
      ((runAll rounds now tasks world).1, (runAll rounds now tasks world).2.2) := by
  induction rounds generalizing now tasks world with
  | zero => exact ⟨[], run_inTurn tasks world⟩
  | succ rounds ih =>
      cases hWake : nextWake? tasks with
      | none =>
          simp only [runAll, hWake]
          exact ⟨[], run_inTurn tasks world⟩
      | some wake =>
          obtain ⟨requests, hRequests⟩ :=
            leads_turns [] (max now wake) tasks world
          match hTurns : turns (max now wake) tasks world with
          | (.error fault, reached) =>
              simp only [runAll, hWake, hTurns]
              rw [hTurns] at hRequests
              exact ⟨requests ++ [], hRequests []⟩
          | (.ok later, reached) =>
              simp only [runAll, hWake, hTurns]
              rw [hTurns] at hRequests
              obtain ⟨order, hOrder⟩ := ih (max now wake) later reached
              exact ⟨requests ++ order, (hRequests order).trans hOrder⟩

end Task

/-- Running programs side by side is running them in some order. -/
theorem Program.exists_run_eq_runTogether {α : Type} (pauses now : Nat)
    (programs : List (Program α)) (world : World) :
    ∃ order, (sideBySide order programs).run world =
      ((runTogether pauses now programs world).1, (runTogether pauses now programs world).2.2) := by
  obtain ⟨order, hOrder⟩ := Task.exists_run_eq_runAll (programs.length * (pauses + 1) + 1) now
    (programs.map (Task.asleep now)) world
  have hPrograms : (programs.map (Task.asleep now)).map Task.program = programs := by
    simp [Function.comp_def, Task.program]
  rw [hPrograms] at hOrder
  exact ⟨order, hOrder⟩

/-- A sweep whose deliveries make their requests in a given order. -/
def sweepInOrder (context : DeliveryContext) (now : Timestamp) (order : List Nat) :
    Program (Except UpkeepError (List SweepEntry)) := do
  match ← claimAllDue now with
  | .error error => return .error error
  | .ok claimed =>
      let entries ← Program.sideBySide order (sweepDeliveries context claimed)
      return .ok (← closeSweep entries)

/-- Every sweep is one in some order. -/
theorem exists_run_sweepInOrder_eq (context : DeliveryContext) (now : Timestamp) (world : World) :
    ∃ order, (sweepInOrder context now order).run world = sweep context now world := by
  unfold sweep sweepAt sweepInOrder
  simp only [Program.run_bind]
  match (claimAllDue now).run world with
  | (.error fault, reached) => exact ⟨[], rfl⟩
  | (.ok (.error error), reached) => exact ⟨[], rfl⟩
  | (.ok (.ok claimed), reached) =>
      obtain ⟨order, hOrder⟩ := Program.exists_run_eq_runTogether context.settings.maxLockAttempts
        0 (sweepDeliveries context claimed) reached
      refine ⟨order, ?_⟩
      simp only [Program.run_bind, hOrder]
      match Program.runTogether context.settings.maxLockAttempts 0
          (sweepDeliveries context claimed) reached with
      | (.error fault, moment, last) => rfl
      | (.ok entries, moment, last) =>
          simp only
          match (closeSweep entries).run last with
          | (.error fault, final) => rfl
          | (.ok values, final) => rfl

end PipelineUpkeep
