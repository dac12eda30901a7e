import PipelineUpkeep.Schedule.Sweep
import PipelineUpkeep.Screen.BoxTable
import PipelineUpkeep.Screen.Paint
/-!
# Reports on screen

The texts that tell of a cancellation run, of a creation, of deliveries, and of
the pipelines and schedules of a project.
-/

namespace PipelineUpkeep.Screen

open Time

/-- For instance `#42`. -/
def mark (id : Nat) : String := "#" ++ toString id

/-- Nothing, or the mark of an identifier. -/
def optionalMark (id : Option Nat) : String := id.elim "" mark

/-- The marks of a set of identifiers, or a dash. -/
def markList (ids : IdSet) : String :=
  if ids.toList.isEmpty then "-" else ", ".intercalate (ids.toList.map mark)

def strategyText (strategy : Option Strategy) : String :=
  strategy.elim "-" Strategy.name

def outcomeLine (palette : Palette) : CancellationOutcome → String
  | .completed => palette.paint .brightGreen "completed ✓"
  | .skipped reason => palette.paint .brightYellow ("skipped (" ++ reason.label ++ ")")
  | .abandoned attempts =>
      palette.paint .brightRed s!"abandoned after {attempts} attempt(s)"

/-- The report of a cancellation run. -/
def cancellation (palette : Palette) (report : CancellationReport) : String :=
  let summary := report.summary
  let table : BoxTable := {
    header := ["Field", "Value"]
    rows := [
      ["Strategy", strategyText report.strategy],
      ["Canceled", markList summary.canceled],
      ["Not interruptible", markList summary.notInterruptible],
      ["Already finished", markList summary.alreadyResolved],
      ["Batches", s!"{summary.batches} (largest {summary.largestBatch})"],
      ["Attempts", toString summary.attempts]] }
  "⏹ " ++ palette.paint .underlined "Redundant pipelines for" ++ " " ++
    palette.paint .cyan (mark report.pipelineId) ++ "\n  " ++
    outcomeLine palette report.outcome ++ "\n" ++ table.toText

/-- The first line of a creation. -/
def creationLine (palette : Palette) (response : CreationResponse) : String :=
  match response.pipeline with
  | some pipeline =>
      if response.isSuccess then
        palette.paint .brightGreen "✓" ++ " Created pipeline " ++
          palette.paint .cyan
            (mark pipeline.id ++ " (" ++ pipeline.ref ++ " @ " ++ pipeline.sha ++ ")")
      else
        palette.paint .brightYellow "!" ++ " Persisted rejected pipeline " ++
          palette.paint .cyan (mark pipeline.id ++ " (" ++ pipeline.status.name ++ ")")
  | none => palette.paint .brightRed "✗" ++ " No pipeline created"

/-- The answer to a request for a pipeline. -/
def creation (palette : Palette) (response : CreationResponse) : String :=
  let message := response.message.elim "" fun message =>
    "  " ++ palette.paint .dim "Message:" ++ " " ++ message ++ "\n"
  creationLine palette response ++ "\n" ++ message ++
    response.cancellation.elim "" (cancellation palette)

/-- The outcome of a delivery and its details. -/
def outcomeCells : DeliveryOutcome → List String
  | .skipped => ["skipped", ""]
  | .notDue nextRunAt => ["not due", "next run " ++ nextRunAt.toMinutes ++ " UTC"]
  | .alreadyClaimed => ["already claimed", ""]
  | .created pipelineId => ["created", "pipeline " ++ mark pipelineId]
  | .creationFailed message => ["creation failed", message]
  | .errored message => ["error", message]

/-- The outcomes of deliveries. -/
def scheduleRuns (palette : Palette) (entries : List SweepEntry) : String :=
  if entries.isEmpty then palette.paint .dim "No pipeline schedules were due"
  else
    BoxTable.toText {
      header := ["Schedule", "Outcome", "Details"]
      rows := entries.map fun entry => mark entry.scheduleId :: outcomeCells entry.outcome }

/-- How many of the builds have ended. -/
def jobsText (builds : List Build) : String :=
  if builds.isEmpty then "-"
  else s!"{(builds.filter (·.status.isCompleted)).length}/{builds.length} done"

def pipelineTable (pipelines : List (Pipeline × List Build)) : BoxTable where
  header := ["ID", "Ref", "SHA", "Source", "Status", "Jobs", "Parent", "Canceled by", "Created"]
  rows := pipelines.map fun (pipeline, builds) =>
    [mark pipeline.id, pipeline.ref, String.ofList (pipeline.sha.toList.take 8),
      pipeline.source.name, pipeline.status.name, jobsText builds,
      optionalMark pipeline.parentId, optionalMark pipeline.autoCanceledById,
      pipeline.createdAt.toMinutes]

def scheduleTable (schedules : List Schedule) : BoxTable where
  header := ["Schedule", "Ref", "Cron", "Active", "Next run", "Last pipeline"]
  rows := schedules.map fun schedule =>
    [mark schedule.id, schedule.ref, schedule.cron, if schedule.active then "yes" else "no",
      schedule.nextRunAt.toMinutes ++ " UTC", optionalMark schedule.lastPipelineId]

/-- The pipelines with their builds, and the schedules if there are any. -/
def pipelines (palette : Palette) (rows : List (Pipeline × List Build))
    (schedules : List Schedule) : String :=
  let title (picture text : String) : String :=
    picture ++ " " ++ palette.paint .underlined text ++ "\n"
  title "📋" "Pipelines" ++ (pipelineTable rows).toText ++
    if schedules.isEmpty then ""
    else "\n" ++ title "⏰" "Schedules" ++ (scheduleTable schedules).toText

end PipelineUpkeep.Screen
