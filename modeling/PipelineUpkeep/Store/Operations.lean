import PipelineUpkeep.Error
import PipelineUpkeep.Store.Evaluation
/-!
# Operations on a store

Writes to a store.  Cancellation is a compare-and-set on the version of the row
that the caller has read: it succeeds only if the row is still cancelable and has
that version.  It then writes the row, with cascade also its cancelable
descendants, and the cancelable builds of the rows it writes.  The pipeline that
caused a cancellation is recorded once and never replaced.  An operation that
fails leaves the store as it was.
-/

namespace PipelineUpkeep

open Time

/-- Who cancels, and whether descendants are canceled too. -/
structure CancelRequest where
  canceledById : Nat
  cascade : Bool
  deriving DecidableEq, Repr

inductive CancelOutcome where
  | canceled
  /-- The pipeline had reached this status before; nothing was written. -/
  | alreadyResolved (status : Status)
  deriving DecidableEq, Repr

/-- The row after its cancellation.  Versions are unbounded here and have 64 bits in the
program, where no version follows 2⁶⁴ - 1. -/
def Pipeline.afterCancel (pipeline : Pipeline) (canceledById : Nat) : Pipeline :=
  { pipeline with
    status := .canceled
    autoCanceledById := pipeline.autoCanceledById <|> some canceledById
    lockVersion := pipeline.lockVersion + 1 }

/-- The build after its cancellation. -/
def Build.afterCancel (build : Build) (canceledById : Nat) : Build :=
  { build with
    status := .canceled
    autoCanceledById := build.autoCanceledById <|> some canceledById }

namespace Store

/-- One of `ids`, stored, and still cancelable. -/
def isCancelTarget (store : Store) (ids : List Nat) (id : Nat) : Bool :=
  ids.contains id && (store.pipelines.find? id).any (·.status.isCancelable)

/-- Cancel the cancelable pipelines among `ids` and their cancelable builds. -/
def cancelRows (store : Store) (ids : List Nat) (canceledById : Nat) : Store :=
  { store with
    pipelines := store.pipelines.mapRows
      (fun row =>
        if store.isCancelTarget ids row.id then row.afterCancel canceledById else row)
      (fun row => by split <;> rfl)
    builds := store.builds.mapRows
      (fun build =>
        if store.isCancelTarget ids build.pipelineId && build.status.isCancelable then
          build.afterCancel canceledById
        else build)
      (fun build => by split <;> rfl) }

/-- The identifiers that a cancellation of a stored row reaches. -/
def cancelReach (store : Store) (row : Pipeline) (cascade : Bool) : List Nat :=
  if cascade then (withDescendants store.pipelines.rows [row]).map (·.id) else [row.id]

/-- Cancel the row of `pipeline` if it is still cancelable and still has the
version of `pipeline`. -/
def cancelRunning (store : Store) (pipeline : Pipeline) (request : CancelRequest) :
    Except StoreError CancelOutcome × Store :=
  match store.pipelines.find? pipeline.id with
  | none => (.error (.notFound .pipeline pipeline.id), store)
  | some current =>
      -- A finished row is no conflict, whatever its version.
      if !current.status.isCancelable then (.ok (.alreadyResolved current.status), store)
      else if current.lockVersion ≠ pipeline.lockVersion then
        (.error (.staleObject pipeline.id pipeline.lockVersion current.lockVersion), store)
      else
        (.ok .canceled,
          store.cancelRows (store.cancelReach current request.cascade) request.canceledById)

/-- Add builds of a pipeline one after the other, each with a fresh identifier. -/
def addBuilds (pipelineId : Nat) (builds : Table Build Build.id) :
    List NewBuild → Table Build Build.id
  | [] => builds
  | new :: rest =>
      addBuilds pipelineId
        (builds.insert {
          id := builds.nextKey
          pipelineId
          name := new.name
          status := new.status
          interruptible := new.interruptible
          autoCanceledById := none })
        rest

/-- Insert a pipeline with a fresh identifier, and its builds. -/
def createPipeline (store : Store) (new : NewPipeline) : Pipeline × Store :=
  let pipeline : Pipeline := {
    id := store.pipelines.nextKey
    projectId := new.projectId
    ref := new.ref
    sha := new.sha
    source := new.source
    status := new.status
    createdAt := new.createdAt
    parentId := new.parentId
    autoCanceledById := none
    lockVersion := 0 }
  (pipeline,
    { store with
      pipelines := store.pipelines.insert pipeline
      builds := addBuilds pipeline.id store.builds new.builds })

def setRefHead (store : Store) (head : RefHead) : Store :=
  { store with refs := store.refs.set head }

/-- The active schedules whose next run is not in the future, in increasing order
of identifiers. -/
def dueSchedules (store : Store) (now : Timestamp) : List Schedule :=
  store.schedules.rows.filter (·.isDue now)

/-- Set the next run of a schedule to `next` if it still is `observed`; answers
whether it was. -/
def advanceNextRun (store : Store) (id : Nat) (observed next : Timestamp) :
    Except StoreError Bool × Store :=
  match store.schedules.find? id with
  | none => (.error (.notFound .schedule id), store)
  | some schedule =>
      if schedule.nextRunAt ≠ observed then (.ok false, store)
      else
        (.ok true,
          { store with
            schedules := store.schedules.modify id ({ · with nextRunAt := next })
              fun _ => rfl })

/-- Note the pipeline that a schedule has created last. -/
def recordLastPipeline (store : Store) (id pipelineId : Nat) : Except StoreError Unit × Store :=
  match store.schedules.find? id with
  | none => (.error (.notFound .schedule id), store)
  | some _ =>
      (.ok (),
        { store with
          schedules := store.schedules.modify id ({ · with lastPipelineId := some pipelineId })
            fun _ => rfl })

/-- A write by some other process: a new status, or the old one, and a new
version. -/
def touchPipeline (store : Store) (id : Nat) (status : Option Status) : Store :=
  { store with
    pipelines := store.pipelines.modify id
      (fun row => { row with
        status := status.getD row.status
        lockVersion := row.lockVersion + 1 })
      fun _ => rfl }

/-- Add or replace all rows of a snapshot. -/
def upsert (store : Store) (rows : Snapshot) : Store where
  projects := store.projects.insertAll rows.projects
  users := store.users.insertAll rows.users
  refs := rows.refs.foldl RefTable.set store.refs
  pipelines := store.pipelines.insertAll rows.pipelines
  builds := store.builds.insertAll rows.builds
  schedules := store.schedules.insertAll rows.schedules

end Store

end PipelineUpkeep
