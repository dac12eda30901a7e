import PipelineUpkeep.Data.Decode
import PipelineUpkeep.Pipeline.Rows
import PipelineUpkeep.Policy
import PipelineUpkeep.Schedule.Rows
import PipelineUpkeep.Time.Rfc3339
/-!
# Rows as records of data files

Every row has an encoder and a decoder.  A record lists its fields in a fixed
order.  Fields that a file may leave out have the defaults stated in the decoder;
an absent optional value is written as null.
-/

namespace PipelineUpkeep

open Data Time

/-- An identifier, a version or a count of 64 bits. -/
def decodeId : Decoder Nat := Decode.natBelow idBound

def decodeTimestamp : Decoder Timestamp := Decode.parsed Timestamp.ofString?

def encodeTimestamp (t : Timestamp) : Value := .text t.toRfc3339

def Status.decode : Decoder Status := Decode.choice Status.ofName?

def Source.decode : Decoder Source := Decode.choice Source.ofName?

def Pipeline.fieldNames : List String :=
  ["id", "project_id", "ref", "sha", "source", "status", "created_at", "parent_id",
    "auto_canceled_by_id", "lock_version"]

def Pipeline.decode : Decoder Pipeline := fun format value => do
  match ← Decode.fields fieldNames format value with
  | [id, projectId, ref, sha, source, status, createdAt, parentId, autoCanceledById,
      lockVersion] =>
      some {
        id := ← Decode.required decodeId format id
        projectId := ← Decode.required decodeId format projectId
        ref := ← Decode.required Decode.string format ref
        sha := ← Decode.required Decode.string format sha
        source := ← Decode.optional .unknown Source.decode format source
        status := ← Decode.optional .created Status.decode format status
        createdAt := ← Decode.required decodeTimestamp format createdAt
        parentId := ← Decode.optional none (Decode.option decodeId) format parentId
        autoCanceledById :=
          ← Decode.optional none (Decode.option decodeId) format autoCanceledById
        lockVersion := ← Decode.optional 0 decodeId format lockVersion }
  | _ => none

def Pipeline.encode (pipeline : Pipeline) : Value :=
  .table [("id", .nat pipeline.id), ("project_id", .nat pipeline.projectId),
    ("ref", .text pipeline.ref), ("sha", .text pipeline.sha),
    ("source", .text pipeline.source.name), ("status", .text pipeline.status.name),
    ("created_at", encodeTimestamp pipeline.createdAt),
    ("parent_id", .ofOption .nat pipeline.parentId),
    ("auto_canceled_by_id", .ofOption .nat pipeline.autoCanceledById),
    ("lock_version", .nat pipeline.lockVersion)]

def Build.fieldNames : List String :=
  ["id", "pipeline_id", "name", "status", "interruptible", "auto_canceled_by_id"]

def Build.decode : Decoder Build := fun format value => do
  match ← Decode.fields fieldNames format value with
  | [id, pipelineId, name, status, interruptible, autoCanceledById] =>
      some {
        id := ← Decode.required decodeId format id
        pipelineId := ← Decode.required decodeId format pipelineId
        name := ← Decode.required Decode.string format name
        status := ← Decode.optional .created Status.decode format status
        interruptible := ← Decode.optional false Decode.bool format interruptible
        autoCanceledById :=
          ← Decode.optional none (Decode.option decodeId) format autoCanceledById }
  | _ => none

def Build.encode (build : Build) : Value :=
  .table [("id", .nat build.id), ("pipeline_id", .nat build.pipelineId),
    ("name", .text build.name), ("status", .text build.status.name),
    ("interruptible", .bool build.interruptible),
    ("auto_canceled_by_id", .ofOption .nat build.autoCanceledById)]

def JobTemplate.decode : Decoder JobTemplate := fun format value => do
  match ← Decode.fields ["name", "interruptible"] format value with
  | [name, interruptible] =>
      some {
        name := ← Decode.required Decode.string format name
        interruptible := ← Decode.optional false Decode.bool format interruptible }
  | _ => none

def JobTemplate.encode (job : JobTemplate) : Value :=
  .table [("name", .text job.name), ("interruptible", .bool job.interruptible)]

def Project.fieldNames : List String :=
  ["id", "path", "auto_cancel_pending_pipelines", "ci_config_error", "ci_jobs"]

def Project.decode : Decoder Project := fun format value => do
  match ← Decode.fields fieldNames format value with
  | [id, path, autoCancel, ciConfigError, ciJobs] =>
      some {
        id := ← Decode.required decodeId format id
        path := ← Decode.required Decode.string format path
        autoCancelPendingPipelines :=
          ← Decode.optional true Decode.bool format autoCancel
        ciConfigError := ← Decode.optional none (Decode.option Decode.string) format ciConfigError
        ciJobs := ← Decode.optional [] (Decode.list JobTemplate.decode) format ciJobs }
  | _ => none

def Project.encode (project : Project) : Value :=
  .table [("id", .nat project.id), ("path", .text project.path),
    ("auto_cancel_pending_pipelines", .bool project.autoCancelPendingPipelines),
    ("ci_config_error", .ofOption .text project.ciConfigError),
    ("ci_jobs", .ofList JobTemplate.encode project.ciJobs)]

def RefHead.decode : Decoder RefHead := fun format value => do
  match ← Decode.fields ["project_id", "ref", "sha", "message"] format value with
  | [projectId, ref, sha, message] =>
      some {
        projectId := ← Decode.required decodeId format projectId
        ref := ← Decode.required Decode.string format ref
        sha := ← Decode.required Decode.string format sha
        message := ← Decode.optional "" Decode.string format message }
  | _ => none

def RefHead.encode (head : RefHead) : Value :=
  .table [("project_id", .nat head.projectId), ("ref", .text head.ref),
    ("sha", .text head.sha), ("message", .text head.message)]

def User.decode : Decoder User := fun format value => do
  match ← Decode.fields ["id", "username"] format value with
  | [id, username] =>
      some {
        id := ← Decode.required decodeId format id
        username := ← Decode.required Decode.string format username }
  | _ => none

def User.encode (user : User) : Value :=
  .table [("id", .nat user.id), ("username", .text user.username)]

def Schedule.fieldNames : List String :=
  ["id", "project_id", "ref", "cron", "owner_id", "active", "next_run_at", "last_pipeline_id",
    "description"]

def Schedule.decode : Decoder Schedule := fun format value => do
  match ← Decode.fields fieldNames format value with
  | [id, projectId, ref, cron, ownerId, active, nextRunAt, lastPipelineId, description] =>
      some {
        id := ← Decode.required decodeId format id
        projectId := ← Decode.required decodeId format projectId
        ref := ← Decode.required Decode.string format ref
        cron := ← Decode.required Decode.string format cron
        ownerId := ← Decode.required decodeId format ownerId
        active := ← Decode.optional true Decode.bool format active
        nextRunAt := ← Decode.required decodeTimestamp format nextRunAt
        lastPipelineId := ← Decode.optional none (Decode.option decodeId) format lastPipelineId
        description := ← Decode.optional "" Decode.string format description }
  | _ => none

def Schedule.encode (schedule : Schedule) : Value :=
  .table [("id", .nat schedule.id), ("project_id", .nat schedule.projectId),
    ("ref", .text schedule.ref), ("cron", .text schedule.cron),
    ("owner_id", .nat schedule.ownerId), ("active", .bool schedule.active),
    ("next_run_at", encodeTimestamp schedule.nextRunAt),
    ("last_pipeline_id", .ofOption .nat schedule.lastPipelineId),
    ("description", .text schedule.description)]

def FeatureFlag.decode : Decoder FeatureFlag := fun format value => do
  match ← Decode.fields ["enabled", "projects"] format value with
  | [enabled, projects] =>
      some {
        enabled := ← Decode.optional false Decode.bool format enabled
        projects := ← Decode.optional [] (Decode.list decodeId) format projects }
  | _ => none

def FeatureFlag.encode (flag : FeatureFlag) : Value :=
  .table [("enabled", .bool flag.enabled), ("projects", .ofList .nat flag.projects)]

def FeatureFlags.fieldNames : List String :=
  ["move-cancel-pending-pipelines-to-async", "ci-use-run-pipeline-schedule-worker"]

/-- A flag that a file does not name keeps its standard value; a flag that it
names is off where it says nothing else. -/
def FeatureFlags.decode : Decoder FeatureFlags := fun format value => do
  match ← Decode.fields fieldNames format value with
  | [hierarchyStrategy, scheduleWorker] =>
      some {
        hierarchyStrategy :=
          ← Decode.optional .off FeatureFlag.decode format hierarchyStrategy
        scheduleWorker := ← Decode.optional .on FeatureFlag.decode format scheduleWorker }
  | _ => none

def FeatureFlags.encode (flags : FeatureFlags) : Value :=
  .table [("move-cancel-pending-pipelines-to-async", flags.hierarchyStrategy.encode),
    ("ci-use-run-pipeline-schedule-worker", flags.scheduleWorker.encode)]

end PipelineUpkeep
