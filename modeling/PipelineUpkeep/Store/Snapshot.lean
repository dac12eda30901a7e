import PipelineUpkeep.Pipeline.Records
/-!
# Snapshots of a store

All rows of a store as plain lists, in the order in which files hold them.  A
snapshot may hold rows in any order and several rows with one key.
-/

namespace PipelineUpkeep

open Data

structure Snapshot where
  projects : List Project
  users : List User
  refs : List RefHead
  pipelines : List Pipeline
  builds : List Build
  schedules : List Schedule
  deriving DecidableEq, Repr, Inhabited

namespace Snapshot

def empty : Snapshot := ⟨[], [], [], [], [], []⟩

def fieldNames : List String :=
  ["projects", "users", "refs", "pipelines", "builds", "schedules"]

/-- Every list may be left out. -/
def decode : Decoder Snapshot := fun format value => do
  match ← Decode.fields fieldNames format value with
  | [projects, users, refs, pipelines, builds, schedules] =>
      some {
        projects := ← Decode.optional [] (Decode.list Project.decode) format projects
        users := ← Decode.optional [] (Decode.list User.decode) format users
        refs := ← Decode.optional [] (Decode.list RefHead.decode) format refs
        pipelines := ← Decode.optional [] (Decode.list Pipeline.decode) format pipelines
        builds := ← Decode.optional [] (Decode.list Build.decode) format builds
        schedules := ← Decode.optional [] (Decode.list Schedule.decode) format schedules }
  | _ => none

def encode (snapshot : Snapshot) : Value :=
  .table [("projects", .ofList Project.encode snapshot.projects),
    ("users", .ofList User.encode snapshot.users),
    ("refs", .ofList RefHead.encode snapshot.refs),
    ("pipelines", .ofList Pipeline.encode snapshot.pipelines),
    ("builds", .ofList Build.encode snapshot.builds),
    ("schedules", .ofList Schedule.encode snapshot.schedules)]

end Snapshot

end PipelineUpkeep
