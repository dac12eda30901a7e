import PipelineUpkeep.Proofs.InstantText
import PipelineUpkeep.Proofs.RecordReading
import PipelineUpkeep.Store.Snapshot
/-!
# Rows survive as records

A row is read back from its record in every format: each of its fields is, the names of
statuses and sources name one each, and where a format leaves out null the default of the
field is the absent value.  Only the bounds of numbers and the existence of instants
matter, since names and texts may be anything.
-/

namespace PipelineUpkeep

open Data Data.Decode Text Time

/-! ## What a record holds -/

namespace Data.Value

variable {n : Int}

@[simp]
theorem holds_table {entries : List (String × Value)} :
    (table entries).Holds n ↔ ∃ entry ∈ entries, entry.2.Holds n := by
  constructor
  · rintro (_ | _ | ⟨hEntry, hHolds⟩)
    exact ⟨_, hEntry, hHolds⟩
  · rintro ⟨⟨name, value⟩, hEntry, hHolds⟩
    exact .entry hEntry hHolds

@[simp]
theorem holds_ofList {α : Type} {encode : α → Value} {items : List α} :
    (ofList encode items).Holds n ↔ ∃ item ∈ items, (encode item).Holds n := by
  constructor
  · rintro (_ | ⟨hItem, hHolds⟩)
    obtain ⟨item, hMem, rfl⟩ := List.mem_map.1 hItem
    exact ⟨item, hMem, hHolds⟩
  · rintro ⟨item, hItem, hHolds⟩
    exact .item (List.mem_map_of_mem hItem) hHolds

@[simp]
theorem holds_nat {m : Nat} : (nat m).Holds n ↔ n = m := by
  constructor
  · rintro ⟨⟩
    rfl
  · rintro rfl
    exact .int

@[simp]
theorem not_holds_text (content : String) : ¬ (text content).Holds n := by
  rintro ⟨⟩

@[simp]
theorem not_holds_bool (truth : Bool) : ¬ (bool truth).Holds n := by
  rintro ⟨⟩

@[simp]
theorem holds_ofOption {α : Type} {encode : α → Value} {value : Option α} :
    (ofOption encode value).Holds n ↔ ∃ content ∈ value, (encode content).Holds n := by
  cases value with
  | none => simp [ofOption]; rintro ⟨⟩
  | some content => simp [ofOption]

end Data.Value

@[simp]
theorem not_holds_encodeTimestamp {n : Int} (t : Timestamp) : ¬ (encodeTimestamp t).Holds n :=
  Value.not_holds_text _

def Pipeline.numbers (pipeline : Pipeline) : List Nat :=
  [pipeline.id, pipeline.projectId] ++ pipeline.parentId.toList ++
    pipeline.autoCanceledById.toList ++ [pipeline.lockVersion]

def Build.numbers (build : Build) : List Nat :=
  [build.id, build.pipelineId] ++ build.autoCanceledById.toList

def Schedule.numbers (schedule : Schedule) : List Nat :=
  [schedule.id, schedule.projectId, schedule.ownerId] ++ schedule.lastPipelineId.toList

theorem Project.holds_encode {project : Project} {n : Int} :
    project.encode.Holds n ↔ n = project.id := by
  simp [encode, JobTemplate.encode]

theorem User.holds_encode {user : User} {n : Int} : user.encode.Holds n ↔ n = user.id := by
  simp [encode]

theorem RefHead.holds_encode {head : RefHead} {n : Int} :
    head.encode.Holds n ↔ n = head.projectId := by
  simp [encode]

theorem Pipeline.holds_encode {pipeline : Pipeline} {n : Int} :
    pipeline.encode.Holds n ↔ ∃ number ∈ pipeline.numbers, n = number := by
  simp [encode, numbers, or_and_right, exists_or]

theorem Build.holds_encode {build : Build} {n : Int} :
    build.encode.Holds n ↔ ∃ number ∈ build.numbers, n = number := by
  simp [encode, numbers, or_and_right, exists_or]

theorem Schedule.holds_encode {schedule : Schedule} {n : Int} :
    schedule.encode.Holds n ↔ ∃ number ∈ schedule.numbers, n = number := by
  simp [encode, numbers, or_and_right, exists_or]

/-- Every number that a snapshot holds. -/
def Snapshot.numbers (snapshot : Snapshot) : List Nat :=
  snapshot.projects.map (·.id) ++ snapshot.users.map (·.id) ++
    snapshot.refs.map (·.projectId) ++ snapshot.pipelines.flatMap Pipeline.numbers ++
    snapshot.builds.flatMap Build.numbers ++ snapshot.schedules.flatMap Schedule.numbers

/-- Every instant that a snapshot holds. -/
def Snapshot.instants (snapshot : Snapshot) : List Timestamp :=
  snapshot.pipelines.map (·.createdAt) ++ snapshot.schedules.map (·.nextRunAt)

theorem exists_mem_flatMap {α β : Type} {parts : α → List β} {items : List α} {holds : β → Prop} :
    (∃ part ∈ items.flatMap parts, holds part) ↔
      ∃ item ∈ items, ∃ part ∈ parts item, holds part := by
  constructor
  · rintro ⟨part, hPart, hHolds⟩
    obtain ⟨item, hItem, hPart⟩ := List.mem_flatMap.1 hPart
    exact ⟨item, hItem, part, hPart, hHolds⟩
  · rintro ⟨item, hItem, part, hPart, hHolds⟩
    exact ⟨part, List.mem_flatMap.2 ⟨item, hItem, hPart⟩, hHolds⟩

theorem Snapshot.holds_encode {snapshot : Snapshot} {n : Int} :
    snapshot.encode.Holds n ↔ ∃ number ∈ snapshot.numbers, n = number := by
  simp [encode, numbers, Project.holds_encode, User.holds_encode, RefHead.holds_encode,
    Pipeline.holds_encode, Build.holds_encode, Schedule.holds_encode, or_and_right, exists_or,
    exists_mem_flatMap, -List.mem_flatMap]

/-- Numbers have 64 bits and instants exist. -/
structure Snapshot.IsStorable (snapshot : Snapshot) : Prop where
  numbers : ∀ number ∈ snapshot.numbers, number < idBound
  instants : ∀ instant ∈ snapshot.instants, instant.IsValid

/-! ## Rows -/

theorem decodeId_reads {n : Nat} (h : n < idBound) : decodeId.Reads (.nat n) n :=
  natBelow_reads h

theorem optionalId_reads (value : Option Nat) (h : ∀ n ∈ value, n < idBound) :
    (option decodeId).Reads (.ofOption .nat value) value :=
  option_reads (fun content hContent => decodeId_reads (h content hContent))
    fun _ hNull => nomatch hNull

theorem decodeTimestamp_reads {t : Timestamp} (h : t.IsValid) :
    decodeTimestamp.Reads (encodeTimestamp t) t :=
  parsed_reads (Timestamp.ofString?_toRfc3339 h)

theorem ofOption_eq_null {α : Type} {encode : α → Value} {value : Option α}
    (hEncode : ∀ content, encode content ≠ .null) (h : Value.ofOption encode value = .null) :
    none = value := by
  cases value with
  | none => rfl
  | some content => exact absurd h (hEncode content)

theorem JobTemplate.decode_reads (job : JobTemplate) : JobTemplate.decode.Reads job.encode job := by
  rintro format other hOther
  obtain ⟨given, hFields, hGiven⟩ := fields_reads hOther format
  rcases hGiven with _ | ⟨hName, _ | ⟨hInterruptible, ⟨⟩⟩⟩
  refine (bind_eq_of_eq_some hFields _).trans ?_
  refine (required_bind (string_reads _) hName nofun _).trans ?_
  exact optional_bind (bool_reads _) hInterruptible nofun _

theorem Project.decode_reads {project : Project} (hId : project.id < idBound) :
    Project.decode.Reads project.encode project := by
  rintro format other hOther
  have hError : (option string).Reads (.ofOption .text project.ciConfigError)
      project.ciConfigError := option_reads (fun content _ => string_reads content) nofun
  have hJobs : (list JobTemplate.decode).Reads (.ofList JobTemplate.encode project.ciJobs)
      project.ciJobs := list_reads fun job _ => job.decode_reads
  obtain ⟨given, hFields, hGiven⟩ := fields_reads hOther format
  rcases hGiven with
    _ | ⟨hIdGiven, _ | ⟨hPath, _ | ⟨hAutoCancel, _ | ⟨hErrorGiven, _ | ⟨hJobsGiven, ⟨⟩⟩⟩⟩⟩⟩
  refine (bind_eq_of_eq_some hFields _).trans ?_
  refine (required_bind (decodeId_reads hId) hIdGiven nofun _).trans ?_
  refine (required_bind (string_reads _) hPath nofun _).trans ?_
  refine (optional_bind (bool_reads _) hAutoCancel nofun _).trans ?_
  refine (optional_bind hError hErrorGiven (ofOption_eq_null nofun) _).trans ?_
  exact optional_bind hJobs hJobsGiven nofun _

theorem RefHead.decode_reads {head : RefHead} (hProject : head.projectId < idBound) :
    RefHead.decode.Reads head.encode head := by
  rintro format other hOther
  obtain ⟨given, hFields, hGiven⟩ := fields_reads hOther format
  rcases hGiven with _ | ⟨hProjectGiven, _ | ⟨hRef, _ | ⟨hSha, _ | ⟨hMessage, ⟨⟩⟩⟩⟩⟩
  refine (bind_eq_of_eq_some hFields _).trans ?_
  refine (required_bind (decodeId_reads hProject) hProjectGiven nofun _).trans ?_
  refine (required_bind (string_reads _) hRef nofun _).trans ?_
  refine (required_bind (string_reads _) hSha nofun _).trans ?_
  exact optional_bind (string_reads _) hMessage nofun _

theorem User.decode_reads {user : User} (hId : user.id < idBound) :
    User.decode.Reads user.encode user := by
  rintro format other hOther
  obtain ⟨given, hFields, hGiven⟩ := fields_reads hOther format
  rcases hGiven with _ | ⟨hIdGiven, _ | ⟨hName, ⟨⟩⟩⟩
  refine (bind_eq_of_eq_some hFields _).trans ?_
  refine (required_bind (decodeId_reads hId) hIdGiven nofun _).trans ?_
  exact required_bind (string_reads _) hName nofun _

theorem Pipeline.decode_reads {pipeline : Pipeline}
    (hNumbers : ∀ n ∈ pipeline.numbers, n < idBound) (hCreatedAt : pipeline.createdAt.IsValid) :
    Pipeline.decode.Reads pipeline.encode pipeline := by
  rintro format other hOther
  have hParent := optionalId_reads pipeline.parentId
    fun n hn => hNumbers n (by simp [numbers, Option.mem_def.1 hn])
  have hCanceledBy := optionalId_reads pipeline.autoCanceledById
    fun n hn => hNumbers n (by simp [numbers, Option.mem_def.1 hn])
  obtain ⟨given, hFields, hGiven⟩ := fields_reads hOther format
  rcases hGiven with _ | ⟨hId, _ | ⟨hProject, _ | ⟨hRef, _ | ⟨hSha, _ | ⟨hSource, _ | ⟨hStatus,
    _ | ⟨hCreated, _ | ⟨hParentGiven, _ | ⟨hCanceledByGiven, _ | ⟨hVersion, ⟨⟩⟩⟩⟩⟩⟩⟩⟩⟩⟩⟩
  refine (bind_eq_of_eq_some hFields _).trans ?_
  refine (required_bind (decodeId_reads (hNumbers _ (by simp [numbers]))) hId nofun _).trans ?_
  refine (required_bind (decodeId_reads (hNumbers _ (by simp [numbers]))) hProject nofun _).trans ?_
  refine (required_bind (string_reads _) hRef nofun _).trans ?_
  refine (required_bind (string_reads _) hSha nofun _).trans ?_
  refine (optional_bind (choice_reads (Source.ofName?_name _)) hSource nofun _).trans ?_
  refine (optional_bind (choice_reads (Status.ofName?_name _)) hStatus nofun _).trans ?_
  refine (required_bind (decodeTimestamp_reads hCreatedAt) hCreated nofun _).trans ?_
  refine (optional_bind hParent hParentGiven (ofOption_eq_null nofun) _).trans ?_
  refine (optional_bind hCanceledBy hCanceledByGiven (ofOption_eq_null nofun) _).trans ?_
  exact optional_bind (decodeId_reads (hNumbers _ (by simp [numbers]))) hVersion nofun _

theorem Build.decode_reads {build : Build} (hNumbers : ∀ n ∈ build.numbers, n < idBound) :
    Build.decode.Reads build.encode build := by
  rintro format other hOther
  have hCanceledBy := optionalId_reads build.autoCanceledById
    fun n hn => hNumbers n (by simp [numbers, Option.mem_def.1 hn])
  obtain ⟨given, hFields, hGiven⟩ := fields_reads hOther format
  rcases hGiven with _ | ⟨hId, _ | ⟨hPipeline, _ | ⟨hName, _ | ⟨hStatus, _ | ⟨hInterruptible,
    _ | ⟨hCanceledByGiven, ⟨⟩⟩⟩⟩⟩⟩⟩
  refine (bind_eq_of_eq_some hFields _).trans ?_
  refine (required_bind (decodeId_reads (hNumbers _ (by simp [numbers]))) hId nofun _).trans ?_
  refine (required_bind (decodeId_reads (hNumbers _ (by simp [numbers]))) hPipeline nofun
    _).trans ?_
  refine (required_bind (string_reads _) hName nofun _).trans ?_
  refine (optional_bind (choice_reads (Status.ofName?_name _)) hStatus nofun _).trans ?_
  refine (optional_bind (bool_reads _) hInterruptible nofun _).trans ?_
  exact optional_bind hCanceledBy hCanceledByGiven (ofOption_eq_null nofun) _

theorem Schedule.decode_reads {schedule : Schedule}
    (hNumbers : ∀ n ∈ schedule.numbers, n < idBound) (hNextRunAt : schedule.nextRunAt.IsValid) :
    Schedule.decode.Reads schedule.encode schedule := by
  rintro format other hOther
  have hLast := optionalId_reads schedule.lastPipelineId
    fun n hn => hNumbers n (by simp [numbers, Option.mem_def.1 hn])
  obtain ⟨given, hFields, hGiven⟩ := fields_reads hOther format
  rcases hGiven with _ | ⟨hId, _ | ⟨hProject, _ | ⟨hRef, _ | ⟨hCron, _ | ⟨hOwner, _ | ⟨hActive,
    _ | ⟨hNextRun, _ | ⟨hLastGiven, _ | ⟨hDescription, ⟨⟩⟩⟩⟩⟩⟩⟩⟩⟩⟩
  refine (bind_eq_of_eq_some hFields _).trans ?_
  refine (required_bind (decodeId_reads (hNumbers _ (by simp [numbers]))) hId nofun _).trans ?_
  refine (required_bind (decodeId_reads (hNumbers _ (by simp [numbers]))) hProject nofun _).trans ?_
  refine (required_bind (string_reads _) hRef nofun _).trans ?_
  refine (required_bind (string_reads _) hCron nofun _).trans ?_
  refine (required_bind (decodeId_reads (hNumbers _ (by simp [numbers]))) hOwner nofun _).trans ?_
  refine (optional_bind (bool_reads _) hActive nofun _).trans ?_
  refine (required_bind (decodeTimestamp_reads hNextRunAt) hNextRun nofun _).trans ?_
  refine (optional_bind hLast hLastGiven (ofOption_eq_null nofun) _).trans ?_
  exact optional_bind (string_reads _) hDescription nofun _

/-! ## Snapshots -/

/-- A snapshot is read back from every shape of its record. -/
theorem Snapshot.decode_reads {snapshot : Snapshot} (h : snapshot.IsStorable) :
    Snapshot.decode.Reads snapshot.encode snapshot := by
  rintro format other hOther
  have hNumbers := h.numbers
  have hInstants := h.instants
  simp only [numbers, List.forall_mem_append, List.forall_mem_map, List.forall_mem_flatMap]
    at hNumbers
  simp only [instants, List.forall_mem_append, List.forall_mem_map] at hInstants
  obtain ⟨⟨⟨⟨⟨hProjects, hUsers⟩, hRefs⟩, hPipelines⟩, hBuilds⟩, hSchedules⟩ := hNumbers
  have hProjects := list_reads fun project hProject =>
    Project.decode_reads (hProjects project hProject)
  have hUsers := list_reads fun user hUser => User.decode_reads (hUsers user hUser)
  have hRefs := list_reads fun head hHead => RefHead.decode_reads (hRefs head hHead)
  have hPipelines := list_reads fun pipeline hPipeline =>
    Pipeline.decode_reads (hPipelines pipeline hPipeline) (hInstants.1 pipeline hPipeline)
  have hBuilds := list_reads fun build hBuild => Build.decode_reads (hBuilds build hBuild)
  have hSchedules := list_reads fun schedule hSchedule =>
    Schedule.decode_reads (hSchedules schedule hSchedule) (hInstants.2 schedule hSchedule)
  obtain ⟨given, hFields, hGiven⟩ := fields_reads hOther format
  rcases hGiven with _ | ⟨hProjectsGiven, _ | ⟨hUsersGiven, _ | ⟨hRefsGiven, _ | ⟨hPipelinesGiven,
    _ | ⟨hBuildsGiven, _ | ⟨hSchedulesGiven, ⟨⟩⟩⟩⟩⟩⟩⟩
  refine (bind_eq_of_eq_some hFields _).trans ?_
  refine (optional_bind hProjects hProjectsGiven nofun _).trans ?_
  refine (optional_bind hUsers hUsersGiven nofun _).trans ?_
  refine (optional_bind hRefs hRefsGiven nofun _).trans ?_
  refine (optional_bind hPipelines hPipelinesGiven nofun _).trans ?_
  refine (optional_bind hBuilds hBuildsGiven nofun _).trans ?_
  exact optional_bind hSchedules hSchedulesGiven nofun _

end PipelineUpkeep
