import PipelineUpkeep.Proofs.DirectoryLaws
import PipelineUpkeep.Proofs.JsonRoundTrip
import PipelineUpkeep.Proofs.RowReading
import PipelineUpkeep.Store.StateFile
/-!
# State files keep their snapshot

Saving and loading take the format from the same part of the path.  A codec that reads
back the record of a snapshot therefore gives back the snapshot, with its rows in order
and its repeated rows.  Only a number that TOML cannot hold keeps a snapshot from being
saved, and then the files stay as they are.
-/

namespace PipelineUpkeep

open Data Time

namespace Snapshot

variable {codec : Codec} {snapshot : Snapshot} {path : String} {directory : Directory}

/-- The directory after an attempt to save. -/
def afterSaving (codec : Codec) (snapshot : Snapshot) (path : String) (directory : Directory) :
    Directory :=
  match save codec snapshot path directory with
  | .ok after => after
  | .error _ => directory

theorem decode?_of_write? (hCodec : codec.ReadsBack (fileFormat path) snapshot.encode)
    (hStorable : snapshot.IsStorable) {text : String}
    (hText : codec.write? (fileFormat path) snapshot.encode = some text) :
    codec.decode? decode (fileFormat path) text = some snapshot := by
  obtain ⟨other, hRead, hSame⟩ := hCodec.reads text hText
  rw [Codec.decode?, hRead]
  exact decode_reads hStorable (fileFormat path) other hSame

theorem save_eq_ok {after : Directory} (h : save codec snapshot path directory = .ok after) :
    ∃ text, codec.write? (fileFormat path) snapshot.encode = some text ∧
      directory.write? path text = some after := by
  unfold save at h
  split at h
  next => cases h
  next text hText =>
    split at h
    next => cases h
    next hWrite =>
      cases h
      exact ⟨text, hText, hWrite⟩

/-- A saved snapshot is loaded again, whether or not the file was there before. -/
theorem load_of_save (hCodec : codec.ReadsBack (fileFormat path) snapshot.encode)
    (hStorable : snapshot.IsStorable) {after : Directory}
    (h : save codec snapshot path directory = .ok after) :
    load codec after path = .ok snapshot ∧ loadFrom codec after path = .ok snapshot := by
  obtain ⟨text, hText, hWrite⟩ := save_eq_ok h
  have hRead := Directory.read?_write hWrite
  have hLoad : loadFrom codec after path = .ok snapshot := by
    simp [loadFrom, hRead, decode?_of_write? hCodec hStorable hText]
  exact ⟨by rw [load, if_pos (Directory.has_of_read? hRead), hLoad], hLoad⟩

/-- Where a file may be written, only the format can refuse a snapshot. -/
theorem save_eq_error_iff (hWritable : directory.Accepts path) {error : FileError} :
    save codec snapshot path directory = .error error ↔
      codec.write? (fileFormat path) snapshot.encode = none ∧ error = .numberTooLarge := by
  unfold save
  split
  next hRefused =>
    rw [hRefused, Except.error.injEq]
    exact ⟨fun h => ⟨rfl, h.symm⟩, fun h => h.2.symm⟩
  next text hText =>
    obtain ⟨after, hWrite⟩ := hWritable.exists_write text
    simp [hWrite, hText]

theorem write?_eq_none_iff (hCodec : codec.ReadsBack (fileFormat path) snapshot.encode) :
    codec.write? (fileFormat path) snapshot.encode = none ↔
      fileFormat path = .toml ∧ ∃ number ∈ snapshot.numbers, Text.bound63 ≤ number := by
  rw [hCodec.refuses_iff]
  refine and_congr_right fun _ => ⟨?_, ?_⟩
  · rintro ⟨n, hLarge, hHolds⟩
    obtain ⟨number, hNumber, rfl⟩ := holds_encode.1 hHolds
    exact ⟨number, hNumber, by omega⟩
  · rintro ⟨number, hNumber, hLarge⟩
    exact ⟨number, by omega, holds_encode.2 ⟨number, hNumber, rfl⟩⟩

end Snapshot

/-! ## The standard codec -/

theorem isRecord_ofOption {α : Type} {encode : α → Value} {value : Option α}
    (h : ∀ content ∈ value, (encode content).IsRecord) :
    (Value.ofOption encode value).IsRecord := by
  cases value with
  | none => exact .null
  | some content => exact h content rfl

theorem isRecord_ofList {α : Type} {encode : α → Value} {items : List α}
    (h : ∀ item ∈ items, (encode item).IsRecord) : (Value.ofList encode items).IsRecord :=
  .list (List.forall_mem_map.2 h)

theorem JobTemplate.isRecord_encode (job : JobTemplate) : job.encode.IsRecord := by
  refine .table (by decide : ["name", "interruptible"].Nodup) ?_
  simp only [List.forall_mem_cons]
  exact ⟨.text _, .bool _, List.forall_mem_nil _⟩

theorem Project.isRecord_encode {project : Project} (hId : project.id < idBound) :
    project.encode.IsRecord := by
  refine .table (by decide : fieldNames.Nodup) ?_
  simp only [List.forall_mem_cons]
  exact ⟨.nat hId, .text _, .bool _, isRecord_ofOption fun content _ => .text content,
    isRecord_ofList fun job _ => job.isRecord_encode, List.forall_mem_nil _⟩

theorem User.isRecord_encode {user : User} (hId : user.id < idBound) : user.encode.IsRecord := by
  refine .table (by decide : ["id", "username"].Nodup) ?_
  simp only [List.forall_mem_cons]
  exact ⟨.nat hId, .text _, List.forall_mem_nil _⟩

theorem RefHead.isRecord_encode {head : RefHead} (hProject : head.projectId < idBound) :
    head.encode.IsRecord := by
  refine .table (by decide : ["project_id", "ref", "sha", "message"].Nodup) ?_
  simp only [List.forall_mem_cons]
  exact ⟨.nat hProject, .text _, .text _, .text _, List.forall_mem_nil _⟩

theorem Pipeline.isRecord_encode {pipeline : Pipeline}
    (h : ∀ n ∈ pipeline.numbers, n < idBound) : pipeline.encode.IsRecord := by
  simp only [numbers, List.forall_mem_append, List.forall_mem_cons, Option.mem_toList] at h
  obtain ⟨⟨⟨⟨hId, hProject, -⟩, hParent⟩, hCanceledBy⟩, hVersion, -⟩ := h
  refine .table (by decide : fieldNames.Nodup) ?_
  simp only [List.forall_mem_cons]
  exact ⟨.nat hId, .nat hProject, .text _, .text _, .text _, .text _, .text _,
    isRecord_ofOption fun n hn => .nat (hParent n hn),
    isRecord_ofOption fun n hn => .nat (hCanceledBy n hn), .nat hVersion, List.forall_mem_nil _⟩

theorem Build.isRecord_encode {build : Build} (h : ∀ n ∈ build.numbers, n < idBound) :
    build.encode.IsRecord := by
  simp only [numbers, List.forall_mem_append, List.forall_mem_cons, Option.mem_toList] at h
  obtain ⟨⟨hId, hPipeline, -⟩, hCanceledBy⟩ := h
  refine .table (by decide : fieldNames.Nodup) ?_
  simp only [List.forall_mem_cons]
  exact ⟨.nat hId, .nat hPipeline, .text _, .text _, .bool _,
    isRecord_ofOption fun n hn => .nat (hCanceledBy n hn), List.forall_mem_nil _⟩

theorem Schedule.isRecord_encode {schedule : Schedule}
    (h : ∀ n ∈ schedule.numbers, n < idBound) : schedule.encode.IsRecord := by
  simp only [numbers, List.forall_mem_append, List.forall_mem_cons, Option.mem_toList] at h
  obtain ⟨⟨hId, hProject, hOwner, -⟩, hLast⟩ := h
  refine .table (by decide : fieldNames.Nodup) ?_
  simp only [List.forall_mem_cons]
  exact ⟨.nat hId, .nat hProject, .text _, .text _, .nat hOwner, .bool _, .text _,
    isRecord_ofOption fun n hn => .nat (hLast n hn), .text _, List.forall_mem_nil _⟩

theorem Snapshot.isRecord_encode {snapshot : Snapshot}
    (h : ∀ number ∈ snapshot.numbers, number < idBound) : snapshot.encode.IsRecord := by
  simp only [numbers, List.forall_mem_append, List.forall_mem_map, List.forall_mem_flatMap] at h
  obtain ⟨⟨⟨⟨⟨hProjects, hUsers⟩, hRefs⟩, hPipelines⟩, hBuilds⟩, hSchedules⟩ := h
  refine .table (by decide : fieldNames.Nodup) ?_
  simp only [List.forall_mem_cons]
  exact ⟨isRecord_ofList fun project hMem => Project.isRecord_encode (hProjects project hMem),
    isRecord_ofList fun user hMem => User.isRecord_encode (hUsers user hMem),
    isRecord_ofList fun head hMem => RefHead.isRecord_encode (hRefs head hMem),
    isRecord_ofList fun pipeline hMem => Pipeline.isRecord_encode (hPipelines pipeline hMem),
    isRecord_ofList fun build hMem => Build.isRecord_encode (hBuilds build hMem),
    isRecord_ofList fun schedule hMem => Schedule.isRecord_encode (hSchedules schedule hMem),
    List.forall_mem_nil _⟩

/-- In JSON the standard codec reads back every snapshot. -/
theorem Snapshot.standard_readsBack_json {snapshot : Snapshot} (h : snapshot.IsStorable) :
    Codec.standard.ReadsBack .json snapshot.encode :=
  Codec.standard_readsBack_json (isRecord_encode h.numbers)

/-! ## Saving and loading -/

/-- A snapshot that could be saved is loaded again as it was, and saving changes no other
file.  It fails exactly if the file is TOML and some number does not fit into 64 bits with
a sign, and then every file keeps its text. -/
theorem saved_snapshot_is_loaded_back {codec : Codec} {snapshot : Snapshot} {path : String}
    {directory : Directory}
    (hCodec : codec.ReadsBack (Snapshot.fileFormat path) snapshot.encode)
    (hStorable : snapshot.IsStorable) (hWritable : directory.Accepts path) :
    (∀ after, snapshot.save codec path directory = .ok after →
      Snapshot.load codec after path = .ok snapshot ∧
        Snapshot.loadFrom codec after path = .ok snapshot ∧
        ∃ place, directory.locate? path = some place ∧
          ∀ other, other ≠ place → after.fileAt? other = directory.fileAt? other) ∧
    ((∃ error, snapshot.save codec path directory = .error error) ↔
      Snapshot.fileFormat path = .toml ∧
        ∃ number ∈ snapshot.numbers, Text.bound63 ≤ number) ∧
    (∀ error, snapshot.save codec path directory = .error error →
      error = .numberTooLarge ∧ snapshot.afterSaving codec path directory = directory) := by
  refine ⟨fun after hSave => ?_, ?_, fun error hSave => ?_⟩
  · obtain ⟨hLoad, hLoadFrom⟩ := Snapshot.load_of_save hCodec hStorable hSave
    obtain ⟨text, -, hWrite⟩ := Snapshot.save_eq_ok hSave
    obtain ⟨place, hPlace, -, -, hOthers⟩ := Directory.locate?_write hWrite
    exact ⟨hLoad, hLoadFrom, place, hPlace, hOthers⟩
  · rw [← Snapshot.write?_eq_none_iff hCodec]
    constructor
    · rintro ⟨error, hSave⟩
      exact ((Snapshot.save_eq_error_iff hWritable).1 hSave).1
    · rintro hRefused
      exact ⟨.numberTooLarge, (Snapshot.save_eq_error_iff hWritable).2 ⟨hRefused, rfl⟩⟩
  · refine ⟨((Snapshot.save_eq_error_iff hWritable).1 hSave).2, ?_⟩
    rw [Snapshot.afterSaving, hSave]

/-- Rows in no order and repeated, a leap second, a year of six digits and the greatest
identifier. -/
def unusualSnapshot : Snapshot where
  projects := [⟨2, "group/pröject", true, some "line\none", [⟨"test", true⟩]⟩,
    ⟨1, "null", false, none, []⟩, ⟨2, "", true, none, []⟩]
  users := [⟨18446744073709551615, "ada \"the\" first"⟩]
  refs := [⟨2, "main", "~", ""⟩, ⟨2, "main", "c2", "[skip ci]"⟩]
  pipelines := [⟨9, 2, "main", "c2", .parentPipeline, .waitingForResource,
      ⟨1483228799, 1300000000⟩, some 3, none, 4⟩,
    ⟨3, 2, "main", "c1", .push, .canceled, ⟨-62198755200, 1000⟩, none, some 9, 7⟩]
  builds := [⟨1, 9, "deploy", .manual, false, some 9⟩]
  schedules := [⟨1, 2, "main", "0 12 * * *", 1, true, ⟨253402300800, 0⟩, some 9, ""⟩]

def workDirectory : Directory where
  home := ["home"]
  files := [(["home", "work", "state.JSON"], "old")]
  folders := []

theorem saved_snapshot_is_loaded_back_unusual :
    Codec.standard.ReadsBack (Snapshot.fileFormat "work/state.JSON") unusualSnapshot.encode ∧
      unusualSnapshot.IsStorable ∧ workDirectory.Accepts "work/state.JSON" ∧
      ∃ after, unusualSnapshot.save Codec.standard "work/state.JSON" workDirectory = .ok after ∧
        Snapshot.load Codec.standard after "work/state.JSON" = .ok unusualSnapshot := by
  have hFormat : Snapshot.fileFormat "work/state.JSON" = .json := by decide
  have hStorable : unusualSnapshot.IsStorable := ⟨by decide, by decide⟩
  have hCodec : Codec.standard.ReadsBack (Snapshot.fileFormat "work/state.JSON")
      unusualSnapshot.encode := hFormat ▸ Snapshot.standard_readsBack_json hStorable
  have hWritable : workDirectory.Accepts "work/state.JSON" :=
    ⟨["home", "work", "state.JSON"], by decide, by decide⟩
  obtain ⟨hLoaded, hRefused, -⟩ := saved_snapshot_is_loaded_back hCodec hStorable hWritable
  refine ⟨hCodec, hStorable, hWritable, ?_⟩
  cases hSave : unusualSnapshot.save Codec.standard "work/state.JSON" workDirectory with
  | error error =>
      have hToml := (hRefused.1 ⟨error, hSave⟩).1
      rw [hFormat] at hToml
      cases hToml
  | ok after => exact ⟨after, rfl, (hLoaded after hSave).1⟩

end PipelineUpkeep
