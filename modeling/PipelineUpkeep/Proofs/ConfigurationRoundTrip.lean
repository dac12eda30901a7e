import PipelineUpkeep.Configuration.File
import PipelineUpkeep.Proofs.StateRoundTrip
/-!
# Configuration files keep their configuration

A configuration is written in the format that the extension of its file says, or as TOML if
the extension says none; and a file whose extension says none is tried as TOML before
anything else.  A codec that reads back the record of the configuration therefore gives back
the configuration.  The only field that a format may leave out is an absent token, and a token
that is left out is read as absent.
-/

namespace PipelineUpkeep

open Data Data.Decode Text

/-! ## Sections -/

theorem FeatureFlag.decode_reads {flag : FeatureFlag} (h : ∀ id ∈ flag.projects, id < idBound) :
    FeatureFlag.decode.Reads flag.encode flag := by
  intro format other hOther
  have hProjects : (list decodeId).Reads (.ofList .nat flag.projects) flag.projects :=
    list_reads fun id hId => decodeId_reads (h id hId)
  obtain ⟨given, hFields, hGiven⟩ := fields_reads hOther format
  rcases hGiven with _ | ⟨hEnabledGiven, _ | ⟨hProjectsGiven, ⟨⟩⟩⟩
  refine (bind_eq_of_eq_some hFields _).trans ?_
  refine (optional_bind (bool_reads _) hEnabledGiven nofun _).trans ?_
  exact optional_bind hProjects hProjectsGiven nofun _

theorem FeatureFlags.decode_reads {flags : FeatureFlags}
    (hHierarchy : ∀ id ∈ flags.hierarchyStrategy.projects, id < idBound)
    (hWorker : ∀ id ∈ flags.scheduleWorker.projects, id < idBound) :
    FeatureFlags.decode.Reads flags.encode flags := by
  intro format other hOther
  obtain ⟨given, hFields, hGiven⟩ := fields_reads hOther format
  rcases hGiven with _ | ⟨hHierarchyGiven, _ | ⟨hWorkerGiven, ⟨⟩⟩⟩
  refine (bind_eq_of_eq_some hFields _).trans ?_
  refine (optional_bind (FeatureFlag.decode_reads hHierarchy) hHierarchyGiven nofun _).trans ?_
  exact optional_bind (FeatureFlag.decode_reads hWorker) hWorkerGiven nofun _

/-- A token that is left out is no token. -/
theorem RemoteSection.decode_reads (remote : RemoteSection) :
    RemoteSection.decode.Reads remote.encode remote := by
  intro format other hOther
  have hToken : (option string).Reads (.ofOption .text remote.token) remote.token :=
    option_reads (fun content _ => string_reads content) nofun
  have hTable : other.isEmptyList = false := by
    cases hOther
    rfl
  obtain ⟨given, hFields, hGiven⟩ := fields_reads hOther format
  rcases hGiven with _ | ⟨hTokenGiven, _ | ⟨hBaseUrlGiven, ⟨⟩⟩⟩
  refine (bind_eq_of_eq_some hFields _).trans ?_
  simp only [hTable, Bool.false_eq_true, if_false]
  refine (optional_bind hToken hTokenGiven (ofOption_eq_null nofun) _).trans ?_
  exact optional_bind (string_reads _) hBaseUrlGiven nofun _

/-- Hours and attempts have 32 bits, sizes and milliseconds 64. -/
structure CancellationSection.IsStorable (cancellation : CancellationSection) : Prop where
  batchSize : cancellation.batchSize < bound64
  lookbackHours : cancellation.lookbackHours < bound32
  maxLockAttempts : cancellation.maxLockAttempts < bound32
  lockBackoffMs : cancellation.lockBackoffMs < bound64

theorem CancellationSection.decode_reads {cancellation : CancellationSection}
    (h : cancellation.IsStorable) :
    CancellationSection.decode.Reads cancellation.encode cancellation := by
  intro format other hOther
  obtain ⟨given, hFields, hGiven⟩ := fields_reads hOther format
  rcases hGiven with _ | ⟨hBatch, _ | ⟨hLookback, _ | ⟨hAttempts, _ | ⟨hBackoff, ⟨⟩⟩⟩⟩⟩
  refine (bind_eq_of_eq_some hFields _).trans ?_
  refine (optional_bind (natBelow_reads h.batchSize) hBatch nofun _).trans ?_
  refine (optional_bind (natBelow_reads h.lookbackHours) hLookback nofun _).trans ?_
  refine (optional_bind (natBelow_reads h.maxLockAttempts) hAttempts nofun _).trans ?_
  exact optional_bind (natBelow_reads h.lockBackoffMs) hBackoff nofun _

theorem OutputSection.decode_reads (output : OutputSection) :
    OutputSection.decode.Reads output.encode output := by
  intro format other hOther
  obtain ⟨given, hFields, hGiven⟩ := fields_reads hOther format
  rcases hGiven with _ | ⟨hFormat, _ | ⟨hPretty, ⟨⟩⟩⟩
  refine (bind_eq_of_eq_some hFields _).trans ?_
  refine (optional_bind (choice_reads (OutputFormat.ofName?_name _)) hFormat nofun _).trans ?_
  exact optional_bind (bool_reads _) hPretty nofun _

namespace Configuration

/-! ## The whole configuration -/

/-- Every number fits into the bits of its field. -/
structure IsStorable (configuration : Configuration) : Prop where
  cancellation : configuration.cancellation.IsStorable
  sweepInterval : configuration.sweepIntervalSecs < bound64
  hierarchyStrategy : ∀ id ∈ configuration.features.hierarchyStrategy.projects, id < idBound
  scheduleWorker : ∀ id ∈ configuration.features.scheduleWorker.projects, id < idBound

theorem decodeSweepInterval_reads {seconds : Nat} (h : seconds < bound64) :
    decodeSweepInterval.Reads (.table [("sweep-interval-secs", .nat seconds)]) seconds := by
  intro format other hOther
  obtain ⟨given, hFields, hGiven⟩ := fields_reads hOther format
  rcases hGiven with _ | ⟨hInterval, ⟨⟩⟩
  refine (bind_eq_of_eq_some hFields _).trans ?_
  exact (Option.bind_fun_some _).symm.trans (optional_bind (natBelow_reads h) hInterval nofun some)

/-- A configuration is read back from every shape of its record. -/
theorem decode_reads {configuration : Configuration} (h : configuration.IsStorable) :
    Configuration.decode.Reads configuration.encode configuration := by
  intro format other hOther
  have hFeatures := FeatureFlags.decode_reads h.hierarchyStrategy h.scheduleWorker
  obtain ⟨given, hFields, hGiven⟩ := fields_reads hOther format
  rcases hGiven with _ | ⟨hRemoteGiven, _ | ⟨hCancellationGiven, _ | ⟨hSchedulesGiven,
    _ | ⟨hFeaturesGiven, _ | ⟨hOutputGiven, ⟨⟩⟩⟩⟩⟩⟩
  refine (bind_eq_of_eq_some hFields _).trans ?_
  refine (optional_bind configuration.remote.decode_reads hRemoteGiven nofun _).trans ?_
  refine (optional_bind (CancellationSection.decode_reads h.cancellation) hCancellationGiven
    nofun _).trans ?_
  refine (optional_bind (decodeSweepInterval_reads h.sweepInterval) hSchedulesGiven
    nofun _).trans ?_
  refine (optional_bind hFeatures hFeaturesGiven nofun _).trans ?_
  exact optional_bind configuration.output.decode_reads hOutputGiven nofun _

/-- Every number of a configuration. -/
def numbers (configuration : Configuration) : List Nat :=
  [configuration.cancellation.batchSize, configuration.cancellation.lookbackHours,
    configuration.cancellation.maxLockAttempts, configuration.cancellation.lockBackoffMs,
    configuration.sweepIntervalSecs] ++ configuration.features.hierarchyStrategy.projects ++
    configuration.features.scheduleWorker.projects

theorem holds_encode {configuration : Configuration} {n : Int} :
    configuration.encode.Holds n ↔ ∃ number ∈ configuration.numbers, n = number := by
  simp [encode, numbers, RemoteSection.encode, CancellationSection.encode, FeatureFlags.encode,
    FeatureFlag.encode, OutputSection.encode, or_and_right, exists_or, or_assoc]

/-! ## Saving and loading -/

variable {codec : Codec} {configuration : Configuration} {path : String}
  {directory : Directory}

/-- The format in which a configuration is written to a path. -/
def writtenFormat (path : String) : Format :=
  (Format.ofExtension? (extensionOf path)).getD .toml

theorem save_eq_ok_iff {after : Directory} :
    save codec configuration path directory = .ok after ↔
      ∃ text, codec.write? (writtenFormat path) configuration.encode = some text ∧
        directory.write? path text = some after := by
  unfold save writtenFormat
  dsimp only
  split
  next hRefused => simp [hRefused]
  next text hText =>
    cases hWrite : directory.write? path text with
    | none => simp [hText, hWrite]
    | some written => simp [hText, hWrite]

/-- The text in the format of the path is read in this format, also where the path says
none. -/
theorem ofText_of_decode? {text : String}
    (h : codec.decode? decode (writtenFormat path) text = some configuration) :
    ofText codec path text = .ok configuration := by
  unfold writtenFormat at h
  unfold ofText
  cases hFormat : Format.ofExtension? (extensionOf path) with
  | some format =>
      rw [hFormat, Option.getD_some] at h
      simp only [h]
  | none =>
      -- TOML comes first among the formats that are tried, so no other one is.
      rw [hFormat, Option.getD_none] at h
      simp only [List.findSome?_cons, h]

/-- A saved configuration is loaded again, whether or not the file was there before. -/
theorem load_of_save (hCodec : codec.ReadsBack (writtenFormat path) configuration.encode)
    (hStorable : configuration.IsStorable) {after : Directory}
    (h : save codec configuration path directory = .ok after) :
    load codec after (some path) = .ok configuration := by
  obtain ⟨text, hText, hWrite⟩ := save_eq_ok_iff.mp h
  obtain ⟨other, hRead, hSame⟩ := hCodec.reads text hText
  have hDecode : codec.decode? decode (writtenFormat path) text = some configuration := by
    rw [Codec.decode?, hRead]
    exact decode_reads hStorable (writtenFormat path) other hSame
  have hFile : after.read? path = some text := Directory.read?_write hWrite
  show loadFrom codec after path = .ok configuration
  simp only [loadFrom, hFile, ofText_of_decode? hDecode]

/-- A configuration can be saved where a file may be written, unless the format is TOML and
some number does not fit into 64 bits with a sign. -/
theorem exists_save_iff (hCodec : codec.ReadsBack (writtenFormat path) configuration.encode) :
    (∃ after, save codec configuration path directory = .ok after) ↔
      directory.Accepts path ∧
        (writtenFormat path = .toml → ∀ number ∈ configuration.numbers, number < bound63) := by
  have hRefused : codec.write? (writtenFormat path) configuration.encode = none ↔
      ¬ (writtenFormat path = .toml → ∀ number ∈ configuration.numbers, number < bound63) := by
    rw [hCodec.refuses_iff]
    constructor
    · rintro ⟨hToml, n, hLarge, hHolds⟩ hFits
      obtain ⟨number, hNumber, rfl⟩ := holds_encode.mp hHolds
      have hSmall := hFits hToml number hNumber
      omega
    · intro hFits
      push Not at hFits
      obtain ⟨hToml, number, hNumber, hLarge⟩ := hFits
      exact ⟨hToml, number, by omega, holds_encode.mpr ⟨number, hNumber, rfl⟩⟩
  constructor
  · rintro ⟨after, hSave⟩
    obtain ⟨text, hText, hWrite⟩ := save_eq_ok_iff.mp hSave
    obtain ⟨location, hLocate, hFolder, -⟩ := Directory.write?_eq_some hWrite
    refine ⟨⟨location, hLocate, hFolder⟩, ?_⟩
    by_contra hFits
    rw [hRefused.mpr hFits] at hText
    cases hText
  · rintro ⟨hAccepts, hFits⟩
    obtain ⟨text, hText⟩ : ∃ text,
        codec.write? (writtenFormat path) configuration.encode = some text := by
      apply Option.ne_none_iff_exists'.mp
      intro hNone
      exact hRefused.mp hNone hFits
    obtain ⟨after, hWrite⟩ := hAccepts.exists_write text
    exact ⟨after, save_eq_ok_iff.mpr ⟨text, hText, hWrite⟩⟩

end Configuration

/-- A configuration that could be saved is loaded again as it was, whatever the extension of
the file is; and it can be saved wherever a file may be written, numbers beyond the range of
TOML apart. -/
theorem saved_configuration_is_loaded_back {codec : Codec} {configuration : Configuration}
    {path : String} {directory : Directory}
    (hCodec : codec.ReadsBack (Configuration.writtenFormat path) configuration.encode)
    (hStorable : configuration.IsStorable) :
    (∀ after, configuration.save codec path directory = .ok after →
      Configuration.load codec after (some path) = .ok configuration) ∧
    ((∃ after, configuration.save codec path directory = .ok after) ↔
      directory.Accepts path ∧ (Configuration.writtenFormat path = .toml →
        ∀ number ∈ configuration.numbers, number < bound63)) :=
  ⟨fun _ hSave => Configuration.load_of_save hCodec hStorable hSave,
    Configuration.exists_save_iff hCodec⟩

/-! ## The standard codec -/

theorem FeatureFlag.isRecord_encode {flag : FeatureFlag}
    (h : ∀ id ∈ flag.projects, id < idBound) : flag.encode.IsRecord := by
  refine .table (by decide : ["enabled", "projects"].Nodup) ?_
  simp only [List.forall_mem_cons]
  exact ⟨.bool _, isRecord_ofList fun id hId => .nat (h id hId), List.forall_mem_nil _⟩

theorem Configuration.isRecord_encode {configuration : Configuration}
    (h : configuration.IsStorable) : configuration.encode.IsRecord := by
  have hShort {n : Nat} (hBound : n < bound32) : n < idBound :=
    hBound.trans (by decide : bound32 < idBound)
  have hRemote : configuration.remote.encode.IsRecord := by
    refine .table (by decide : RemoteSection.fieldNames.Nodup) ?_
    simp only [List.forall_mem_cons]
    exact ⟨isRecord_ofOption fun content _ => .text content, .text _, List.forall_mem_nil _⟩
  have hCancellation : configuration.cancellation.encode.IsRecord := by
    refine .table (by decide : CancellationSection.fieldNames.Nodup) ?_
    simp only [List.forall_mem_cons]
    exact ⟨.nat h.cancellation.batchSize, .nat (hShort h.cancellation.lookbackHours),
      .nat (hShort h.cancellation.maxLockAttempts), .nat h.cancellation.lockBackoffMs,
      List.forall_mem_nil _⟩
  have hSchedules : (Value.table
      [("sweep-interval-secs", .nat configuration.sweepIntervalSecs)]).IsRecord := by
    refine .table (by decide : ["sweep-interval-secs"].Nodup) ?_
    simp only [List.forall_mem_cons]
    exact ⟨.nat h.sweepInterval, List.forall_mem_nil _⟩
  have hFeatures : configuration.features.encode.IsRecord := by
    refine .table (by decide : FeatureFlags.fieldNames.Nodup) ?_
    simp only [List.forall_mem_cons]
    exact ⟨FeatureFlag.isRecord_encode h.hierarchyStrategy,
      FeatureFlag.isRecord_encode h.scheduleWorker, List.forall_mem_nil _⟩
  have hOutput : configuration.output.encode.IsRecord := by
    refine .table (by decide : ["format", "pretty"].Nodup) ?_
    simp only [List.forall_mem_cons]
    exact ⟨.text _, .bool _, List.forall_mem_nil _⟩
  refine .table (by decide : fieldNames.Nodup) ?_
  simp only [List.forall_mem_cons]
  exact ⟨hRemote, hCancellation, hSchedules, hFeatures, hOutput, List.forall_mem_nil _⟩

/-- In JSON the standard codec reads back every configuration. -/
theorem Configuration.standard_readsBack_json {configuration : Configuration}
    (h : configuration.IsStorable) : Codec.standard.ReadsBack .json configuration.encode :=
  Codec.standard_readsBack_json (isRecord_encode h)

/-- A configuration without a token, with numbers at the ends of their ranges. -/
def unusualConfiguration : Configuration where
  remote := ⟨none, "https://git.example/\"a b\""⟩
  cancellation := ⟨0, 4294967295, 1, 18446744073709551615⟩
  sweepIntervalSecs := 0
  features := ⟨⟨false, [9, 3, 9]⟩, ⟨false, []⟩⟩
  output := ⟨.json, true⟩

theorem saved_configuration_is_loaded_back_unusual :
    Codec.standard.ReadsBack (Configuration.writtenFormat "work/settings.json")
      unusualConfiguration.encode ∧
    unusualConfiguration.IsStorable ∧
    ∃ after,
      unusualConfiguration.save Codec.standard "work/settings.json" workDirectory = .ok after ∧
      Configuration.load Codec.standard after (some "work/settings.json") =
        .ok unusualConfiguration := by
  have hFormat : Configuration.writtenFormat "work/settings.json" = .json := by decide
  have hStorable : unusualConfiguration.IsStorable :=
    ⟨⟨by decide, by decide, by decide, by decide⟩, by decide, by decide, by decide⟩
  have hCodec : Codec.standard.ReadsBack (Configuration.writtenFormat "work/settings.json")
      unusualConfiguration.encode :=
    hFormat ▸ Configuration.standard_readsBack_json hStorable
  have hWritable : workDirectory.Accepts "work/settings.json" :=
    ⟨["home", "work", "settings.json"], by decide, by decide⟩
  obtain ⟨hLoaded, hSaved⟩ :=
    @saved_configuration_is_loaded_back _ _ _ workDirectory hCodec hStorable
  have hNotToml : Configuration.writtenFormat "work/settings.json" ≠ .toml := by
    rw [hFormat]
    decide
  obtain ⟨after, hSave⟩ := hSaved.mpr ⟨hWritable, fun hToml => absurd hToml hNotToml⟩
  exact ⟨hCodec, hStorable, after, hSave, hLoaded after hSave⟩

end PipelineUpkeep
