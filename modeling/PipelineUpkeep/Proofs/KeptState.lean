import PipelineUpkeep.Command.Workspace
import PipelineUpkeep.Proofs.StateRoundTrip
import PipelineUpkeep.Proofs.StoredInstants
import PipelineUpkeep.Proofs.SweepEffect
/-!
# The state that a file keeps

A command works on the store of the snapshot that it has loaded, so at first the state file
keeps the rows of this store.  After the store has changed, saving it makes the file keep the
rows again.  Numbers of more than 64 bits are no rows of the program, and the instants of the
rows exist, so a codec that reads back what it wrote is all that is needed.
-/

namespace PipelineUpkeep

open Data Time

/-- Loading the state from the file gives the rows of the store. -/
def Store.IsKept (store : Store) (codec : Codec) (directory : Directory) (path : String) : Prop :=
  ∃ loaded, Snapshot.load codec directory path = .ok loaded ∧ ofSnapshot loaded = store

/-- The codec reads back every snapshot that it may have to write to the path. -/
def Data.Codec.KeepsStates (codec : Codec) (path : String) : Prop :=
  ∀ snapshot : Snapshot, snapshot.IsStorable →
    codec.ReadsBack (Snapshot.fileFormat path) snapshot.encode

theorem Codec.standard_keepsStates {path : String} (h : Snapshot.fileFormat path = .json) :
    Codec.standard.KeepsStates path := by
  intro snapshot hStorable
  rw [h]
  exact Snapshot.standard_readsBack_json hStorable

/-- Every number of the store has 64 bits. -/
def Store.HasIds (store : Store) : Prop :=
  ∀ number ∈ store.snapshot.numbers, number < idBound

instance (store : Store) : Decidable store.HasIds := by
  unfold Store.HasIds
  infer_instance

variable {codec : Codec} {directory after : Directory} {path : String} {store : Store}

theorem Store.IsTimely.isKept_of_save (h : store.IsTimely) (hCodec : codec.KeepsStates path)
    (hIds : store.HasIds) (hSave : store.snapshot.save codec path directory = .ok after) :
    store.IsKept codec after path := by
  have hStorable := h.isStorable hIds
  exact ⟨store.snapshot, (Snapshot.load_of_save (hCodec _ hStorable) hStorable hSave).1,
    store.ofSnapshot_snapshot⟩

/-- In JSON every snapshot is saved wherever a file may be written. -/
theorem Snapshot.save_json (snapshot : Snapshot) (hFormat : fileFormat path = .json)
    (hWritable : directory.Accepts path) :
    snapshot.save Codec.standard path directory =
      .ok (snapshot.afterSaving Codec.standard path directory) := by
  unfold afterSaving
  cases hSave : snapshot.save Codec.standard path directory with
  | ok after => rfl
  | error error =>
      have hRefused := ((save_eq_error_iff hWritable).1 hSave).1
      rw [hFormat] at hRefused
      cases hRefused

/-! ## Workspaces -/

variable {surroundings : Surroundings} {invocation : Invocation} {workspace : Workspace}

/-- The workspace that a command starts with, beside its configuration. -/
structure Workspace.IsFresh (workspace : Workspace) (surroundings : Surroundings)
    (directory : Directory) : Prop where
  kept : workspace.world.store.IsKept surroundings.codec directory workspace.statePath
  timely : workspace.world.store.IsTimely
  clock_eq : workspace.world.clock = surroundings.clock

theorem Surroundings.files_locateState (surroundings : Surroundings) (path : Option String)
    (directory : Directory) :
    (surroundings.locateState path directory).2.files = directory.files := by
  unfold locateState
  split
  · rfl
  · split
    · rename_i hMade
      exact Directory.files_makeFolders? hMade
    · rfl

/-- Loading changes no file. -/
theorem Workspace.files_load (surroundings : Surroundings) (invocation : Invocation)
    (directory : Directory) :
    (Workspace.load surroundings invocation directory).2.files = directory.files := by
  unfold load
  split
  · rfl
  · have hFiles := surroundings.files_locateState invocation.statePath directory
    split
    · rename_i hLocate
      rwa [hLocate] at hFiles
    · rename_i hLocate
      rw [hLocate] at hFiles
      split <;> exact hFiles

theorem Workspace.load_eq_ok {configuration : Configuration} {snapshot : Snapshot}
    (hConfiguration : Configuration.load surroundings.codec directory
      invocation.configurationPath = .ok configuration)
    (hPath : invocation.statePath = some path)
    (hSnapshot : Snapshot.load surroundings.codec directory path = .ok snapshot) :
    Workspace.load surroundings invocation directory =
      (.ok ⟨configuration, path, worldOf surroundings snapshot⟩, directory) := by
  simp only [load, hConfiguration, hPath, Surroundings.locateState, hSnapshot]

/-- What loading has found. -/
theorem Workspace.exists_of_load
    (h : Workspace.load surroundings invocation directory = (.ok workspace, after)) :
    surroundings.locateState invocation.statePath directory = (.ok workspace.statePath, after) ∧
      ∃ snapshot, Snapshot.load surroundings.codec after workspace.statePath = .ok snapshot ∧
        workspace.world = worldOf surroundings snapshot := by
  unfold load at h
  split at h
  · cases h
  · split at h
    · cases h
    · rename_i hLocate
      split at h
      · cases h
      · rename_i snapshot hSnapshot
        cases h
        exact ⟨hLocate, snapshot, hSnapshot, rfl⟩

theorem Workspace.isFresh_of_load
    (h : Workspace.load surroundings invocation directory = (.ok workspace, after)) :
    workspace.IsFresh surroundings after := by
  obtain ⟨-, snapshot, hSnapshot, hWorld⟩ := exists_of_load h
  constructor
  · rw [hWorld]
    exact ⟨snapshot, hSnapshot, rfl⟩
  · rw [hWorld]
    exact Store.isTimely_of_load hSnapshot
  · rw [hWorld]
    rfl

/-! ## A workspace at noon -/

/-- A folder whose state file keeps schedules that are due at noon. -/
def noonDirectory : Directory :=
  crowdedStore.snapshot.afterSaving Codec.standard "state.json" ⟨["work"], [], []⟩

/-- At noon, without a server. -/
def noonSurroundings : Surroundings where
  codec := Codec.standard
  dataFolder := "/data"
  clock := ⟨43200, 0⟩
  network _ _ := .refused
  interruptAfter := 0

def noonWorkspace : Workspace where
  configuration := .standard
  statePath := "state.json"
  world := Workspace.worldOf noonSurroundings crowdedStore.snapshot

/-- A command with this state file. -/
def noonInvocation (command : Command) : Invocation :=
  ⟨command, none, some "state.json", false, false⟩

theorem accepts_noonDirectory : noonDirectory.Accepts "state.json" :=
  ⟨["work", "state.json"], by decide +kernel, by decide +kernel⟩

theorem load_noonDirectory (command : Command) :
    Workspace.load noonSurroundings (noonInvocation command) noonDirectory =
      (.ok noonWorkspace, noonDirectory) := by
  have hStorable : crowdedStore.snapshot.IsStorable := ⟨by decide +kernel, by decide +kernel⟩
  have hFormat : Snapshot.fileFormat "state.json" = .json := by decide
  have hEmpty : (Directory.mk ["work"] [] []).Accepts "state.json" :=
    ⟨["work", "state.json"], by decide, by decide⟩
  have hState : Snapshot.load Codec.standard noonDirectory "state.json" =
      .ok crowdedStore.snapshot :=
    (Snapshot.load_of_save (Codec.standard_keepsStates hFormat _ hStorable) hStorable
      (crowdedStore.snapshot.save_json hFormat hEmpty)).1
  have hNone : Configuration.candidates.find? noonDirectory.has = none := by decide +kernel
  have hConfiguration : Configuration.load Codec.standard noonDirectory none = .ok .standard := by
    rw [Configuration.load, hNone]
  exact Workspace.load_eq_ok hConfiguration rfl hState

end PipelineUpkeep
