import PipelineUpkeep.Files.Directory
/-!
# Laws of directories

Writing a file replaces one text and takes no folder away, so every path that led to a
place still leads there.  The text is read back from its path, and no other file changes.
-/

namespace PipelineUpkeep.Directory

variable {directory after : Directory}

/-- Every folder of the first directory is a folder of the second one. -/
def KeepsFolders (directory after : Directory) : Prop :=
  after.home = directory.home ∧
    ∀ location, directory.isFolder location = true → after.isFolder location = true

theorem KeepsFolders.follow? (h : directory.KeepsFolders after) {location result : Location}
    {parts : List String} (hFollow : directory.follow? location parts = some result) :
    after.follow? location parts = some result := by
  induction parts generalizing location with
  | nil => exact hFollow
  | cons part parts ih =>
      simp only [Directory.follow?] at hFollow ⊢
      split at hFollow
      next hFolder =>
        rw [if_pos (h.2 location hFolder)]
        split at hFollow
        next hStay =>
          rw [if_pos hStay]
          exact ih hFollow
        next hStay =>
          rw [if_neg hStay]
          split at hFollow
          next hUp =>
            rw [if_pos hUp]
            exact ih hFollow
          next hUp =>
            rw [if_neg hUp]
            exact ih hFollow
      next => cases hFollow

theorem KeepsFolders.locate? (h : directory.KeepsFolders after) {path : String}
    {location : Location} (hLocate : directory.locate? path = some location) :
    after.locate? path = some location := by
  unfold Directory.locate? at hLocate ⊢
  split at hLocate
  next => cases hLocate
  next hPath =>
    rw [if_neg hPath]
    split at hLocate
    next hRoot =>
      rw [if_pos hRoot]
      exact h.follow? hLocate
    next hRoot =>
      rw [if_neg hRoot, h.1]
      exact h.follow? hLocate

/-! ## Writing a file -/

theorem exists_mem_putFile (location : Location) (text : String)
    {files : List (Location × String)} {file : Location × String} (h : file ∈ files) :
    ∃ other ∈ putFile location text files, other.1 = file.1 := by
  induction files with
  | nil => cases h
  | cons first rest ih =>
      obtain ⟨place, old⟩ := first
      by_cases hPlace : place = location
      · simp only [putFile, hPlace, if_true]
        rcases List.mem_cons.1 h with rfl | hRest
        · exact ⟨_, List.mem_cons_self, hPlace.symm⟩
        · exact ⟨file, List.mem_cons_of_mem _ hRest, rfl⟩
      · simp only [putFile, hPlace, if_false]
        rcases List.mem_cons.1 h with rfl | hRest
        · exact ⟨_, List.mem_cons_self, rfl⟩
        · obtain ⟨other, hOther, hSame⟩ := ih hRest
          exact ⟨other, List.mem_cons_of_mem _ hOther, hSame⟩

theorem find?_putFile_of_ne {location other : Location} (h : other ≠ location) (text : String)
    (files : List (Location × String)) :
    (putFile location text files).find? (·.1 == other) = files.find? (·.1 == other) := by
  induction files with
  | nil => simp [putFile, Ne.symm h]
  | cons first rest ih =>
      obtain ⟨place, old⟩ := first
      by_cases hPlace : place = location
      · have hFirst : (location == other) = false := by simpa using Ne.symm h
        simp [putFile, hPlace, hFirst]
      · simp [putFile, hPlace, List.find?_cons, ih]

theorem write?_eq_some {path text : String} (h : directory.write? path text = some after) :
    ∃ location, directory.locate? path = some location ∧ directory.isFolder location = false ∧
      after = { directory with files := putFile location text directory.files } := by
  unfold write? at h
  split at h
  next => cases h
  next location hLocate =>
    split at h
    next => cases h
    next hFolder => exact ⟨location, hLocate, by simpa using hFolder, (Option.some.inj h).symm⟩

theorem keepsFolders_putFile (directory : Directory) (location : Location) (text : String) :
    directory.KeepsFolders { directory with files := putFile location text directory.files } := by
  refine ⟨rfl, fun place hPlace => ?_⟩
  simp only [isFolder, Bool.or_eq_true, List.any_eq_true] at hPlace ⊢
  refine hPlace.imp_right fun ⟨file, hFile, hPrefix⟩ => ?_
  obtain ⟨other, hOther, hSame⟩ := exists_mem_putFile location text hFile
  exact ⟨other, hOther, by rw [hSame]; exact hPrefix⟩

/-- The path leads to a place where a file may be written. -/
def Accepts (directory : Directory) (path : String) : Prop :=
  ∃ location, directory.locate? path = some location ∧ directory.isFolder location = false

theorem Accepts.exists_write {path : String} (h : directory.Accepts path) (text : String) :
    ∃ after, directory.write? path text = some after := by
  obtain ⟨location, hLocate, hFolder⟩ := h
  simp [write?, hLocate, hFolder]

/-- A path still leads to the place of its file once the file is written. -/
theorem locate?_write {path text : String} (h : directory.write? path text = some after) :
    ∃ location, directory.locate? path = some location ∧ after.locate? path = some location ∧
      after.fileAt? location = some text ∧
      ∀ other, other ≠ location → after.fileAt? other = directory.fileAt? other := by
  obtain ⟨location, hLocate, -, rfl⟩ := write?_eq_some h
  refine ⟨location, hLocate, (keepsFolders_putFile directory location text).locate? hLocate,
    fileAt?_putFile_self directory location text, fun other hOther => ?_⟩
  simp only [fileAt?, find?_putFile_of_ne hOther]

theorem read?_write {path text : String} (h : directory.write? path text = some after) :
    after.read? path = some text := by
  obtain ⟨location, -, hLocate, hText, -⟩ := locate?_write h
  simp [read?, hLocate, hText]

theorem has_of_read? {path text : String} (h : directory.read? path = some text) :
    directory.has path = true := by
  obtain ⟨location, hLocate, hText⟩ := Option.bind_eq_some_iff.1 h
  simp [has, hLocate, hText]

/-- Making folders changes no file. -/
theorem files_makeFolders? {path : String} (h : directory.makeFolders? path = some after) :
    after.files = directory.files := by
  obtain ⟨-, hAfter⟩ := Option.ite_none_left_eq_some.1 h
  rw [← Option.some.inj hAfter]

end PipelineUpkeep.Directory
