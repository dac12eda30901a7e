import PipelineUpkeep.Proofs.TableLaws
import PipelineUpkeep.Store.Operations
/-!
# What a cancellation writes

A cancellation of a list of identifiers changes the stored, cancelable pipelines
among them and the cancelable builds of those, and nothing else.  Canceling one
list after another on behalf of the same pipeline is canceling both at once.
-/

namespace PipelineUpkeep

namespace Store

variable (store : Store) (ids : List Nat) (canceledById : Nat)

/-- A pipeline after a cancellation of `ids`. -/
def cancelChange (row : Pipeline) : Pipeline :=
  if store.isCancelTarget ids row.id then row.afterCancel canceledById else row

/-- A build after a cancellation of `ids`. -/
def cancelBuildChange (build : Build) : Build :=
  if store.isCancelTarget ids build.pipelineId && build.status.isCancelable then
    build.afterCancel canceledById
  else build

theorem rows_pipelines_cancelRows :
    (store.cancelRows ids canceledById).pipelines.rows =
      store.pipelines.rows.map (store.cancelChange ids canceledById) := rfl

theorem rows_builds_cancelRows :
    (store.cancelRows ids canceledById).builds.rows =
      store.builds.rows.map (store.cancelBuildChange ids canceledById) := rfl

/-- A cancellation leaves a field alone that the cancellation of a row does not write. -/
theorem cancelChange_field {β : Type} (field : Pipeline → β)
    (hKeeps : ∀ row : Pipeline, field (row.afterCancel canceledById) = field row)
    (row : Pipeline) : field (store.cancelChange ids canceledById row) = field row := by
  unfold cancelChange
  split
  · exact hKeeps row
  · rfl

@[simp]
theorem cancelChange_id (row : Pipeline) :
    (store.cancelChange ids canceledById row).id = row.id :=
  store.cancelChange_field ids canceledById (·.id) (fun _ => rfl) row

@[simp]
theorem cancelBuildChange_pipelineId (build : Build) :
    (store.cancelBuildChange ids canceledById build).pipelineId = build.pipelineId := by
  unfold cancelBuildChange
  split <;> rfl

variable {store} {ids} {canceledById}

theorem isCancelTarget_of_mem {row : Pipeline} (h : row ∈ store.pipelines.rows) :
    store.isCancelTarget ids row.id = (ids.contains row.id && row.status.isCancelable) := by
  rw [isCancelTarget, store.pipelines.find?_key h]
  rfl

theorem isCancelTarget_of_not_mem {id : Nat} (h : id ∉ ids) :
    store.isCancelTarget ids id = false := by
  simp [isCancelTarget, h]

theorem cancelChange_of_not_mem {row : Pipeline} (h : row.id ∉ ids) :
    store.cancelChange ids canceledById row = row := by
  simp [cancelChange, isCancelTarget_of_not_mem h]

/-- A row outside the canceled identifiers is stored after as it was before. -/
theorem mem_pipelines_cancelRows_iff_of_not_mem {row : Pipeline} (h : row.id ∉ ids) :
    row ∈ (store.cancelRows ids canceledById).pipelines.rows ↔ row ∈ store.pipelines.rows := by
  rw [rows_pipelines_cancelRows, List.mem_map]
  constructor
  · rintro ⟨other, hOther, rfl⟩
    rw [cancelChange_id] at h
    rw [cancelChange_of_not_mem h]
    exact hOther
  · intro hRow
    exact ⟨row, hRow, cancelChange_of_not_mem h⟩

/-- What a stored row has become is found under its identifier. -/
theorem eq_cancelChange_of_id_eq {row later : Pipeline} (hRow : row ∈ store.pipelines.rows)
    (hLater : later ∈ (store.cancelRows ids canceledById).pipelines.rows)
    (hId : later.id = row.id) : later = store.cancelChange ids canceledById row := by
  rw [rows_pipelines_cancelRows, List.mem_map] at hLater
  obtain ⟨other, hOther, rfl⟩ := hLater
  rw [cancelChange_id] at hId
  rw [store.pipelines.eq_of_key_eq hOther hRow hId]

/-- A cancelable row among the canceled ones is canceled. -/
theorem afterCancel_mem_cancelRows {row : Pipeline} (hRow : row ∈ store.pipelines.rows)
    (hId : row.id ∈ ids) (hStatus : row.status.isCancelable = true) :
    row.afterCancel canceledById ∈ (store.cancelRows ids canceledById).pipelines.rows := by
  have hTarget : store.isCancelTarget ids row.id = true := by
    rw [isCancelTarget_of_mem hRow, hStatus]
    simpa using hId
  rw [rows_pipelines_cancelRows]
  refine List.mem_map.mpr ⟨row, hRow, ?_⟩
  rw [cancelChange, if_pos hTarget]

/-- The pipeline under an identifier has been moved to canceled. -/
def Cancels (before after : Store) (id : Nat) : Prop :=
  ∃ row ∈ before.pipelines.rows, row.id = id ∧ row.status ≠ .canceled ∧
    ∃ later ∈ after.pipelines.rows, later.id = id ∧ later.status = .canceled

/-- A stored pipeline that stays as it is is not canceled. -/
theorem not_cancels_of_kept {before after : Store}
    (hKept : ∀ row ∈ before.pipelines.rows, row ∈ after.pipelines.rows) (id : Nat) :
    ¬ before.Cancels after id := by
  rintro ⟨row, hRow, hId, hOld, later, hLater, hLaterId, hNew⟩
  rw [after.pipelines.eq_of_key_eq hLater (hKept row hRow) (hLaterId.trans hId.symm)] at hNew
  exact hOld hNew

/-- Of some identifiers, those of stored, cancelable pipelines are canceled. -/
theorem cancels_cancelRows_iff (id : Nat) :
    store.Cancels (store.cancelRows ids canceledById) id ↔
      id ∈ ids ∧ ∃ row ∈ store.pipelines.rows, row.id = id ∧ row.status.isCancelable = true := by
  constructor
  · rintro ⟨row, hRow, rfl, hOld, later, hLater, hId, hNew⟩
    rw [eq_cancelChange_of_id_eq hRow hLater hId, cancelChange] at hNew
    split at hNew
    · rename_i hTarget
      rw [isCancelTarget_of_mem hRow, Bool.and_eq_true, List.contains_iff_mem] at hTarget
      exact ⟨hTarget.1, row, hRow, rfl, hTarget.2⟩
    · exact absurd hNew hOld
  · rintro ⟨hIds, row, hRow, rfl, hStatus⟩
    refine ⟨row, hRow, rfl, ?_, _, afterCancel_mem_cancelRows hRow hIds hStatus, rfl, rfl⟩
    intro hOld
    rw [hOld] at hStatus
    cases hStatus

/-- The cancelable builds of a canceled row are canceled with it. -/
theorem afterCancel_build_mem_cancelRows {row : Pipeline} (hRow : row ∈ store.pipelines.rows)
    (hId : row.id ∈ ids) (hStatus : row.status.isCancelable = true) {build : Build}
    (hBuild : build ∈ store.builds.rows) (hOwn : build.pipelineId = row.id)
    (hRunning : build.status.isCancelable = true) :
    build.afterCancel canceledById ∈ (store.cancelRows ids canceledById).builds.rows := by
  have hTarget : store.isCancelTarget ids row.id = true := by
    rw [isCancelTarget_of_mem hRow, hStatus]
    simpa using hId
  rw [rows_builds_cancelRows]
  refine List.mem_map.mpr ⟨build, hBuild, ?_⟩
  rw [cancelBuildChange, hOwn, hTarget, hRunning]
  rfl

theorem buildsOf_cancelRows_of_not_mem {id : Nat} (h : id ∉ ids) :
    (store.cancelRows ids canceledById).buildsOf id = store.buildsOf id := by
  have hKeeps : ((fun build : Build => build.pipelineId == id) ∘
      store.cancelBuildChange ids canceledById) = fun build => build.pipelineId == id := by
    funext build
    simp
  unfold buildsOf
  rw [rows_builds_cancelRows, List.filter_map, hKeeps]
  -- The builds that the filter keeps are of `id`, which is no target.
  conv_rhs => rw [← List.map_id (store.builds.rows.filter fun build => build.pipelineId == id)]
  refine List.map_congr_left fun build hBuild => ?_
  have hId : build.pipelineId = id := by simpa using (List.mem_filter.mp hBuild).2
  simp [cancelBuildChange, isCancelTarget_of_not_mem (hId ▸ h)]

theorem find?_pipelines_cancelRows (id : Nat) :
    (store.cancelRows ids canceledById).pipelines.find? id =
      (store.pipelines.find? id).map (store.cancelChange ids canceledById) := by
  rw [cancelRows, Table.find?_mapRows]
  rfl

/-- After a cancellation its own targets are none any more; others still are. -/
theorem isCancelTarget_cancelRows (others : List Nat) (id : Nat) :
    (store.cancelRows ids canceledById).isCancelTarget others id =
      (store.isCancelTarget others id && !store.isCancelTarget ids id) := by
  unfold isCancelTarget
  rw [find?_pipelines_cancelRows]
  cases hFound : store.pipelines.find? id with
  | none => simp
  | some row =>
      obtain ⟨hRow, hId⟩ := (store.pipelines.find?_eq_some_iff id row).mp hFound
      have hTarget : store.isCancelTarget ids row.id =
          (ids.contains row.id && row.status.isCancelable) := isCancelTarget_of_mem hRow
      -- The row has been canceled, and is cancelable no more, exactly if it was a target.
      simp only [Option.map_some, Option.any_some, cancelChange, hTarget, ← hId]
      cases hIds : ids.contains row.id <;> cases hStatus : row.status.isCancelable <;>
        simp [Pipeline.afterCancel, hStatus]

theorem isCancelTarget_append (others : List Nat) (id : Nat) :
    store.isCancelTarget (ids ++ others) id =
      (store.isCancelTarget ids id || store.isCancelTarget others id) := by
  simp [isCancelTarget, Bool.and_or_distrib_right]

@[simp]
theorem isCancelTarget_nil (id : Nat) : store.isCancelTarget [] id = false := by
  simp [isCancelTarget]

theorem cancelRows_nil : store.cancelRows [] canceledById = store := by
  have hPipelines : store.cancelChange [] canceledById = id := by
    funext row
    simp [cancelChange]
  have hBuilds : store.cancelBuildChange [] canceledById = id := by
    funext build
    simp [cancelBuildChange]
  refine Store.ext rfl rfl rfl (Table.ext ?_) (Table.ext ?_) rfl
  · rw [rows_pipelines_cancelRows, hPipelines, List.map_id]
  · rw [rows_builds_cancelRows, hBuilds, List.map_id]

theorem cancelRows_cancelRows (others : List Nat) :
    (store.cancelRows ids canceledById).cancelRows others canceledById =
      store.cancelRows (ids ++ others) canceledById := by
  refine Store.ext rfl rfl rfl (Table.ext ?_) (Table.ext ?_) rfl
  · rw [rows_pipelines_cancelRows, rows_pipelines_cancelRows, rows_pipelines_cancelRows,
      List.map_map]
    refine List.map_congr_left fun row _ => ?_
    simp only [Function.comp_apply, cancelChange, isCancelTarget_append]
    by_cases hFirst : store.isCancelTarget ids row.id = true
    · simp [hFirst, isCancelTarget_cancelRows, Pipeline.afterCancel]
    · simp [hFirst, isCancelTarget_cancelRows]
  · rw [rows_builds_cancelRows, rows_builds_cancelRows, rows_builds_cancelRows, List.map_map]
    refine List.map_congr_left fun build _ => ?_
    simp only [Function.comp_apply, cancelBuildChange, isCancelTarget_append]
    by_cases hFirst : store.isCancelTarget ids build.pipelineId = true
    · by_cases hStatus : build.status.isCancelable = true
      · simp [hFirst, hStatus, Build.afterCancel]
      · simp [hFirst, hStatus]
    · simp [hFirst, isCancelTarget_cancelRows]

/-- A cancellation of a stored, cancelable row at its own version succeeds and
writes that row only. -/
theorem cancelRunning_of_mem {row : Pipeline} (hRow : row ∈ store.pipelines.rows)
    (hStatus : row.status.isCancelable = true) :
    store.cancelRunning row ⟨canceledById, false⟩ =
      (.ok .canceled, store.cancelRows [row.id] canceledById) := by
  simp [cancelRunning, store.pipelines.find?_key hRow, hStatus, cancelReach]

/-- A call without cascade writes nothing, or cancels the one row that it names, as that
row is stored. -/
theorem cancelRunning_cases (row : Pipeline) (canceledById : Nat) :
    ((store.cancelRunning row ⟨canceledById, false⟩).1 ≠ .ok .canceled ∧
        (store.cancelRunning row ⟨canceledById, false⟩).2 = store) ∨
      ∃ current ∈ store.pipelines.rows, current.id = row.id ∧
        current.status.isCancelable = true ∧ current.lockVersion = row.lockVersion ∧
        store.cancelRunning row ⟨canceledById, false⟩ =
          (.ok .canceled, store.cancelRows [current.id] canceledById) := by
  cases hFound : store.pipelines.find? row.id with
  | none => left; simp [cancelRunning, hFound]
  | some current =>
      obtain ⟨hMem, hId⟩ := (store.pipelines.find?_eq_some_iff _ _).mp hFound
      cases hStatus : current.status.isCancelable with
      | false => left; simp [cancelRunning, hFound, hStatus]
      | true =>
          by_cases hVersion : current.lockVersion = row.lockVersion
          · right
            refine ⟨current, hMem, hId, hStatus, hVersion, ?_⟩
            simp [cancelRunning, hFound, hStatus, hVersion, cancelReach]
          · left; simp [cancelRunning, hFound, hStatus, hVersion]

variable (store)

/-- Some build of the pipeline has not completed and is not interruptible. -/
def HasBlockingBuild (id : Nat) : Prop :=
  ∃ build ∈ store.builds.rows, build.pipelineId = id ∧ build.status.isCompleted = false ∧
    build.interruptible = false

/-- Whether a build of the pipeline keeps it from being canceled, as queries test it. -/
def isBlocked (id : Nat) : Bool :=
  (store.buildsOf id).any Build.blocksAutoCancel

theorem isBlocked_eq_true_iff (id : Nat) :
    store.isBlocked id = true ↔ store.HasBlockingBuild id := by
  simp only [isBlocked, buildsOf, List.any_eq_true, List.mem_filter, beq_iff_eq,
    Build.blocksAutoCancel, Bool.and_eq_true, Bool.not_eq_true', HasBlockingBuild]
  constructor
  · rintro ⟨build, ⟨hBuild, hId⟩, hStatus, hFlag⟩
    exact ⟨build, hBuild, hId, hStatus, hFlag⟩
  · rintro ⟨build, hBuild, hId, hStatus, hFlag⟩
    exact ⟨build, ⟨hBuild, hId⟩, hStatus, hFlag⟩

theorem isBlocked_eq_false_iff (id : Nat) :
    store.isBlocked id = false ↔ ¬ store.HasBlockingBuild id := by
  rw [← isBlocked_eq_true_iff, Bool.not_eq_true]

variable {store} in
theorem isBlocked_cancelRows_of_not_mem {id : Nat} (h : id ∉ ids) :
    (store.cancelRows ids canceledById).isBlocked id = store.isBlocked id := by
  unfold isBlocked
  rw [buildsOf_cancelRows_of_not_mem h]

end Store

end PipelineUpkeep
