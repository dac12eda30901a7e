import PipelineUpkeep.Proofs.CancelRows
import PipelineUpkeep.Store.Call
/-!
# How a store evolves

A stored pipeline or build is never removed, and the only thing that ever happens to
it is one cancellation; what has been canceled is never written again.  A new build
belongs to a new pipeline.  Both hold for every single store call, and so for any
number of them by any callers in any order.
-/

namespace PipelineUpkeep

/-- What may be canceled stays as it is, or is canceled on behalf of some pipeline. -/
def CanceledAtMost {α : Type} (isCancelable : α → Bool) (afterCancel : α → Nat → α)
    (row later : α) : Prop :=
  later = row ∨ (isCancelable row = true ∧ ∃ canceledById, later = afterCancel row canceledById)

namespace CanceledAtMost

variable {α : Type} {isCancelable : α → Bool} {afterCancel : α → Nat → α} {row middle later : α}

/-- Nothing is canceled twice. -/
theorem trans (hAbsorbs : ∀ row canceledById, isCancelable (afterCancel row canceledById) = false)
    (h : CanceledAtMost isCancelable afterCancel row middle)
    (hLater : CanceledAtMost isCancelable afterCancel middle later) :
    CanceledAtMost isCancelable afterCancel row later := by
  rcases h with rfl | ⟨hStatus, canceledById, rfl⟩
  · exact hLater
  · rcases hLater with rfl | ⟨hAgain, -⟩
    · exact Or.inr ⟨hStatus, canceledById, rfl⟩
    · rw [hAbsorbs] at hAgain
      cases hAgain

/-- What may not be canceled stays as it is. -/
theorem eq_of_not_isCancelable (h : CanceledAtMost isCancelable afterCancel row later)
    (hStatus : isCancelable row = false) : later = row := by
  rcases h with rfl | ⟨hCancelable, -⟩
  · rfl
  · rw [hStatus] at hCancelable
    cases hCancelable

end CanceledAtMost

/-- What becomes of a stored pipeline. -/
def Pipeline.Becomes : Pipeline → Pipeline → Prop :=
  CanceledAtMost (·.status.isCancelable) Pipeline.afterCancel

/-- What becomes of a stored build. -/
def Build.Becomes : Build → Build → Prop :=
  CanceledAtMost (·.status.isCancelable) Build.afterCancel

namespace Pipeline

theorem Becomes.refl (row : Pipeline) : row.Becomes row := Or.inl rfl

theorem Becomes.trans {row middle later : Pipeline} (h : row.Becomes middle)
    (hLater : middle.Becomes later) : row.Becomes later :=
  CanceledAtMost.trans (fun _ _ => rfl) h hLater

theorem Becomes.id_eq {row later : Pipeline} (h : row.Becomes later) : later.id = row.id := by
  rcases h with rfl | ⟨-, _, rfl⟩ <;> rfl

end Pipeline

namespace Build

theorem Becomes.refl (build : Build) : build.Becomes build := Or.inl rfl

theorem Becomes.trans {build middle later : Build} (h : build.Becomes middle)
    (hLater : middle.Becomes later) : build.Becomes later :=
  CanceledAtMost.trans (fun _ _ => rfl) h hLater

theorem Becomes.pipelineId_eq {build later : Build} (h : build.Becomes later) :
    later.pipelineId = build.pipelineId := by
  rcases h with rfl | ⟨-, _, rfl⟩ <;> rfl

/-- A build that does not block cancellation never comes to block it. -/
theorem Becomes.blocksAutoCancel_eq_false {build later : Build} (h : build.Becomes later)
    (hFree : build.blocksAutoCancel = false) : later.blocksAutoCancel = false := by
  rcases h with rfl | ⟨-, _, rfl⟩
  · exact hFree
  · rfl

end Build

namespace Store

/-- Some store calls lead from one store to the other, as far as pipelines and builds
can tell. -/
structure Evolves (before after : Store) : Prop where
  pipelines : ∀ row ∈ before.pipelines.rows, ∃ later ∈ after.pipelines.rows, row.Becomes later
  builds : ∀ build ∈ before.builds.rows, ∃ later ∈ after.builds.rows, build.Becomes later
  newBuilds : ∀ later ∈ after.builds.rows,
    (∃ build ∈ before.builds.rows, build.Becomes later) ∨
      ∀ row ∈ before.pipelines.rows, row.id ≠ later.pipelineId

theorem Evolves.refl (store : Store) : store.Evolves store where
  pipelines row hRow := ⟨row, hRow, .refl row⟩
  builds build hBuild := ⟨build, hBuild, .refl build⟩
  newBuilds later hLater := Or.inl ⟨later, hLater, .refl later⟩

theorem Evolves.trans {before middle after : Store} (h : before.Evolves middle)
    (hLater : middle.Evolves after) : before.Evolves after where
  pipelines row hRow := by
    obtain ⟨between, hBetween, hFirst⟩ := h.pipelines row hRow
    obtain ⟨last, hLast, hSecond⟩ := hLater.pipelines between hBetween
    exact ⟨last, hLast, hFirst.trans hSecond⟩
  builds build hBuild := by
    obtain ⟨between, hBetween, hFirst⟩ := h.builds build hBuild
    obtain ⟨last, hLast, hSecond⟩ := hLater.builds between hBetween
    exact ⟨last, hLast, hFirst.trans hSecond⟩
  newBuilds last hLast := by
    rcases hLater.newBuilds last hLast with ⟨between, hBetween, hSecond⟩ | hNew
    · rcases h.newBuilds between hBetween with ⟨build, hBuild, hFirst⟩ | hNew
      · exact Or.inl ⟨build, hBuild, hFirst.trans hSecond⟩
      · rw [← hSecond.pipelineId_eq] at hNew
        exact Or.inr hNew
    · right
      intro row hRow
      obtain ⟨between, hBetween, hFirst⟩ := h.pipelines row hRow
      rw [← hFirst.id_eq]
      exact hNew between hBetween

/-- Stores with the same pipelines and builds. -/
theorem Evolves.of_eq {before after : Store} (hPipelines : after.pipelines = before.pipelines)
    (hBuilds : after.builds = before.builds) : before.Evolves after where
  pipelines row hRow := ⟨row, hPipelines ▸ hRow, .refl row⟩
  builds build hBuild := ⟨build, hBuilds ▸ hBuild, .refl build⟩
  newBuilds later hLater := Or.inl ⟨later, hBuilds ▸ hLater, .refl later⟩

theorem evolves_cancelRows (store : Store) (ids : List Nat) (canceledById : Nat) :
    store.Evolves (store.cancelRows ids canceledById) := by
  have hPipeline : ∀ row ∈ store.pipelines.rows,
      row.Becomes (store.cancelChange ids canceledById row) := by
    intro row hRow
    unfold cancelChange
    split
    · rename_i hTarget
      rw [isCancelTarget_of_mem hRow, Bool.and_eq_true] at hTarget
      exact Or.inr ⟨hTarget.2, canceledById, rfl⟩
    · exact .refl row
  have hBuild : ∀ build : Build,
      build.Becomes (store.cancelBuildChange ids canceledById build) := by
    intro build
    unfold cancelBuildChange
    split
    · rename_i hTarget
      rw [Bool.and_eq_true] at hTarget
      exact Or.inr ⟨hTarget.2, canceledById, rfl⟩
    · exact .refl build
  constructor
  · intro row hRow
    exact ⟨_, List.mem_map_of_mem hRow, hPipeline row hRow⟩
  · intro build hMem
    exact ⟨_, List.mem_map_of_mem hMem, hBuild build⟩
  · intro later hLater
    obtain ⟨build, hMem, rfl⟩ := List.mem_map.mp hLater
    exact Or.inl ⟨build, hMem, hBuild build⟩

/-- Adding builds keeps those that are there; the added ones belong to one pipeline. -/
theorem mem_addBuilds {pipelineId : Nat} {builds : Table Build Build.id} {new : List NewBuild}
    (build : Build) (h : build ∈ (addBuilds pipelineId builds new).rows) :
    build ∈ builds.rows ∨ build.pipelineId = pipelineId := by
  induction new generalizing builds with
  | nil => exact Or.inl h
  | cons first rest ih =>
      rcases ih h with hOld | hAdded
      · rw [Table.mem_rows_insert_iff_of_fresh _ (Nat.le_refl _)] at hOld
        rcases hOld with rfl | hOld
        · exact Or.inr rfl
        · exact Or.inl hOld
      · exact Or.inr hAdded

theorem mem_addBuilds_of_mem {pipelineId : Nat} {builds : Table Build Build.id}
    {new : List NewBuild} {build : Build} (h : build ∈ builds.rows) :
    build ∈ (addBuilds pipelineId builds new).rows := by
  induction new generalizing builds with
  | nil => exact h
  | cons first rest ih =>
      apply ih
      rw [Table.mem_rows_insert_iff_of_fresh _ (Nat.le_refl _)]
      exact Or.inr h

theorem evolves_createPipeline (store : Store) (new : NewPipeline) :
    store.Evolves (store.createPipeline new).2 := by
  constructor
  · intro row hRow
    refine ⟨row, ?_, .refl row⟩
    show row ∈ (store.pipelines.insert _).rows
    rw [Table.mem_rows_insert_iff_of_fresh _ (Nat.le_refl _)]
    exact Or.inr hRow
  · intro build hBuild
    exact ⟨build, mem_addBuilds_of_mem hBuild, .refl build⟩
  · intro later hLater
    rcases mem_addBuilds later hLater with hOld | hNew
    · exact Or.inl ⟨later, hOld, .refl later⟩
    · right
      intro row hRow
      -- The builds belong to the new pipeline, whose identifier no stored one has.
      have hFresh : row.id < store.pipelines.nextKey := store.pipelines.key_lt_nextKey hRow
      rw [hNew]
      exact Nat.ne_of_lt hFresh

/-- Every store call, failing or not. -/
theorem evolves_perform (call : StoreCall) (store : Store) :
    store.Evolves (call.perform store).2 := by
  cases call with
  | createPipeline new => exact evolves_createPipeline store new
  | cancelRunning row request =>
      show store.Evolves (store.cancelRunning row request).2
      unfold cancelRunning
      split
      · exact .refl store
      · split
        · exact .refl store
        · split
          · exact .refl store
          · exact evolves_cancelRows store _ _
  | setRefHead head => exact .of_eq rfl rfl
  | advanceNextRun id observed next =>
      show store.Evolves (store.advanceNextRun id observed next).2
      unfold advanceNextRun
      split
      · exact .refl store
      · split
        · exact .refl store
        · exact .of_eq rfl rfl
  | recordLastPipeline id pipelineId =>
      show store.Evolves (store.recordLastPipeline id pipelineId).2
      unfold recordLastPipeline
      split
      · exact .refl store
      · exact .of_eq rfl rfl
  | _ =>
      exact .refl store

/-- Only a call that cancels changes a stored pipeline. -/
theorem mem_pipelines_perform {call : StoreCall}
    (hOther : ∀ row request, call ≠ .cancelRunning row request) {store : Store}
    {row : Pipeline} (hRow : row ∈ store.pipelines.rows) :
    row ∈ (call.perform store).2.pipelines.rows := by
  cases call with
  | cancelRunning other request => exact absurd rfl (hOther other request)
  | createPipeline new =>
      show row ∈ (store.pipelines.insert _).rows
      rw [Table.mem_rows_insert_iff_of_fresh _ (Nat.le_refl _)]
      exact Or.inr hRow
  | advanceNextRun id observed next =>
      simp only [StoreCall.perform, advanceNextRun]
      repeat' split
      all_goals exact hRow
  | recordLastPipeline id pipelineId =>
      simp only [StoreCall.perform, recordLastPipeline]
      split <;> exact hRow
  | _ => exact hRow

/-- Anyone has performed one store call, successfully or not. -/
def Calls (before after : Store) : Prop :=
  ∃ call : StoreCall, after = (call.perform before).2

theorem Calls.evolves {before after : Store} (h : before.Calls after) : before.Evolves after := by
  obtain ⟨call, rfl⟩ := h
  exact evolves_perform call before

/-- A stored pipeline that no build blocks stays stored, and no build blocks it. -/
theorem Evolves.isBlocked_eq_false {before after : Store} (h : before.Evolves after)
    {row : Pipeline} (hRow : row ∈ before.pipelines.rows)
    (hFree : before.isBlocked row.id = false) : after.isBlocked row.id = false := by
  rw [isBlocked, List.any_eq_false] at hFree ⊢
  intro later hLater
  obtain ⟨hMem, hId⟩ := List.mem_filter.mp hLater
  rw [beq_iff_eq] at hId
  rcases h.newBuilds later hMem with ⟨build, hBuild, hBecomes⟩ | hNew
  · have hOwn : build ∈ before.buildsOf row.id := by
      refine List.mem_filter.mpr ⟨hBuild, ?_⟩
      rw [beq_iff_eq, ← hBecomes.pipelineId_eq, hId]
    have hOld : build.blocksAutoCancel = false := by simpa using hFree build hOwn
    rw [hBecomes.blocksAutoCancel_eq_false hOld]
    exact Bool.false_ne_true
  · exact absurd hId.symm (hNew row hRow)

end Store

end PipelineUpkeep
