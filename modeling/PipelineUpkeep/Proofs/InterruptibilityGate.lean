import PipelineUpkeep.Proofs.ConcurrentRuns
/-!
# No run interrupts what must not be interrupted

A run reads which pipelines no build blocks in one call and cancels them in later ones.
Whatever runs and other callers do in between, a pipeline that a run moves to canceled is
one that was still alive or scheduled, and none of whose builds stood in the way.
-/

namespace PipelineUpkeep

variable {κ : Type} [DecidableEq κ] {runs : κ → CancellationRun} {store : Store}
  {history : List (Moment κ)}
  {final : System fun _ : κ => Except UpkeepError CancellationReport}

/-- At the very moment at which a run moves a pipeline to canceled, the pipeline is alive
or scheduled and each of its builds has completed or is interruptible. -/
theorem canceled_pipeline_was_interruptible
    (h : Interleaved Store.Calls (CancellationRun.system store runs) history final)
    {moment : Moment κ} (hMoment : moment ∈ history) {row later : Pipeline}
    (hRow : row ∈ moment.before.pipelines.rows) (hLater : later ∈ moment.after.pipelines.rows)
    (hId : later.id = row.id) (hOld : row.status ≠ .canceled) (hNew : later.status = .canceled) :
    row.status.isAliveOrScheduled = true ∧
      ∀ build ∈ moment.before.builds.rows, build.pipelineId = row.id →
        build.status.isCompleted = true ∨ build.interruptible = true := by
  rcases h.run_cases hMoment with ⟨hSame, -⟩ | hCancels
  · rw [hSame] at hLater
    rw [moment.before.pipelines.eq_of_key_eq hLater hRow hId] at hNew
    exact absurd hNew hOld
  · obtain ⟨current, -, -, hFree, -, hAfter⟩ := hCancels
    rw [hAfter] at hLater
    have hChange := Store.eq_cancelChange_of_id_eq hRow hLater hId
    unfold Store.cancelChange at hChange
    rw [Store.isCancelTarget_of_mem hRow] at hChange
    split at hChange
    · rename_i hTarget
      obtain ⟨hSameId, hStatus⟩ := Bool.and_eq_true_iff.mp hTarget
      have hRowId : row.id = current.id := by simpa using hSameId
      rw [← hRowId, Store.isBlocked_eq_false_iff] at hFree
      refine ⟨hStatus, fun build hBuild hOwn => ?_⟩
      by_contra hBoth
      obtain ⟨hRunning, hFlag⟩ := not_or.mp hBoth
      exact hFree ⟨build, hBuild, hOwn, by simpa using hRunning, by simpa using hFlag⟩
    · rw [hChange] at hNew
      exact absurd hNew hOld

/-- The run of the newest pipeline of a crowded ref, up to its first cancellation. -/
def crowdedRefHistory : List (Moment Unit) :=
  ((CancellationRun.system crowdedRef fun _ : Unit =>
    ⟨.fixed ⟨true, false⟩, .standard, pushedPipeline 3⟩).play ⟨604800, 0⟩
      (List.replicate 7 ())).1

/-- The cancellation itself. -/
def crowdedRefMoment : Moment Unit :=
  crowdedRefHistory.get ⟨6, by decide +kernel⟩

theorem canceled_pipeline_was_interruptible_crowdedRef :
    (pushedPipeline 1).status.isAliveOrScheduled = true ∧
      ∀ build ∈ crowdedRefMoment.before.builds.rows, build.pipelineId = 1 →
        build.status.isCompleted = true ∨ build.interruptible = true :=
  canceled_pipeline_was_interruptible (interleaved_play _ _ _ _)
    (List.get_mem crowdedRefHistory ⟨6, by decide +kernel⟩)
    (by decide +kernel : pushedPipeline 1 ∈ crowdedRefMoment.before.pipelines.rows)
    (by decide +kernel :
      (pushedPipeline 1).afterCancel 3 ∈ crowdedRefMoment.after.pipelines.rows)
    rfl (by decide) rfl

end PipelineUpkeep
