import PipelineUpkeep.Proofs.ConcurrentRuns
/-!
# What a pipeline keeps from its creation

Projects are never written, and of a stored pipeline only its status, its version and its
attribution are.  Everything that makes a pipeline redundant apart from its status, the
links between parents and children included, was settled when it was created.  So a row
that once qualified for a run still does when the run comes to cancel it, however many
rows have been added since.
-/

namespace PipelineUpkeep

open Time

/-- Both rows were created as the same pipeline. -/
structure Pipeline.SameOrigin (row later : Pipeline) : Prop where
  id : later.id = row.id
  projectId : later.projectId = row.projectId
  ref : later.ref = row.ref
  sha : later.sha = row.sha
  source : later.source = row.source
  createdAt : later.createdAt = row.createdAt
  parentId : later.parentId = row.parentId

namespace Pipeline

theorem SameOrigin.refl (row : Pipeline) : row.SameOrigin row :=
  ⟨rfl, rfl, rfl, rfl, rfl, rfl, rfl⟩

theorem SameOrigin.trans {row middle later : Pipeline} (h : row.SameOrigin middle)
    (hLater : middle.SameOrigin later) : row.SameOrigin later where
  id := hLater.id.trans h.id
  projectId := hLater.projectId.trans h.projectId
  ref := hLater.ref.trans h.ref
  sha := hLater.sha.trans h.sha
  source := hLater.source.trans h.source
  createdAt := hLater.createdAt.trans h.createdAt
  parentId := hLater.parentId.trans h.parentId

theorem Becomes.sameOrigin {row later : Pipeline} (h : row.Becomes later) :
    row.SameOrigin later := by
  rcases h with rfl | ⟨-, canceledById, rfl⟩
  · exact .refl _
  · exact ⟨rfl, rfl, rfl, rfl, rfl, rfl, rfl⟩

end Pipeline

namespace Store

/-- Projects stand as they were, and stored pipelines as they were created. -/
structure KeepsOrigins (before after : Store) : Prop where
  projects : after.projects = before.projects
  pipelines : ∀ row ∈ before.pipelines.rows, ∃ later ∈ after.pipelines.rows, row.SameOrigin later

theorem KeepsOrigins.refl (store : Store) : store.KeepsOrigins store :=
  ⟨rfl, fun row hRow => ⟨row, hRow, .refl row⟩⟩

theorem KeepsOrigins.trans {before middle after : Store} (h : before.KeepsOrigins middle)
    (hLater : middle.KeepsOrigins after) : before.KeepsOrigins after where
  projects := hLater.projects.trans h.projects
  pipelines row hRow := by
    obtain ⟨between, hBetween, hFirst⟩ := h.pipelines row hRow
    obtain ⟨last, hLast, hSecond⟩ := hLater.pipelines between hBetween
    exact ⟨last, hLast, hFirst.trans hSecond⟩

theorem projects_perform (call : StoreCall) (store : Store) :
    (call.perform store).2.projects = store.projects := by
  cases call with
  | cancelRunning row request =>
      simp only [StoreCall.perform, cancelRunning]
      repeat' split
      all_goals rfl
  | advanceNextRun id observed next =>
      simp only [StoreCall.perform, advanceNextRun]
      repeat' split
      all_goals rfl
  | recordLastPipeline id pipelineId =>
      simp only [StoreCall.perform, recordLastPipeline]
      split <;> rfl
  | _ => rfl

theorem keepsOrigins_perform (call : StoreCall) (store : Store) :
    store.KeepsOrigins (call.perform store).2 where
  projects := projects_perform call store
  pipelines row hRow := by
    obtain ⟨later, hLater, hBecomes⟩ := (evolves_perform call store).pipelines row hRow
    exact ⟨later, hLater, hBecomes.sameOrigin⟩

theorem Calls.keepsOrigins {before after : Store} (h : before.Calls after) :
    before.KeepsOrigins after := by
  obtain ⟨call, rfl⟩ := h
  exact keepsOrigins_perform call before

end Store

theorem Request.Occurs.keepsOrigins {asked : Request} {before after : Store}
    {answer : asked.Answer} (h : asked.Occurs before answer after) :
    before.KeepsOrigins after := by
  rcases h.eq_or_calls with rfl | hCalls
  · exact .refl after
  · exact hCalls.keepsOrigins

/-- Projects and origins of pipelines are at every moment as they were at the start. -/
theorem Interleaved.keepsOrigins_before {ι : Type} [DecidableEq ι] {α : ι → Type}
    {start final : System α} {history : List (Moment ι)}
    (h : Interleaved Store.Calls start history final) {moment : Moment ι}
    (hMoment : moment ∈ history) : start.store.KeepsOrigins moment.before :=
  (h.relates_moment Store.KeepsOrigins.refl Store.KeepsOrigins.trans
    (fun hCall => hCall.keepsOrigins)
    (fun other hOther => (h.occurs other hOther).keepsOrigins) hMoment).1

/-! ## What does not change about redundant rows -/

section Later

variable {before after : Store} {row later : Pipeline}

/-- Two stored rows with one identifier, at different times, are one pipeline. -/
theorem Store.KeepsOrigins.sameOrigin (h : before.KeepsOrigins after)
    (hRow : row ∈ before.pipelines.rows) (hLater : later ∈ after.pipelines.rows)
    (hId : later.id = row.id) : row.SameOrigin later := by
  obtain ⟨kept, hKept, hSame⟩ := h.pipelines row hRow
  rw [after.pipelines.eq_of_key_eq hLater hKept (hId.trans hSame.id.symm)]
  exact hSame

/-- Rows that are added or written in between break no chain of parents. -/
theorem Store.KeepsOrigins.descends {isRoot : Pipeline → Prop} (hKeeps : before.KeepsOrigins after)
    (hRoots : ∀ {first last : Pipeline}, first.SameOrigin last → isRoot first → isRoot last)
    (h : Descends before.pipelines.rows isRoot row) (hLater : later ∈ after.pipelines.rows)
    (hSame : row.SameOrigin later) : Descends after.pipelines.rows isRoot later := by
  induction h generalizing later with
  | root _ hRoot => exact .root hLater (hRoots hSame hRoot)
  | child hParent _ hLink hProject ih =>
      obtain ⟨kept, hKept, hSameParent⟩ := hKeeps.pipelines _ hParent.mem
      refine .child (ih hKept hSameParent) hLater ?_ ?_
      · rw [hSame.parentId, hLink, hSameParent.id]
      · rw [hSame.projectId, hProject, hSameParent.projectId]

variable {pipeline : Pipeline} {windowStart : Timestamp} {headSha : Option String}

theorem FitsRef.of_sameOrigin (h : FitsRef pipeline windowStart headSha row)
    (hSame : row.SameOrigin later) : FitsRef pipeline windowStart headSha later where
  project := hSame.projectId.trans h.project
  ref := hSame.ref.trans h.ref
  inWindow := hSame.createdAt.symm ▸ h.inWindow
  notHead := hSame.sha.symm ▸ h.notHead

/-- What once qualified, for some tip, always does for this tip. -/
theorem Store.KeepsOrigins.qualifies {strategy : Strategy} (hKeeps : before.KeepsOrigins after)
    (h : Qualifies before.pipelines.rows strategy pipeline windowStart headSha row)
    (hLater : later ∈ after.pipelines.rows) (hSame : row.SameOrigin later) :
    Qualifies after.pipelines.rows strategy pipeline windowStart headSha later := by
  cases strategy with
  | flat =>
      obtain ⟨-, hFits, hOther, hSource, hParent⟩ := h
      refine ⟨hLater, hFits.of_sameOrigin hSame, ?_, ?_, hSame.parentId.trans hParent⟩
      · rw [hSame.id]
        exact hOther
      · rw [hSame.source]
        exact hSource
  | hierarchy =>
      refine hKeeps.descends ?_ h hLater hSame
      rintro first last hRoot ⟨hFits, hOlder, hSource⟩
      refine ⟨hFits.of_sameOrigin hRoot, ?_, ?_⟩
      · rw [hRoot.createdAt]
        exact hOlder
      · rw [hRoot.source]
        exact hSource

end Later

end PipelineUpkeep
