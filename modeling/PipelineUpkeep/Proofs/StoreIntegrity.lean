import PipelineUpkeep.Proofs.CreationAccount
import PipelineUpkeep.Proofs.LastRows
import PipelineUpkeep.Proofs.StoreHistory
/-!
# The integrity of a store

In a well-formed store every row is found under its own key and under no other, and the
pipeline of every build is stored.  The first is part of what a table is, since a change of
rows has to keep their keys.  The second is checked by no call, but kept by every call:
pipelines are never removed, and the builds that come belong to the pipeline that comes with
them.  Therefore no stored build belongs to the identifier of a new pipeline, and the builds
that are found for it are those that were asked for.
-/

namespace PipelineUpkeep

namespace RefTable

theorem find?_eq_some_iff (refs : RefTable) (projectId : Nat) (ref : String) (head : RefHead) :
    refs.find? projectId ref = some head ↔ head ∈ refs.heads ∧ head.key = (projectId, ref) := by
  obtain ⟨heads, hDistinct⟩ := refs
  show heads.find? (fun head => head.key == (projectId, ref)) = some head ↔ _
  induction heads with
  | nil => simp
  | cons first rest ih =>
      obtain ⟨hFirst, hRest⟩ := List.pairwise_cons.mp hDistinct
      by_cases hKey : first.key = (projectId, ref)
      · have hOthers : ∀ other ∈ rest, other.key ≠ (projectId, ref) := by
          intro other hOther hSame
          exact hFirst other hOther (hKey.trans hSame.symm)
        simp only [List.find?_cons, hKey, beq_self_eq_true, Option.some.injEq, List.mem_cons]
        constructor
        · rintro rfl
          exact ⟨Or.inl rfl, hKey⟩
        · rintro ⟨rfl | hMem, hSame⟩
          · rfl
          · exact absurd hSame (hOthers head hMem)
      · simp only [List.find?_cons, beq_eq_false_iff_ne.mpr hKey, ih hRest, List.mem_cons]
        constructor
        · rintro ⟨hMem, hSame⟩
          exact ⟨Or.inr hMem, hSame⟩
        · rintro ⟨rfl | hMem, hSame⟩
          · exact absurd hSame hKey
          · exact ⟨hMem, hSame⟩

end RefTable

/-- A key leads to the row that has it as its own, if there is one. -/
def Table.IsKeyed {α : Type} {key : α → Nat} (table : Table α key) : Prop :=
  ∀ k row, table.find? k = some row ↔ row ∈ table.rows ∧ key row = k

namespace Store

/-- The pipeline of every build is stored. -/
def HasOwners (store : Store) : Prop :=
  ∀ build ∈ store.builds.rows, ∃ row ∈ store.pipelines.rows, row.id = build.pipelineId

/-- Rows are found under their own keys, and builds belong to stored pipelines. -/
structure IsWellFormed (store : Store) : Prop where
  projects : store.projects.IsKeyed
  users : store.users.IsKeyed
  refs : ∀ projectId ref head, store.refs.find? projectId ref = some head ↔
    head ∈ store.refs.heads ∧ head.projectId = projectId ∧ head.ref = ref
  pipelines : store.pipelines.IsKeyed
  builds : store.builds.IsKeyed
  schedules : store.schedules.IsKeyed
  owners : store.HasOwners

theorem HasOwners.isWellFormed {store : Store} (h : store.HasOwners) : store.IsWellFormed where
  projects := store.projects.find?_eq_some_iff
  users := store.users.find?_eq_some_iff
  refs projectId ref head := by
    rw [store.refs.find?_eq_some_iff, RefHead.key, Prod.mk.injEq]
  pipelines := store.pipelines.find?_eq_some_iff
  builds := store.builds.find?_eq_some_iff
  schedules := store.schedules.find?_eq_some_iff
  owners := h

/-! ## What every call keeps -/

/-- Of the builds that a snapshot repeats only the last counts, and so of its pipelines; but
some pipeline of every identifier stays. -/
theorem hasOwners_ofSnapshot {snapshot : Snapshot}
    (h : ∀ build ∈ snapshot.builds, ∃ row ∈ snapshot.pipelines, row.id = build.pipelineId) :
    (ofSnapshot snapshot).HasOwners := by
  intro build hBuild
  obtain ⟨row, hRow, hOwner⟩ := h build (Table.mem_of_mem_ofList hBuild)
  obtain ⟨last, hLast, hId⟩ := exists_isLastOfKey Pipeline.id hRow
  have hStored : last ∈ (ofSnapshot snapshot).pipelines.rows :=
    (Table.mem_rows_ofList_iff snapshot.pipelines last).mpr hLast
  exact ⟨last, hStored, hId.trans hOwner⟩

/-- A call writes builds under pipelines that had builds before, or under the pipeline that it
inserts. -/
theorem owner_of_mem_builds_perform {call : StoreCall} {store : Store} {later : Build}
    (h : later ∈ (call.perform store).2.builds.rows) :
    (∃ build ∈ store.builds.rows, build.pipelineId = later.pipelineId) ∨
      ∃ row ∈ (call.perform store).2.pipelines.rows, row.id = later.pipelineId := by
  cases call with
  | createPipeline new =>
      change later ∈ (store.createPipeline new).2.builds.rows at h
      rw [rows_builds_createPipeline] at h
      rcases List.mem_append.mp h with hOld | hNew
      · exact Or.inl ⟨later, hOld, rfl⟩
      · exact Or.inr ⟨_, store.mem_createPipeline new, (mem_buildRows hNew).symm⟩
  | cancelRunning row request =>
      left
      simp only [StoreCall.perform, cancelRunning] at h
      split at h
      · exact ⟨later, h, rfl⟩
      · split at h
        · exact ⟨later, h, rfl⟩
        · split at h
          · exact ⟨later, h, rfl⟩
          · rw [rows_builds_cancelRows] at h
            obtain ⟨build, hBuild, rfl⟩ := List.mem_map.mp h
            exact ⟨build, hBuild, (store.cancelBuildChange_pipelineId _ _ build).symm⟩
  | advanceNextRun id observed next =>
      left
      simp only [StoreCall.perform, advanceNextRun] at h
      split at h
      · exact ⟨later, h, rfl⟩
      · split at h <;> exact ⟨later, h, rfl⟩
  | recordLastPipeline id pipelineId =>
      left
      simp only [StoreCall.perform, recordLastPipeline] at h
      split at h <;> exact ⟨later, h, rfl⟩
  | _ => exact Or.inl ⟨later, h, rfl⟩

theorem HasOwners.perform {store : Store} (h : store.HasOwners) (call : StoreCall) :
    (call.perform store).2.HasOwners := by
  intro later hLater
  rcases owner_of_mem_builds_perform hLater with ⟨build, hBuild, hSame⟩ | hOwner
  · obtain ⟨row, hRow, hId⟩ := h build hBuild
    obtain ⟨kept, hKept, hBecomes⟩ := (evolves_perform call store).pipelines row hRow
    refine ⟨kept, hKept, ?_⟩
    rw [hBecomes.id_eq, hId, hSame]
  · exact hOwner

theorem HasOwners.afterCalls {store : Store} (h : store.HasOwners) (calls : List StoreCall) :
    (store.afterCalls calls).HasOwners := by
  induction calls generalizing store with
  | nil => exact h
  | cons call rest ih =>
      rw [afterCalls_cons]
      exact ih (h.perform call)

end Store

/-! ## A new pipeline -/

/-- The build as it was asked for. -/
def Build.asRequested (build : Build) : NewBuild :=
  ⟨build.name, build.status, build.interruptible⟩

theorem map_id_buildRows (pipelineId first : Nat) (new : List NewBuild) :
    (buildRows pipelineId first new).map (·.id) = List.range' first new.length := by
  rw [buildRows, List.map_map, ← List.zipIdx_map_snd first new]
  rfl

theorem map_asRequested_buildRows (pipelineId first : Nat) (new : List NewBuild) :
    (buildRows pipelineId first new).map Build.asRequested = new := by
  rw [buildRows, List.map_map]
  exact List.zipIdx_map_fst first new

theorem autoCanceledById_of_mem_buildRows {pipelineId first : Nat} {new : List NewBuild}
    {build : Build} (h : build ∈ buildRows pipelineId first new) :
    build.autoCanceledById = none := by
  obtain ⟨_, -, rfl⟩ := List.mem_map.mp h
  rfl

namespace Store

/-- A pipeline and its builds have come to the store, and nothing else has changed. -/
structure Inserts (before : Store) (new : NewPipeline) (row : Pipeline) (builds : List Build)
    (after : Store) : Prop where
  fresh : ∀ other ∈ before.pipelines.rows, other.id < row.id
  asRequested : row = {
    id := row.id
    projectId := new.projectId
    ref := new.ref
    sha := new.sha
    source := new.source
    status := new.status
    createdAt := new.createdAt
    parentId := new.parentId
    autoCanceledById := none
    lockVersion := 0 }
  pipelines : after.pipelines.rows = before.pipelines.rows ++ [row]
  freshBuilds : ∃ first, (∀ other ∈ before.builds.rows, other.id < first) ∧
    builds.map (·.id) = List.range' first new.builds.length
  buildsAsRequested : builds.map Build.asRequested = new.builds
  ownBuilds : ∀ build ∈ builds, build.pipelineId = row.id ∧ build.autoCanceledById = none
  builds : after.builds.rows = before.builds.rows ++ builds
  projects : after.projects = before.projects
  users : after.users = before.users
  refs : after.refs = before.refs
  schedules : after.schedules = before.schedules

theorem inserts_createPipeline (store : Store) (new : NewPipeline) :
    store.Inserts new (store.createPipeline new).1
      (buildRows (store.createPipeline new).1.id store.builds.nextKey new.builds)
      (store.createPipeline new).2 where
  fresh _ hOther := store.pipelines.key_lt_nextKey hOther
  asRequested := rfl
  pipelines := store.rows_pipelines_createPipeline new
  freshBuilds := ⟨store.builds.nextKey, fun _ hOther => store.builds.key_lt_nextKey hOther,
    map_id_buildRows _ _ _⟩
  buildsAsRequested := map_asRequested_buildRows _ _ _
  ownBuilds _ hBuild := ⟨mem_buildRows hBuild, autoCanceledById_of_mem_buildRows hBuild⟩
  builds := store.rows_builds_createPipeline new
  projects := rfl
  users := rfl
  refs := rfl
  schedules := rfl

/-- No build was there before its pipeline, so the builds of a new pipeline are those that
came with it. -/
theorem Inserts.buildsOf_eq {before after : Store} {new : NewPipeline} {row : Pipeline}
    {builds : List Build} (h : before.Inserts new row builds after) (hOwners : before.HasOwners) :
    after.buildsOf row.id = builds := by
  have hOld : before.builds.rows.filter (·.pipelineId == row.id) = [] := by
    apply List.filter_eq_nil_iff.mpr
    intro build hBuild hOwn
    obtain ⟨owner, hOwner, hId⟩ := hOwners build hBuild
    have hLess := h.fresh owner hOwner
    rw [beq_iff_eq] at hOwn
    omega
  have hNew : builds.filter (·.pipelineId == row.id) = builds := by
    apply List.filter_eq_self.mpr
    intro build hBuild
    exact beq_iff_eq.mpr (h.ownBuilds build hBuild).1
  rw [buildsOf, h.builds, List.filter_append, hOld, hNew]
  rfl

/-- A store that begins with an owner for every build is well formed at any time, and at any
time a new pipeline gets a free identifier and has the builds that were asked for. -/
theorem row_insertion_keeps_integrity (snapshot : Snapshot)
    (hOwners : ∀ build ∈ snapshot.builds,
      ∃ row ∈ snapshot.pipelines, row.id = build.pipelineId)
    (calls : List StoreCall) :
    ((ofSnapshot snapshot).afterCalls calls).IsWellFormed ∧
    ∀ new, ∃ row builds after,
      (StoreCall.createPipeline new).perform ((ofSnapshot snapshot).afterCalls calls) =
        (.ok row, after) ∧
      ((ofSnapshot snapshot).afterCalls calls).Inserts new row builds after ∧
      (StoreCall.buildsFor row.id).perform after = (.ok builds, after) := by
  have hReached := (hasOwners_ofSnapshot hOwners).afterCalls calls
  refine ⟨hReached.isWellFormed, ?_⟩
  intro new
  have hInserts := inserts_createPipeline ((ofSnapshot snapshot).afterCalls calls) new
  refine ⟨_, _, _, rfl, hInserts, ?_⟩
  exact congrArg (fun builds => (Except.ok builds, _)) (hInserts.buildsOf_eq hReached)

end Store

/-- Rows in no order, with gaps between their identifiers. -/
def gappedSnapshot : Snapshot :=
  { Snapshot.empty with
    pipelines := [pushedPipeline 7, pushedPipeline 2]
    builds := [⟨9, 7, "test", .running, true, none⟩, ⟨4, 2, "lint", .running, false, none⟩] }

/-- A pipeline with two builds. -/
def requestedPipeline : NewPipeline :=
  ⟨1, "main", "commit 8", .push, .created, ⟨8, 0⟩, none,
    [⟨"test", .created, true⟩, ⟨"deploy", .created, false⟩]⟩

/-- A cancellation, and a creation before the one that is asked for. -/
def earlierCalls : List StoreCall :=
  [.cancelRunning (pushedPipeline 7) ⟨2, false⟩, .createPipeline requestedPipeline]

theorem row_insertion_keeps_integrity_gapped :
    (∀ build ∈ gappedSnapshot.builds,
      ∃ row ∈ gappedSnapshot.pipelines, row.id = build.pipelineId) ∧
    ((Store.ofSnapshot gappedSnapshot).afterCalls earlierCalls).IsWellFormed ∧
    ∃ row builds after,
      (StoreCall.createPipeline requestedPipeline).perform
        ((Store.ofSnapshot gappedSnapshot).afterCalls earlierCalls) = (.ok row, after) ∧
      row.id = 9 ∧ builds.map (·.id) = [12, 13] ∧
      (StoreCall.buildsFor row.id).perform after = (.ok builds, after) := by
  have hOwners : ∀ build ∈ gappedSnapshot.builds,
      ∃ row ∈ gappedSnapshot.pipelines, row.id = build.pipelineId := by decide
  obtain ⟨hFormed, hInserts⟩ :=
    Store.row_insertion_keeps_integrity gappedSnapshot hOwners earlierCalls
  obtain ⟨row, builds, after, hCall, -, hBuilds⟩ := hInserts requestedPipeline
  refine ⟨hOwners, hFormed, row, builds, after, hCall, ?_, ?_, hBuilds⟩
  · cases hCall
    decide
  · cases hCall
    cases hBuilds
    decide

end PipelineUpkeep
