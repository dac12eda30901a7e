import PipelineUpkeep.Proofs.PipelineOrigins
/-!
# The history of a store

Any calls, one after the other, with any arguments and whether they fail or not, only
ever add rows and cancel rows.  A single cancellation writes a pipeline once, also where
parent links run in a circle, and raises its version by one; nothing else writes it.  So
the version of a pipeline counts its writes, and a caller that reads a version twice has
read the same row twice.
-/

namespace PipelineUpkeep

/-- What a stored pipeline may be found as later. -/
structure Pipeline.Continues (row later : Pipeline) : Prop where
  origin : row.SameOrigin later
  status : later.status = row.status ∨
    (row.status.isCancelable = true ∧ later.status = .canceled)
  attribution : ∀ canceledById, row.autoCanceledById = some canceledById →
    later.autoCanceledById = some canceledById
  version : row.lockVersion ≤ later.lockVersion

/-- What a stored build may be found as later. -/
structure Build.Continues (build later : Build) : Prop where
  id : later.id = build.id
  pipelineId : later.pipelineId = build.pipelineId
  name : later.name = build.name
  interruptible : later.interruptible = build.interruptible
  status : later.status = build.status ∨
    (build.status.isCancelable = true ∧ later.status = .canceled)
  attribution : ∀ canceledById, build.autoCanceledById = some canceledById →
    later.autoCanceledById = some canceledById

namespace Pipeline

theorem Becomes.continues {row later : Pipeline} (h : row.Becomes later) :
    row.Continues later := by
  have hOrigin : row.SameOrigin later := h.sameOrigin
  rcases h with rfl | ⟨hStatus, canceledById, rfl⟩
  · exact ⟨hOrigin, Or.inl rfl, fun _ hSet => hSet, Nat.le_refl _⟩
  · refine ⟨hOrigin, Or.inr ⟨hStatus, rfl⟩, ?_, Nat.le_succ _⟩
    intro first hSet
    simp [afterCancel, hSet]

/-- A version is kept by a row that is not written, and by no other. -/
theorem Becomes.eq_of_lockVersion_eq {row later : Pipeline} (h : row.Becomes later)
    (hVersion : later.lockVersion = row.lockVersion) : later = row := by
  rcases h with rfl | ⟨-, canceledById, rfl⟩
  · rfl
  · have hRaised : (row.afterCancel canceledById).lockVersion = row.lockVersion + 1 := rfl
    omega

end Pipeline

theorem Build.Becomes.continues {build later : Build} (h : build.Becomes later) :
    build.Continues later := by
  rcases h with rfl | ⟨hStatus, canceledById, rfl⟩
  · exact ⟨rfl, rfl, rfl, rfl, Or.inl rfl, fun _ hSet => hSet⟩
  · refine ⟨rfl, rfl, rfl, rfl, Or.inr ⟨hStatus, rfl⟩, ?_⟩
    intro first hSet
    simp [afterCancel, hSet]

/-- The pipelines that a call is answered with. -/
def StoreCall.answeredRows : (call : StoreCall) → Except StoreError call.Answer → List Pipeline
  | .pipeline _, .ok found => Option.toList found
  | .pipelines _, .ok rows => rows
  | .createPipeline _, .ok row => [row]
  | _, _ => []

namespace Store

/-- The store after some calls. -/
def afterCalls (store : Store) (calls : List StoreCall) : Store :=
  calls.foldl (fun current call => (call.perform current).2) store

/-- The pipelines that some calls are answered with, in the order of the calls. -/
def readRows (store : Store) : List StoreCall → List Pipeline
  | [] => []
  | call :: rest =>
      call.answeredRows (call.perform store).1 ++ readRows (call.perform store).2 rest

theorem afterCalls_cons (store : Store) (call : StoreCall) (rest : List StoreCall) :
    store.afterCalls (call :: rest) = (call.perform store).2.afterCalls rest := rfl

theorem afterCalls_append (store : Store) (calls later : List StoreCall) :
    store.afterCalls (calls ++ later) = (store.afterCalls calls).afterCalls later := by
  simp [afterCalls, List.foldl_append]

theorem evolves_afterCalls (store : Store) (calls : List StoreCall) :
    store.Evolves (store.afterCalls calls) := by
  induction calls generalizing store with
  | nil => exact .refl store
  | cons call rest ih =>
      have hFirst := evolves_perform call store
      rw [afterCalls_cons]
      exact hFirst.trans (ih _)

/-- A call answers with rows as it leaves them. -/
theorem stored_of_mem_answeredRows {store : Store} {call : StoreCall} {row : Pipeline}
    (h : row ∈ call.answeredRows (call.perform store).1) :
    row ∈ (call.perform store).2.pipelines.rows := by
  cases call with
  | pipeline id =>
      have hFound : store.pipelines.find? id = some row := Option.mem_toList.mp h
      exact ((store.pipelines.find?_eq_some_iff id row).mp hFound).1
  | pipelines query => exact (store.evaluate_sublist query).subset h
  | createPipeline new =>
      obtain rfl : row = (store.createPipeline new).1 := List.mem_singleton.mp h
      show _ ∈ (store.pipelines.insert _).rows
      rw [Table.mem_rows_insert_iff]
      exact Or.inl rfl
  | _ => cases h

/-- What was read was stored at some time. -/
theorem exists_prefix_of_mem_readRows {store : Store} {calls : List StoreCall} {row : Pipeline}
    (h : row ∈ store.readRows calls) :
    ∃ earlier, earlier <+: calls ∧ row ∈ (store.afterCalls earlier).pipelines.rows := by
  induction calls generalizing store with
  | nil => cases h
  | cons call rest ih =>
      rcases List.mem_append.mp h with hNow | hLater
      · exact ⟨[call], ⟨rest, rfl⟩, stored_of_mem_answeredRows hNow⟩
      · obtain ⟨earlier, hEarlier, hRow⟩ := ih hLater
        exact ⟨call :: earlier, List.cons_prefix_cons.mpr ⟨rfl, hEarlier⟩, hRow⟩

/-- Of two rows that were stored under one identifier, the later one is what became of
the earlier one. -/
theorem becomes_of_prefix {store : Store} {earlier later : List StoreCall}
    (hEarlier : earlier <+: later) {row other : Pipeline}
    (hRow : row ∈ (store.afterCalls earlier).pipelines.rows)
    (hOther : other ∈ (store.afterCalls later).pipelines.rows) (hId : row.id = other.id) :
    row.Becomes other := by
  obtain ⟨between, rfl⟩ := hEarlier
  rw [afterCalls_append] at hOther
  have hEvolves := evolves_afterCalls (store.afterCalls earlier) between
  obtain ⟨last, hLast, hBecomes⟩ := hEvolves.pipelines row hRow
  have hSame : other = last :=
    Table.eq_of_key_eq _ hOther hLast (hId.symm.trans hBecomes.id_eq.symm)
  rw [hSame]
  exact hBecomes

/-- What holds of a store and the calls that are made to it. -/
structure LawfulHistory (store : Store) (calls : List StoreCall) : Prop where
  /-- Whenever a pipeline is stored, it stays stored. -/
  pipelines : ∀ earlier, earlier <+: calls →
    ∀ row ∈ (store.afterCalls earlier).pipelines.rows,
      ∃ later ∈ (store.afterCalls calls).pipelines.rows, row.Continues later
  /-- So does a build. -/
  builds : ∀ earlier, earlier <+: calls →
    ∀ build ∈ (store.afterCalls earlier).builds.rows,
      ∃ later ∈ (store.afterCalls calls).builds.rows, build.Continues later
  /-- A call that writes a pipeline raises its version by one. -/
  versions : ∀ earlier call, earlier ++ [call] <+: calls →
    ∀ row ∈ (store.afterCalls earlier).pipelines.rows,
      ∃ next ∈ (store.afterCalls (earlier ++ [call])).pipelines.rows, next.id = row.id ∧
        (next = row ∨ next.lockVersion = row.lockVersion + 1)
  /-- Whoever reads one version of a pipeline twice reads one row. -/
  reads : ∀ row ∈ store.readRows calls, ∀ other ∈ store.readRows calls,
    row.id = other.id → row.lockVersion = other.lockVersion → row = other

/-- Whatever the store holds and whatever is asked of it. -/
theorem history_is_lawful (store : Store) (calls : List StoreCall) :
    store.LawfulHistory calls := by
  refine ⟨?_, ?_, ?_, ?_⟩
  · rintro earlier ⟨between, rfl⟩ row hRow
    obtain ⟨later, hLater, hBecomes⟩ :=
      (evolves_afterCalls (store.afterCalls earlier) between).pipelines row hRow
    rw [afterCalls_append]
    exact ⟨later, hLater, hBecomes.continues⟩
  · rintro earlier ⟨between, rfl⟩ build hBuild
    obtain ⟨later, hLater, hBecomes⟩ :=
      (evolves_afterCalls (store.afterCalls earlier) between).builds build hBuild
    rw [afterCalls_append]
    exact ⟨later, hLater, hBecomes.continues⟩
  · intro earlier call _ row hRow
    obtain ⟨next, hNext, hBecomes⟩ :=
      (evolves_perform call (store.afterCalls earlier)).pipelines row hRow
    refine ⟨next, ?_, hBecomes.id_eq, ?_⟩
    · rw [afterCalls_append]
      exact hNext
    · rcases hBecomes with hSame | ⟨-, canceledById, hCanceled⟩
      · exact Or.inl hSame
      · right
        rw [hCanceled]
        rfl
  · intro row hRow other hOther hId hVersion
    obtain ⟨first, hFirst, hStored⟩ := exists_prefix_of_mem_readRows hRow
    obtain ⟨second, hSecond, hOtherStored⟩ := exists_prefix_of_mem_readRows hOther
    -- Either read may have been the earlier one.
    rcases List.prefix_or_prefix_of_prefix hFirst hSecond with hBefore | hAfter
    · have hBecomes := becomes_of_prefix hBefore hStored hOtherStored hId
      exact (hBecomes.eq_of_lockVersion_eq hVersion.symm).symm
    · have hBecomes := becomes_of_prefix hAfter hOtherStored hStored hId.symm
      exact hBecomes.eq_of_lockVersion_eq hVersion

end Store

end PipelineUpkeep
