import PipelineUpkeep.Cancellation.Selection
import PipelineUpkeep.Proofs.CancelRows
import PipelineUpkeep.Proofs.Descendants
/-!
# Which pipelines are redundant

`IsCandidate` says without queries which stored pipelines a new pipeline makes
redundant under each strategy, and `mem_evaluate_candidateQuery_iff` proves that the
selected query finds exactly these.  Whether a row is a candidate does not depend on
the cancellation of other rows: only its own status counts, and what makes a row a
root or a child is never written by a cancellation.
-/

namespace PipelineUpkeep

open Time

/-- A pipeline of the same ref, inside the window, and not of the commit at the tip
of the ref when that is known. -/
structure SharesRef (store : Store) (pipeline : Pipeline) (windowStart : Timestamp)
    (row : Pipeline) : Prop where
  project : row.projectId = pipeline.projectId
  ref : row.ref = pipeline.ref
  inWindow : windowStart ≤ row.createdAt
  notHead : ∀ head, store.refs.find? pipeline.projectId pipeline.ref = some head →
    row.sha ≠ head.sha

/-- `row` is stored, has not finished, and `pipeline` makes it redundant.  The flat
strategy looks for other pipelines without a parent; the hierarchy strategy for older
pipelines and whatever descends from them. -/
def IsCandidate (store : Store) (strategy : Strategy) (pipeline : Pipeline)
    (windowStart : Timestamp) (row : Pipeline) : Prop :=
  row.status.isAliveOrScheduled = true ∧
    match strategy with
    | .flat =>
        row ∈ store.pipelines.rows ∧ SharesRef store pipeline windowStart row ∧
          row.id ≠ pipeline.id ∧ row.source ∈ Source.ciAndParentSources ∧ row.parentId = none
    | .hierarchy =>
        Descends store.pipelines.rows
          (fun root => SharesRef store pipeline windowStart root ∧
            root.createdAt < pipeline.createdAt ∧ root.source ∈ Source.ciSources) row

theorem IsCandidate.mem {store : Store} {strategy : Strategy} {pipeline row : Pipeline}
    {windowStart : Timestamp} (h : IsCandidate store strategy pipeline windowStart row) :
    row ∈ store.pipelines.rows := by
  cases strategy with
  | flat => exact h.2.1
  | hierarchy => exact h.2.mem

/-- A pipeline of the same ref, inside the window, and not of the commit that was read as
the tip of the ref, if one was. -/
structure FitsRef (pipeline : Pipeline) (windowStart : Timestamp) (headSha : Option String)
    (row : Pipeline) : Prop where
  project : row.projectId = pipeline.projectId
  ref : row.ref = pipeline.ref
  inWindow : windowStart ≤ row.createdAt
  notHead : headSha ≠ some row.sha

/-- Apart from its status, `row` is made redundant by `pipeline`, for the tip that was
read.  Of the rows only what they were created with counts. -/
def Qualifies (rows : List Pipeline) (strategy : Strategy) (pipeline : Pipeline)
    (windowStart : Timestamp) (headSha : Option String) (row : Pipeline) : Prop :=
  match strategy with
  | .flat =>
      row ∈ rows ∧ FitsRef pipeline windowStart headSha row ∧ row.id ≠ pipeline.id ∧
        row.source ∈ Source.ciAndParentSources ∧ row.parentId = none
  | .hierarchy =>
      Descends rows
        (fun root => FitsRef pipeline windowStart headSha root ∧
          root.createdAt < pipeline.createdAt ∧ root.source ∈ Source.ciSources) row

theorem Qualifies.mem {rows : List Pipeline} {strategy : Strategy} {pipeline row : Pipeline}
    {windowStart : Timestamp} {headSha : Option String}
    (h : Qualifies rows strategy pipeline windowStart headSha row) : row ∈ rows := by
  cases strategy with
  | flat => exact h.1
  | hierarchy => exact Descends.mem h

namespace Store

variable (store : Store)

theorem mem_evaluate_iff {query : Query} (hLimit : query.limit = none) (row : Pipeline) :
    row ∈ store.evaluate query ↔
      row ∈ store.scopeRows query.scope ∧ store.meets query.conditions row = true := by
  simp only [evaluate, restrict, hLimit]
  exact List.mem_filter

/-- A further condition keeps the rows that meet it. -/
theorem evaluate_withCondition {query : Query} (hLimit : query.limit = none)
    (condition : Condition) :
    store.evaluate (query.withCondition condition) =
      (store.evaluate query).filter (condition.holds store.buildsOf) := by
  simp only [evaluate, restrict, Query.withCondition, hLimit, List.filter_filter]
  congr 1
  funext row
  simp [meets, Bool.and_comm]

theorem mem_evaluate_withCondition_iff (query : Query) (condition : Condition) (row : Pipeline)
    (hLimit : query.limit = none) :
    row ∈ store.evaluate (query.withCondition condition) ↔
      row ∈ store.evaluate query ∧ condition.holds store.buildsOf row = true := by
  rw [evaluate_withCondition store hLimit, List.mem_filter]

theorem evaluate_limitTo {query : Query} (hLimit : query.limit = none) (count : Nat) :
    store.evaluate (query.limitTo count) = (store.evaluate query).take count := by
  simp only [evaluate, restrict, Query.limitTo, hLimit]

theorem mem_evaluate_hierarchyOf_iff (base : Query) (row : Pipeline) :
    row ∈ store.evaluate (Query.hierarchyOf base) ↔
      Descends store.pipelines.rows (· ∈ store.evaluate base) row := by
  rw [mem_evaluate_iff store rfl, ← mem_withDescendants_iff store.pipelines.sorted
    fun x hx => (store.evaluate_sublist base).subset hx]
  simp [Query.hierarchyOf, Query.ofScope, scopeRows, meets, evaluate]

end Store

theorem Strategy.ofPolicy_resolve_flat {rules : PolicyRules} {project : Project}
    (h : rules.hierarchy project = false) : ofPolicy (rules.resolve project) = flat := by
  simp [ofPolicy, PolicyRules.resolve, h]

theorem Strategy.ofPolicy_resolve_hierarchy {rules : PolicyRules} {project : Project}
    (h : rules.hierarchy project = true) : ofPolicy (rules.resolve project) = hierarchy := by
  simp [ofPolicy, PolicyRules.resolve, h]

theorem limit_sameRefQuery (pipeline : Pipeline) (windowStart : Timestamp)
    (headSha : Option String) : (sameRefQuery pipeline windowStart headSha).limit = none := by
  cases headSha <;> rfl

theorem limit_candidateQuery (strategy : Strategy) (pipeline : Pipeline)
    (windowStart : Timestamp) (headSha : Option String) :
    (candidateQuery strategy pipeline windowStart headSha).limit = none := by
  cases strategy with
  | flat => exact limit_sameRefQuery pipeline windowStart headSha
  | hierarchy => rfl

theorem isEmptyScope_candidateQuery (strategy : Strategy) (pipeline : Pipeline)
    (windowStart : Timestamp) (headSha : Option String) :
    (candidateQuery strategy pipeline windowStart headSha).isEmptyScope = false := by
  cases strategy <;> cases headSha <;> rfl

section Candidates

variable {store : Store} {pipeline : Pipeline} {windowStart : Timestamp}

/-- The tip of a pipeline's ref, as the selection reads it. -/
def headSha? (store : Store) (pipeline : Pipeline) : Option String :=
  (store.refs.find? pipeline.projectId pipeline.ref).map (·.sha)

theorem mem_evaluate_sameRefQuery_iff (headSha : Option String) (row : Pipeline) :
    row ∈ store.evaluate (sameRefQuery pipeline windowStart headSha) ↔
      row ∈ store.pipelines.rows ∧ FitsRef pipeline windowStart headSha row := by
  rw [Store.mem_evaluate_iff store (limit_sameRefQuery _ _ _)]
  cases headSha with
  | none =>
      simp only [sameRefQuery, Query.whereNotSha, Query.createdAfter, Query.forRef,
        Query.forProject, Query.ofScope, Query.withCondition, Store.scopeRows, Store.meets,
        List.mem_filter, Condition.holds]
      simp only [List.nil_append, List.cons_append, List.all_cons, List.all_nil, Bool.and_true,
        Bool.and_eq_true, beq_iff_eq, decide_eq_true_eq]
      constructor
      · rintro ⟨⟨hRow, hProject⟩, hRef, hWindow⟩
        exact ⟨hRow, hProject, hRef, hWindow, nofun⟩
      · rintro ⟨hRow, h⟩
        exact ⟨⟨hRow, h.project⟩, h.ref, h.inWindow⟩
  | some sha =>
      simp only [sameRefQuery, Query.whereNotSha, Query.createdAfter, Query.forRef,
        Query.forProject, Query.ofScope, Query.withCondition, Store.scopeRows, Store.meets,
        List.mem_filter, Condition.holds]
      simp only [List.nil_append, List.cons_append, List.all_cons, List.all_nil, Bool.and_true,
        Bool.and_eq_true, beq_iff_eq, bne_iff_ne, decide_eq_true_eq]
      constructor
      · rintro ⟨⟨hRow, hProject⟩, hRef, hWindow, hSha⟩
        exact ⟨hRow, hProject, hRef, hWindow, fun h => hSha (Option.some.inj h).symm⟩
      · rintro ⟨hRow, h⟩
        refine ⟨⟨hRow, h.project⟩, h.ref, h.inWindow, fun hSha => ?_⟩
        exact h.notHead (congrArg some hSha.symm)

/-- The query that is selected when some commit was read as the tip of the ref finds the
rows that qualify and have not finished, whatever the tip of the moment is. -/
theorem mem_evaluate_candidateQuery_iff_qualifies (strategy : Strategy) (headSha : Option String)
    (row : Pipeline) :
    row ∈ store.evaluate (candidateQuery strategy pipeline windowStart headSha) ↔
      row.status.isAliveOrScheduled = true ∧
        Qualifies store.pipelines.rows strategy pipeline windowStart headSha row := by
  have hLimit := limit_sameRefQuery pipeline windowStart headSha
  cases strategy with
  | flat =>
      simp only [candidateQuery, Query.aliveOrScheduled, Query.notChild, Query.withSourceIn,
        Query.excluding]
      rw [Store.mem_evaluate_withCondition_iff, Store.mem_evaluate_withCondition_iff,
        Store.mem_evaluate_withCondition_iff, Store.mem_evaluate_withCondition_iff,
        mem_evaluate_sameRefQuery_iff]
      · simp only [Qualifies, Condition.holds, Pipeline.isChild, bne_iff_ne, ne_eq,
          List.contains_iff_mem, Bool.not_eq_true', Option.isSome_eq_false_iff,
          Option.isNone_iff_eq_none]
        tauto
      all_goals exact hLimit
  | hierarchy =>
      simp only [candidateQuery, Query.aliveOrScheduled]
      rw [Store.mem_evaluate_withCondition_iff _ _ _ _ rfl, Store.mem_evaluate_hierarchyOf_iff]
      -- The base of the hierarchy, row by row; descent from it is the same on both sides.
      have hRoots (root : Pipeline) :
          root ∈ store.evaluate (((sameRefQuery pipeline windowStart headSha).createdBefore
              pipeline.createdAt).withSourceIn Source.ciSources) ↔
            root ∈ store.pipelines.rows ∧ FitsRef pipeline windowStart headSha root ∧
              root.createdAt < pipeline.createdAt ∧ root.source ∈ Source.ciSources := by
        simp only [Query.withSourceIn, Query.createdBefore]
        rw [Store.mem_evaluate_withCondition_iff, Store.mem_evaluate_withCondition_iff,
          mem_evaluate_sameRefQuery_iff]
        · simp only [Condition.holds, decide_eq_true_eq, List.contains_iff_mem]
          tauto
        all_goals exact hLimit
      simp only [Qualifies, Condition.holds]
      rw [and_comm]
      refine and_congr_right fun _ => ⟨fun h => ?_, fun h => ?_⟩
      · exact h.imp fun root _ hRoot => ((hRoots root).mp hRoot).2
      · exact h.imp fun root hRow hRoot => (hRoots root).mpr ⟨hRow, hRoot⟩

/-- The tip of the moment may as well have been read before. -/
theorem fitsRef_headSha?_iff (row : Pipeline) :
    FitsRef pipeline windowStart (headSha? store pipeline) row ↔
      SharesRef store pipeline windowStart row := by
  constructor
  · intro h
    refine ⟨h.project, h.ref, h.inWindow, fun head hHead hSha => h.notHead ?_⟩
    rw [headSha?, hHead, Option.map_some, hSha]
  · intro h
    refine ⟨h.project, h.ref, h.inWindow, fun hHead => ?_⟩
    obtain ⟨head, hFound, hSha⟩ := Option.map_eq_some_iff.mp hHead
    exact h.notHead head hFound hSha.symm

theorem isCandidate_iff_qualifies (strategy : Strategy) (row : Pipeline) :
    IsCandidate store strategy pipeline windowStart row ↔
      row.status.isAliveOrScheduled = true ∧
        Qualifies store.pipelines.rows strategy pipeline windowStart (headSha? store pipeline)
          row := by
  cases strategy <;> simp only [IsCandidate, Qualifies, fitsRef_headSha?_iff]

/-- The selected query finds the candidates and nothing else. -/
theorem mem_evaluate_candidateQuery_iff (strategy : Strategy) (row : Pipeline) :
    row ∈ store.evaluate
        (candidateQuery strategy pipeline windowStart (headSha? store pipeline)) ↔
      IsCandidate store strategy pipeline windowStart row := by
  rw [mem_evaluate_candidateQuery_iff_qualifies, isCandidate_iff_qualifies]

/-- Descent is seen through any change of rows that keeps what links them. -/
theorem descends_map_iff {rows : List Pipeline} {isRoot : Pipeline → Prop}
    {change : Pipeline → Pipeline} (hId : ∀ row, (change row).id = row.id)
    (hParent : ∀ row, (change row).parentId = row.parentId)
    (hProject : ∀ row, (change row).projectId = row.projectId)
    (hRoot : ∀ row, isRoot (change row) ↔ isRoot row) (row : Pipeline) :
    Descends (rows.map change) isRoot row ↔
      ∃ other, Descends rows isRoot other ∧ row = change other := by
  constructor
  · intro h
    induction h with
    | root hRow hIsRoot =>
        obtain ⟨other, hOther, rfl⟩ := List.mem_map.mp hRow
        exact ⟨other, .root hOther ((hRoot other).mp hIsRoot), rfl⟩
    | child _ hRow hLink hSame ih =>
        obtain ⟨parent, hDescends, rfl⟩ := ih
        obtain ⟨other, hOther, rfl⟩ := List.mem_map.mp hRow
        rw [hParent, hId] at hLink
        rw [hProject, hProject] at hSame
        exact ⟨other, .child hDescends hOther hLink hSame, rfl⟩
  · rintro ⟨other, h, rfl⟩
    induction h with
    | root hRow hIsRoot =>
        exact .root (List.mem_map_of_mem hRow) ((hRoot _).mpr hIsRoot)
    | child _ hRow hLink hSame ih =>
        refine .child ih (List.mem_map_of_mem hRow) ?_ ?_
        · rw [hParent, hId]
          exact hLink
        · rw [hProject, hProject]
          exact hSame

/-- A cancellation writes nothing that decides whether a row shares the ref. -/
theorem sharesRef_cancelChange_iff (ids : List Nat) (canceledById : Nat) (row : Pipeline) :
    SharesRef store pipeline windowStart (store.cancelChange ids canceledById row) ↔
      SharesRef store pipeline windowStart row := by
  have hProject := store.cancelChange_field ids canceledById (·.projectId) (fun _ => rfl) row
  have hRef := store.cancelChange_field ids canceledById (·.ref) (fun _ => rfl) row
  have hCreated := store.cancelChange_field ids canceledById (·.createdAt) (fun _ => rfl) row
  have hSha := store.cancelChange_field ids canceledById (·.sha) (fun _ => rfl) row
  constructor
  · intro h
    exact ⟨hProject ▸ h.project, hRef ▸ h.ref, hCreated ▸ h.inWindow, hSha ▸ h.notHead⟩
  · intro h
    exact ⟨hProject.trans h.project, hRef.trans h.ref, hCreated.symm ▸ h.inWindow,
      hSha.symm ▸ h.notHead⟩

/-- The cancellation of other rows makes no row a candidate and takes none away. -/
theorem isCandidate_cancelRows_iff {ids : List Nat} {canceledById : Nat} (strategy : Strategy)
    {row : Pipeline} (hRow : row.id ∉ ids) :
    IsCandidate (store.cancelRows ids canceledById) strategy pipeline windowStart row ↔
      IsCandidate store strategy pipeline windowStart row := by
  -- The tips of refs are not written.
  have hShares (other : Pipeline) :
      SharesRef (store.cancelRows ids canceledById) pipeline windowStart other ↔
        SharesRef store pipeline windowStart other :=
    ⟨fun h => ⟨h.project, h.ref, h.inWindow, h.notHead⟩,
      fun h => ⟨h.project, h.ref, h.inWindow, h.notHead⟩⟩
  unfold IsCandidate
  refine and_congr_right fun _ => ?_
  cases strategy with
  | flat =>
      simp only
      rw [Store.mem_pipelines_cancelRows_iff_of_not_mem hRow, hShares]
  | hierarchy =>
      -- Neither are the fields that links and roots are read from.
      have hField {β : Type} (field : Pipeline → β)
          (hKeeps : ∀ other, field (other.afterCancel canceledById) = field other) :=
        store.cancelChange_field ids canceledById field hKeeps
      simp only [hShares]
      rw [Store.rows_pipelines_cancelRows, descends_map_iff (hField (·.id) fun _ => rfl)
        (hField (·.parentId) fun _ => rfl) (hField (·.projectId) fun _ => rfl)]
      · constructor
        · rintro ⟨other, hDescends, rfl⟩
          rw [Store.cancelChange_id] at hRow
          rw [Store.cancelChange_of_not_mem hRow]
          exact hDescends
        · intro h
          exact ⟨row, h, (Store.cancelChange_of_not_mem hRow).symm⟩
      · intro other
        rw [sharesRef_cancelChange_iff, hField (·.createdAt) fun _ => rfl,
          hField (·.source) fun _ => rfl]

end Candidates

/-- The `id`th pipeline of a ref on which a commit was pushed every second. -/
def pushedPipeline (id : Nat) : Pipeline where
  id := id
  projectId := 1
  ref := "main"
  sha := s!"commit {id}"
  source := .push
  status := .running
  createdAt := ⟨id, 0⟩
  parentId := none
  autoCanceledById := none
  lockVersion := 0

/-- A ref with three running pipelines.  The build of the second one must not be
interrupted. -/
def crowdedRef : Store :=
  Store.ofSnapshot { Snapshot.empty with
    projects := [⟨1, "group/app", true, none, []⟩]
    pipelines := [pushedPipeline 1, pushedPipeline 2, pushedPipeline 3]
    builds := [⟨1, 1, "test", .running, true, none⟩, ⟨2, 2, "deploy", .running, false, none⟩] }

/-- A child of the first pipeline of a ref, for the commit of the third one. -/
def lateChild : Pipeline :=
  { pushedPipeline 2 with sha := "commit 3", source := .parentPipeline, parentId := some 1 }

/-- A ref whose tip is the commit of its third pipeline, and whose first pipeline has a
child for this commit. -/
def familyRef : Store :=
  Store.ofSnapshot { Snapshot.empty with
    projects := [⟨1, "group/app", true, none, []⟩]
    refs := [⟨1, "main", "commit 3", ""⟩]
    pipelines := [pushedPipeline 1, lateChild, pushedPipeline 3] }

example : crowdedRef.evaluate (candidateQuery .flat (pushedPipeline 3) ⟨0, 0⟩ none) =
    [pushedPipeline 1, pushedPipeline 2] := by decide

end PipelineUpkeep
