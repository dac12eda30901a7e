import Mathlib.Data.List.Perm.Subperm
import PipelineUpkeep.Proofs.QueueWalk
/-!
# What a query answers

`Store.Covers` says which pipelines a scope stands for, without any search: for the scope of
a hierarchy, those that a chain of parent links inside one project connects to a pipeline
that the inner query answers.  `ListsFirst` says what it means that rows answer a query: they
come in increasing order, each meets all conditions, and none that does is missing, unless the
limit is reached by earlier ones.  Scopes may be nested to any depth, with conditions and
limits at every level.

A store evaluates a query to the one list that answers it, whatever the parent links are.
-/

namespace PipelineUpkeep

/-- `rows` are the first pipelines with a property by increasing identifiers, as many as the
limit admits; without a limit, all of them. -/
structure ListsFirst (limit : Option Nat) (wanted : Pipeline → Prop) (rows : List Pipeline) :
    Prop where
  increasing : rows.Pairwise (·.id < ·.id)
  sound : ∀ row ∈ rows, wanted row
  withinLimit : ∀ count, limit = some count → rows.length ≤ count
  /-- A pipeline is left out only behind as many as the limit admits. -/
  complete : ∀ row, wanted row → row ∈ rows ∨
    (limit = some rows.length ∧ ∀ kept ∈ rows, kept.id < row.id)

namespace ListsFirst

variable {limit : Option Nat} {wanted : Pipeline → Prop} {rows others : List Pipeline}

theorem nodup (h : ListsFirst limit wanted rows) : rows.Nodup :=
  h.increasing.imp fun hLt hSame => Nat.ne_of_lt hLt (congrArg Pipeline.id hSame)

/-- Of two lists, neither can leave out what the other one has. -/
theorem subset (h : ListsFirst limit wanted rows) (hOther : ListsFirst limit wanted others) :
    rows ⊆ others := by
  intro row hRow
  by_contra hMissing
  obtain ⟨hLimit, hEarlier⟩ :=
    (hOther.complete row (h.sound row hRow)).resolve_left hMissing
  -- Then the others are all in the first list, which is longer than the limit admits.
  have hAll : others ⊆ rows := by
    intro kept hKept
    by_contra hLost
    obtain ⟨-, hLater⟩ := (h.complete kept (hOther.sound kept hKept)).resolve_left hLost
    exact Nat.lt_asymm (hEarlier kept hKept) (hLater row hRow)
  have hMore : (row :: others).length ≤ rows.length := by
    refine List.Subperm.length_le (List.Nodup.subperm ?_ ?_)
    · exact List.nodup_cons.mpr ⟨hMissing, hOther.nodup⟩
    · exact List.cons_subset.mpr ⟨hRow, hAll⟩
  have hFew := h.withinLimit _ hLimit
  rw [List.length_cons] at hMore
  omega

/-- There is one list of the first pipelines. -/
theorem unique (h : ListsFirst limit wanted rows) (hOther : ListsFirst limit wanted others) :
    rows = others :=
  Table.eq_of_mem_iff h.increasing hOther.increasing fun _ =>
    ⟨fun hRow => h.subset hOther hRow, fun hRow => hOther.subset h hRow⟩

/-- Taking from the front of all rows with a property lists the first of them. -/
theorem of_mem_iff (hSorted : rows.Pairwise (·.id < ·.id))
    (hMem : ∀ row, row ∈ rows ↔ wanted row) (limit : Option Nat) :
    ListsFirst limit wanted (match limit with
      | some count => rows.take count
      | none => rows) := by
  cases limit with
  | none =>
      exact ⟨hSorted, fun row => (hMem row).mp, nofun, fun row hRow => Or.inl ((hMem row).mpr hRow)⟩
  | some count =>
      refine ⟨hSorted.sublist (List.take_sublist count rows), ?_, ?_, ?_⟩
      · intro row hRow
        exact (hMem row).mp (List.mem_of_mem_take hRow)
      · intro greatest hGreatest
        rw [← Option.some.inj hGreatest]
        exact List.length_take_le count rows
      · intro row hRow
        have hAll : row ∈ rows.take count ++ rows.drop count := by
          rw [List.take_append_drop]
          exact (hMem row).mpr hRow
        refine (List.mem_append.mp hAll).imp id fun hDropped => ?_
        have hOrder := hSorted
        rw [← List.take_append_drop count rows] at hOrder
        refine ⟨?_, fun kept hKept => (List.pairwise_append.mp hOrder).2.2 kept hKept row hDropped⟩
        -- Something was dropped, so as many as the limit were taken.
        have hLong : 0 < (rows.drop count).length := List.length_pos_of_mem hDropped
        rw [List.length_drop] at hLong
        rw [List.length_take, Nat.min_eq_left (by omega)]

end ListsFirst

namespace Store

variable (store : Store)

/-- The pipeline meets each of the conditions. -/
def Admits (conditions : List Condition) (row : Pipeline) : Prop :=
  ∀ condition ∈ conditions, condition.holds store.buildsOf row = true

/-- The pipelines that a scope stands for. -/
def Covers : Scope → Pipeline → Prop
  | .empty, _ => False
  | .all, row => row ∈ store.pipelines.rows
  | .project projectId, row => row ∈ store.pipelines.rows ∧ row.projectId = projectId
  | .hierarchyOf scope conditions limit, row =>
      ∃ base, ListsFirst limit (fun root => Covers scope root ∧ store.Admits conditions root) base ∧
        Descends store.pipelines.rows (· ∈ base) row

/-- The rows answer the query. -/
def Answers (query : Query) (rows : List Pipeline) : Prop :=
  ListsFirst query.limit
    (fun row => store.Covers query.scope row ∧ store.Admits query.conditions row) rows

theorem meets_eq_true_iff (conditions : List Condition) (row : Pipeline) :
    store.meets conditions row = true ↔ store.Admits conditions row := by
  simp [meets, Admits]

theorem listsFirst_restrict {covered : Pipeline → Prop} {rows : List Pipeline}
    (hSorted : rows.Pairwise (·.id < ·.id)) (hMem : ∀ row, row ∈ rows ↔ covered row)
    (conditions : List Condition) (limit : Option Nat) :
    ListsFirst limit (fun row => covered row ∧ store.Admits conditions row)
      (store.restrict conditions limit rows) := by
  have hKept : (rows.filter (store.meets conditions)).Pairwise (·.id < ·.id) :=
    hSorted.filter _
  refine ListsFirst.of_mem_iff hKept (fun row => ?_) limit
  rw [List.mem_filter, hMem, meets_eq_true_iff]

/-- The rows of a scope are the pipelines that it stands for. -/
theorem mem_scopeRows_iff_covers (scope : Scope) (row : Pipeline) :
    row ∈ store.scopeRows scope ↔ store.Covers scope row := by
  induction scope generalizing row with
  | empty => simp [scopeRows, Covers]
  | all => exact Iff.rfl
  | project projectId => simp [scopeRows, Covers]
  | hierarchyOf scope conditions limit ih =>
      have hSorted : (store.scopeRows scope).Pairwise (·.id < ·.id) :=
        store.pipelines.sorted.sublist (store.scopeRows_sublist scope)
      have hBase := store.listsFirst_restrict hSorted ih conditions limit
      have hStored : ∀ root ∈ store.restrict conditions limit (store.scopeRows scope),
          root ∈ store.pipelines.rows := fun root hRoot =>
        (store.scopeRows_sublist scope).subset ((store.restrict_sublist _ _ _).subset hRoot)
      rw [scopeRows, mem_withDescendants_iff store.pipelines.sorted hStored, Covers]
      constructor
      · intro hDescends
        exact ⟨_, hBase, hDescends⟩
      · rintro ⟨base, hOther, hDescends⟩
        rwa [hBase.unique hOther]

theorem answers_evaluate (query : Query) : store.Answers query (store.evaluate query) := by
  refine store.listsFirst_restrict ?_ (store.mem_scopeRows_iff_covers query.scope) _ _
  exact store.pipelines.sorted.sublist (store.scopeRows_sublist query.scope)

/-- The rows of a query as they wait to be visited. -/
def queueOf (base : Query) : List (RowOf store.pipelines.rows) :=
  (store.evaluate base).attachWith _ fun _ hRow => (store.evaluate_sublist base).subset hRow

theorem map_val_queueOf (base : Query) :
    (store.queueOf base).map (·.val) = store.evaluate base := by
  exact List.attachWith_map_subtype_val _

theorem scopeRows_hierarchyOf (base : Query) :
    store.scopeRows (Query.hierarchyOf base).scope =
      withDescendants store.pipelines.rows (store.evaluate base) := rfl

/-- A store evaluates a query to the one list that answers it.  The scope of a hierarchy stands
for the rows of its base and what descends from them; the walk through a queue that starts with
the rows of the base ends, and visits each of these rows once. -/
theorem evaluation_is_exact_reachability (store : Store) :
    (∀ query rows, store.evaluate query = rows ↔ store.Answers query rows) ∧
      ∀ base : Query,
        (∀ row, row ∈ store.scopeRows (Query.hierarchyOf base).scope ↔
          Descends store.pipelines.rows (· ∈ store.evaluate base) row) ∧
        ((walkQueue [] (store.queueOf base)).map (·.val)).Perm
          (store.scopeRows (Query.hierarchyOf base).scope) := by
  refine ⟨fun query rows => ⟨?_, ?_⟩, fun base => ⟨fun row => ?_, ?_⟩⟩
  · rintro rfl
    exact store.answers_evaluate query
  · intro hAnswers
    exact (store.answers_evaluate query).unique hAnswers
  · rw [scopeRows_hierarchyOf]
    exact mem_withDescendants_iff store.pipelines.sorted
      (fun _ hRow => (store.evaluate_sublist base).subset hRow) row
  · have hWalk := walkQueue_perm_withDescendants store.pipelines.sorted (store.queueOf base)
    rwa [map_val_queueOf, ← scopeRows_hierarchyOf] at hWalk

end Store

end PipelineUpkeep
