import PipelineUpkeep.Store.Basic
/-!
# Evaluation of queries

The rows of a query, in increasing order of identifiers.  Descendants are found
by growing a set of rows: each round adds the rows not yet reached whose parent,
in the same project, was added in the round before.  Every round but the last
adds a row, so the number of rows bounds the rounds, whatever the parent links
are.
-/

namespace PipelineUpkeep

/-- `child` names `parent` as its parent and both are in one project. -/
def isChildOf (parent child : Pipeline) : Bool :=
  child.parentId == some parent.id && child.projectId == parent.projectId

/-- The rows not in `reached` that are children of a row in `frontier`. -/
def newChildren (rows reached frontier : List Pipeline) : List Pipeline :=
  rows.filter fun row =>
    !reached.any (·.id == row.id) && frontier.any (isChildOf · row)

/-- Grow `reached` from its newest part for at most a number of rounds. -/
def growReached (rows : List Pipeline) :
    Nat → List Pipeline → List Pipeline → List Pipeline
  | 0, reached, _ => reached
  | rounds + 1, reached, frontier =>
      match newChildren rows reached frontier with
      | [] => reached
      | added => growReached rows rounds (reached ++ added) added

/-- The rows that are in `base` or descend from one of its rows, in the order of
`rows`. -/
def withDescendants (rows base : List Pipeline) : List Pipeline :=
  let reached := growReached rows rows.length base base
  rows.filter fun row => reached.any (·.id == row.id)

namespace Store

/-- The builds of a pipeline, in increasing order of identifiers. -/
def buildsOf (store : Store) (pipelineId : Nat) : List Build :=
  store.builds.rows.filter (·.pipelineId == pipelineId)

/-- The pipeline meets all conditions. -/
def meets (store : Store) (conditions : List Condition) (pipeline : Pipeline) : Bool :=
  conditions.all (·.holds store.buildsOf pipeline)

/-- Keep the rows that meet all conditions, up to the limit. -/
def restrict (store : Store) (conditions : List Condition) (limit : Option Nat)
    (rows : List Pipeline) : List Pipeline :=
  let kept := rows.filter (store.meets conditions)
  match limit with
  | some count => kept.take count
  | none => kept

/-- The rows of a scope. -/
def scopeRows (store : Store) : Scope → List Pipeline
  | .empty => []
  | .all => store.pipelines.rows
  | .project projectId => store.pipelines.rows.filter (·.projectId == projectId)
  | .hierarchyOf scope conditions limit =>
      withDescendants store.pipelines.rows
        (store.restrict conditions limit (store.scopeRows scope))

/-- The rows of a query. -/
def evaluate (store : Store) (query : Query) : List Pipeline :=
  store.restrict query.conditions query.limit (store.scopeRows query.scope)

theorem withDescendants_sublist (rows base : List Pipeline) :
    (withDescendants rows base).Sublist rows :=
  List.filter_sublist

theorem restrict_sublist (store : Store) (conditions : List Condition) (limit : Option Nat)
    (rows : List Pipeline) : (store.restrict conditions limit rows).Sublist rows := by
  unfold restrict
  cases limit with
  | none => exact List.filter_sublist
  | some count => exact (List.take_sublist count _).trans List.filter_sublist

theorem scopeRows_sublist (store : Store) (scope : Scope) :
    (store.scopeRows scope).Sublist store.pipelines.rows := by
  cases scope with
  | empty => exact List.nil_sublist _
  | all => exact List.Sublist.refl _
  | project projectId => exact List.filter_sublist
  | hierarchyOf scope conditions limit => exact withDescendants_sublist _ _

/-- The rows of a query are stored rows, in the order of the store. -/
theorem evaluate_sublist (store : Store) (query : Query) :
    (store.evaluate query).Sublist store.pipelines.rows :=
  (store.restrict_sublist _ _ _).trans (store.scopeRows_sublist _)

/-- Rows come in strictly increasing order of identifiers. -/
theorem evaluate_pairwise_lt (store : Store) (query : Query) :
    (store.evaluate query).Pairwise (·.id < ·.id) :=
  store.pipelines.sorted.sublist (store.evaluate_sublist query)

end Store

end PipelineUpkeep
