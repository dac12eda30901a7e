import PipelineUpkeep.Pipeline.Rows
/-!
# Pipeline queries

A query starts from a scope, keeps the rows that meet all of its conditions, and
may limit their number.  A query holds no rows: every evaluation looks at the
rows of that moment.  The scope of a hierarchy is another query, whose rows are
taken together with all of their descendants in the same project; the conditions
of the outer query apply to the rows so found.
-/

namespace PipelineUpkeep

open Time

inductive Condition where
  | ref (ref : String)
  /-- Created at or after an instant. -/
  | createdAfter (start : Timestamp)
  /-- Created before an instant. -/
  | createdBefore (stop : Timestamp)
  | notSha (sha : String)
  | excluding (id : Nat)
  | sourceIn (sources : List Source)
  | notChild
  | aliveOrScheduled
  /-- No build blocks cancellation. -/
  | onlyInterruptibleBuilds
  | idIn (ids : List Nat)
  | idAfter (id : Nat)
  deriving DecidableEq, Repr

namespace Condition

/-- The pipeline meets the condition, given the builds of every pipeline. -/
def holds (buildsOf : Nat → List Build) (pipeline : Pipeline) : Condition → Bool
  | ref name => pipeline.ref == name
  | createdAfter start => decide (start ≤ pipeline.createdAt)
  | createdBefore stop => decide (pipeline.createdAt < stop)
  | notSha sha => pipeline.sha != sha
  | excluding id => pipeline.id != id
  | sourceIn sources => sources.contains pipeline.source
  | notChild => !pipeline.isChild
  | aliveOrScheduled => pipeline.status.isAliveOrScheduled
  | onlyInterruptibleBuilds => !(buildsOf pipeline.id).any Build.blocksAutoCancel
  | idIn ids => ids.contains pipeline.id
  | idAfter id => decide (id < pipeline.id)

/-- The condition looks at builds. -/
def needsBuilds : Condition → Bool
  | onlyInterruptibleBuilds => true
  | _ => false

end Condition

/-- The rows from which a query starts. -/
inductive Scope where
  | empty
  | all
  | project (projectId : Nat)
  /-- The rows of a query, given by its three parts, and all their descendants. -/
  | hierarchyOf (scope : Scope) (conditions : List Condition) (limit : Option Nat)
  deriving DecidableEq, Repr

structure Query where
  scope : Scope
  conditions : List Condition
  limit : Option Nat
  deriving DecidableEq, Repr

namespace Query

def ofScope (scope : Scope) : Query := ⟨scope, [], none⟩

def empty : Query := ofScope .empty

def all : Query := ofScope .all

def forProject (projectId : Nat) : Query := ofScope (.project projectId)

/-- Add a condition after the others. -/
def withCondition (query : Query) (condition : Condition) : Query :=
  { query with conditions := query.conditions ++ [condition] }

/-- The pipelines of a ref of a project. -/
def forRef (projectId : Nat) (ref : String) : Query :=
  (forProject projectId).withCondition (.ref ref)

/-- The rows of `base` and all of their descendants in the same project. -/
def hierarchyOf (base : Query) : Query :=
  ofScope (.hierarchyOf base.scope base.conditions base.limit)

def createdAfter (query : Query) (start : Timestamp) : Query :=
  query.withCondition (.createdAfter start)

def createdBefore (query : Query) (stop : Timestamp) : Query :=
  query.withCondition (.createdBefore stop)

/-- Leave out the pipelines of a commit; an unknown commit leaves out nothing. -/
def whereNotSha (query : Query) : Option String → Query
  | some sha => query.withCondition (.notSha sha)
  | none => query

def excluding (query : Query) (id : Nat) : Query :=
  query.withCondition (.excluding id)

def withSourceIn (query : Query) (sources : List Source) : Query :=
  query.withCondition (.sourceIn sources)

def notChild (query : Query) : Query :=
  query.withCondition .notChild

def aliveOrScheduled (query : Query) : Query :=
  query.withCondition .aliveOrScheduled

def withOnlyInterruptibleBuilds (query : Query) : Query :=
  query.withCondition .onlyInterruptibleBuilds

def idIn (query : Query) (ids : List Nat) : Query :=
  query.withCondition (.idIn ids)

def idAfter (query : Query) (id : Nat) : Query :=
  query.withCondition (.idAfter id)

/-- At most `count` rows; a later limit replaces an earlier one. -/
def limitTo (query : Query) (count : Nat) : Query :=
  { query with limit := some count }

/-- The query starts from nothing. -/
def isEmptyScope (query : Query) : Bool :=
  query.scope == .empty

/-- Some condition looks at builds. -/
def needsBuilds (query : Query) : Bool :=
  query.conditions.any Condition.needsBuilds

end Query

end PipelineUpkeep
