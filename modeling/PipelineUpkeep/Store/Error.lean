/-!
# Store errors

A conflict (`staleObject`) means that the row was written since it was read: the
operation may succeed when everything is read again.  The other errors end the
operation.
-/

namespace PipelineUpkeep

/-- The kinds of rows whose absence is an error. -/
inductive Entity where
  | project
  | pipeline
  | build
  | refHead
  | user
  | schedule
  /-- A kind that no store of this library reports. -/
  | other (name : String)
  deriving DecidableEq, Repr

def Entity.name : Entity → String
  | project => "Project"
  | pipeline => "Pipeline"
  | build => "Build"
  | refHead => "RefHead"
  | user => "User"
  | schedule => "Schedule"
  | other name => name

inductive StoreError where
  | staleObject (pipelineId expected actual : Nat)
  | notFound (entity : Entity) (id : Nat)
  | poisoned
  deriving DecidableEq, Repr

namespace StoreError

/-- The operation may succeed when retried on fresh rows. -/
def isConflict : StoreError → Bool
  | staleObject .. => true
  | _ => false

/-- The name of the kind of error. -/
def kind : StoreError → String
  | staleObject .. => "StaleObject"
  | notFound .. => "NotFound"
  | poisoned => "Poisoned"

def message : StoreError → String
  | staleObject pipelineId expected actual =>
      s!"Pipeline {pipelineId} was modified concurrently " ++
        s!"(expected version {expected}, found {actual})"
  | notFound entity id => entity.name ++ " " ++ toString id ++ " not found"
  | poisoned => "Store lock poisoned"

theorem isConflict_iff (error : StoreError) :
    error.isConflict = true ↔ ∃ pipelineId expected actual,
      error = staleObject pipelineId expected actual := by
  cases error <;> simp [isConflict]

end StoreError

end PipelineUpkeep
