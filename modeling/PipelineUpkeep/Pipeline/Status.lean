/-!
# Lifecycle statuses

Pipelines and builds share one list of statuses.  A status is *alive* from the
request of the work to its end, *completed* once nothing else happens to the
record, and *cancelable* when it may still move to `canceled`.  A manual step is
neither alive nor completed.
-/

namespace PipelineUpkeep

inductive Status where
  | created
  | waitingForResource
  | preparing
  | pending
  | running
  | success
  | failed
  | canceled
  | skipped
  | manual
  | scheduled
  deriving DecidableEq, Repr, Inhabited

namespace Status

/-- Every status, in declaration order. -/
def all : List Status :=
  [created, waitingForResource, preparing, pending, running, success, failed, canceled,
    skipped, manual, scheduled]

/-- The name used in files and messages. -/
def name : Status → String
  | created => "created"
  | waitingForResource => "waiting_for_resource"
  | preparing => "preparing"
  | pending => "pending"
  | running => "running"
  | success => "success"
  | failed => "failed"
  | canceled => "canceled"
  | skipped => "skipped"
  | manual => "manual"
  | scheduled => "scheduled"

def ofName? (text : String) : Option Status :=
  all.find? fun status => status.name == text

/-- Requested and not yet finished. -/
def isAlive : Status → Bool
  | created | waitingForResource | preparing | pending | running => true
  | _ => false

def isAliveOrScheduled (status : Status) : Bool :=
  status.isAlive || status == scheduled

/-- May still move to `canceled`. -/
def isCancelable (status : Status) : Bool :=
  status.isAliveOrScheduled

/-- Nothing else happens to the record. -/
def isCompleted : Status → Bool
  | success | failed | canceled | skipped => true
  | _ => false

theorem mem_all (status : Status) : status ∈ all := by
  cases status <;> decide

theorem name_injective {a b : Status} (h : a.name = b.name) : a = b := by
  cases a <;> cases b <;> first | rfl | simp [name] at h

theorem ofName?_name (status : Status) : ofName? status.name = some status := by
  cases status <;> decide

theorem name_of_ofName?_eq_some {text : String} {status : Status}
    (h : ofName? text = some status) : status.name = text := by
  simpa using List.find?_some h

@[simp]
theorem isCancelable_canceled : canceled.isCancelable = false := rfl

theorem not_isCompleted_of_isCancelable {status : Status} (h : status.isCancelable = true) :
    status.isCompleted = false := by
  cases status <;> simp_all [isCancelable, isAliveOrScheduled, isAlive, isCompleted]

end Status

end PipelineUpkeep
