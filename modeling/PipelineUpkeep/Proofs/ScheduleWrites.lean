import PipelineUpkeep.Proofs.NextRunOrder
/-!
# What is written to schedules

Two calls write schedules, and each writes one field of one row: an advance sets the next
run, and a record notes the last pipeline.  Everything else that is stored stays as it is.
-/

namespace PipelineUpkeep

open Time

theorem Schedule.id_with_nextRunAt (next : Timestamp) (row : Schedule) :
    ({ row with nextRunAt := next } : Schedule).id = row.id := rfl

theorem Schedule.id_with_lastPipelineId (last : Option Nat) (row : Schedule) :
    ({ row with lastPipelineId := last } : Schedule).id = row.id := rfl

namespace Store

/-- The store with another next run of one schedule. -/
def withNextRun (store : Store) (id : Nat) (next : Timestamp) : Store :=
  { store with
    schedules := store.schedules.modify id ({ · with nextRunAt := next })
      (Schedule.id_with_nextRunAt next) }

/-- The store with another last pipeline of one schedule. -/
def withLastPipeline (store : Store) (id pipelineId : Nat) : Store :=
  { store with
    schedules := store.schedules.modify id ({ · with lastPipelineId := some pipelineId })
      (Schedule.id_with_lastPipelineId (some pipelineId)) }

variable {store : Store} {row : Schedule}

theorem find?_withNextRun (id : Nat) (next : Timestamp) (other : Nat) :
    (store.withNextRun id next).schedules.find? other =
      (store.schedules.find? other).map fun row =>
        if other = id then { row with nextRunAt := next } else row := by
  rw [withNextRun, Table.find?_modify]

theorem find?_withLastPipeline (id pipelineId other : Nat) :
    (store.withLastPipeline id pipelineId).schedules.find? other =
      (store.schedules.find? other).map fun row =>
        if other = id then { row with lastPipelineId := some pipelineId } else row := by
  rw [withLastPipeline, Table.find?_modify]

theorem find?_withNextRun_self {id : Nat} (h : store.schedules.find? id = some row)
    (next : Timestamp) :
    (store.withNextRun id next).schedules.find? id = some { row with nextRunAt := next } := by
  rw [find?_withNextRun, h, Option.map_some, if_pos rfl]

theorem find?_withLastPipeline_self {id : Nat} (h : store.schedules.find? id = some row)
    (pipelineId : Nat) :
    (store.withLastPipeline id pipelineId).schedules.find? id =
      some { row with lastPipelineId := some pipelineId } := by
  rw [find?_withLastPipeline, h, Option.map_some, if_pos rfl]

/-- An advance from the next run that is stored succeeds. -/
theorem advanceNextRun_of_find? (h : store.schedules.find? row.id = some row) (next : Timestamp) :
    store.advanceNextRun row.id row.nextRunAt next =
      (.ok true, store.withNextRun row.id next) := by
  simp only [advanceNextRun, h, ne_eq, not_true_eq_false, if_false, withNextRun]

theorem recordLastPipeline_of_find? {id : Nat} (h : store.schedules.find? id = some row)
    (pipelineId : Nat) :
    store.recordLastPipeline id pipelineId = (.ok (), store.withLastPipeline id pipelineId) := by
  simp only [recordLastPipeline, h, withLastPipeline]

end Store

end PipelineUpkeep
