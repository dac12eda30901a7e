import PipelineUpkeep.Store.Operations
/-!
# Calls of a store

One value for each single operation of a store, with the type of its answer.
Programs that use a store name their calls this way, so that the calls of several
programs can be interleaved in any order.
-/

namespace PipelineUpkeep

open Time

inductive StoreCall where
  | project (id : Nat)
  | pipeline (id : Nat)
  | pipelines (query : Query)
  | buildsFor (pipelineId : Nat)
  | refHead (projectId : Nat) (ref : String)
  | createPipeline (new : NewPipeline)
  | cancelRunning (pipeline : Pipeline) (request : CancelRequest)
  | setRefHead (head : RefHead)
  | schedule (id : Nat)
  | user (id : Nat)
  | dueSchedules (now : Timestamp)
  | advanceNextRun (id : Nat) (observed next : Timestamp)
  | recordLastPipeline (id pipelineId : Nat)

namespace StoreCall

/-- What a call answers when it succeeds. -/
def Answer : StoreCall → Type
  | project _ => Option Project
  | pipeline _ => Option Pipeline
  | pipelines _ => List Pipeline
  | buildsFor _ => List Build
  | refHead _ _ => Option RefHead
  | createPipeline _ => Pipeline
  | cancelRunning _ _ => CancelOutcome
  | setRefHead _ => Unit
  | schedule _ => Option Schedule
  | user _ => Option User
  | dueSchedules _ => List Schedule
  | advanceNextRun _ _ _ => Bool
  | recordLastPipeline _ _ => Unit

/-- Perform one call. -/
def perform : (call : StoreCall) → Store → Except StoreError call.Answer × Store
  | project id, store => (.ok (store.projects.find? id), store)
  | pipeline id, store => (.ok (store.pipelines.find? id), store)
  | pipelines query, store => (.ok (store.evaluate query), store)
  | buildsFor pipelineId, store => (.ok (store.buildsOf pipelineId), store)
  | refHead projectId ref, store => (.ok (store.refs.find? projectId ref), store)
  | createPipeline new, store =>
      let (row, store) := store.createPipeline new
      (.ok row, store)
  | cancelRunning row request, store => store.cancelRunning row request
  | setRefHead head, store => (.ok (), store.setRefHead head)
  | schedule id, store => (.ok (store.schedules.find? id), store)
  | user id, store => (.ok (store.users.find? id), store)
  | dueSchedules now, store => (.ok (store.dueSchedules now), store)
  | advanceNextRun id observed next, store => store.advanceNextRun id observed next
  | recordLastPipeline id pipelineId, store => store.recordLastPipeline id pipelineId

/-- The call may write. -/
def isWrite : StoreCall → Bool
  | createPipeline .. | cancelRunning .. | setRefHead .. | advanceNextRun ..
  | recordLastPipeline .. => true
  | _ => false

theorem perform_snd_of_not_isWrite {call : StoreCall} (h : call.isWrite = false)
    (store : Store) : (call.perform store).2 = store := by
  cases call <;> first | rfl | simp [isWrite] at h

end StoreCall

end PipelineUpkeep
