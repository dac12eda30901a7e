import PipelineUpkeep.Proofs.LastRows
import PipelineUpkeep.Proofs.StoreHistory
/-!
# Restored stores

A snapshot may hold its rows in any order and several rows with one key.  The store that is
made of it keeps the last row of every key, so its own snapshot is a normal form of the first
one, and nothing changes when that is restored again.  A store that has been used for any
time is determined by its snapshot too: restored from it, it answers whatever is asked next
as the store itself would.
-/

namespace PipelineUpkeep

/-- The last row of every key: tables in the order of their keys, heads in the order in which
their refs are named first. -/
structure Snapshot.IsNormalFormOf (normal snapshot : Snapshot) : Prop where
  projects : Table.ListsLast Project.id snapshot.projects normal.projects
  users : Table.ListsLast User.id snapshot.users normal.users
  heads : ∀ head, head ∈ normal.refs ↔ IsLastOfKey RefHead.key snapshot.refs head
  refs : normal.refs.map RefHead.key = (snapshot.refs.map RefHead.key).eraseDups
  pipelines : Table.ListsLast Pipeline.id snapshot.pipelines normal.pipelines
  builds : Table.ListsLast Build.id snapshot.builds normal.builds
  schedules : Table.ListsLast Schedule.id snapshot.schedules normal.schedules

namespace Store

theorem isNormalFormOf_snapshot (snapshot : Snapshot) :
    (ofSnapshot snapshot).snapshot.IsNormalFormOf snapshot where
  projects := Table.listsLast_ofList snapshot.projects
  users := Table.listsLast_ofList snapshot.users
  heads := RefTable.mem_heads_ofList_iff snapshot.refs
  refs := RefTable.map_key_ofList snapshot.refs
  pipelines := Table.listsLast_ofList snapshot.pipelines
  builds := Table.listsLast_ofList snapshot.builds
  schedules := Table.listsLast_ofList snapshot.schedules

/-- What some calls are answered, in the order of the calls. -/
def answersTo (store : Store) :
    List StoreCall → List ((call : StoreCall) × Except StoreError call.Answer)
  | [] => []
  | call :: rest => ⟨call, (call.perform store).1⟩ :: answersTo (call.perform store).2 rest

/-- A snapshot is brought into its normal form, and a store that is restored from its own
snapshot goes on as the store itself does. -/
theorem restored_store_goes_on_alike (snapshot : Snapshot) :
    (ofSnapshot snapshot).snapshot.IsNormalFormOf snapshot ∧
    (ofSnapshot (ofSnapshot snapshot).snapshot).snapshot = (ofSnapshot snapshot).snapshot ∧
    ∀ calls later : List StoreCall,
      let store := (ofSnapshot snapshot).afterCalls calls
      (ofSnapshot store.snapshot).answersTo later = store.answersTo later ∧
        ((ofSnapshot store.snapshot).afterCalls later).snapshot =
          (store.afterCalls later).snapshot := by
  refine ⟨isNormalFormOf_snapshot snapshot, ?_, ?_⟩
  · rw [ofSnapshot_snapshot]
  · intro calls later store
    have hRestored : ofSnapshot store.snapshot = store := store.ofSnapshot_snapshot
    rw [hRestored]
    exact ⟨rfl, rfl⟩

end Store

/-- Of two heads of one ref the later one stands at the place of the earlier one. -/
example :
    let heads : List RefHead :=
      [⟨1, "main", "c1", ""⟩, ⟨1, "next", "c2", ""⟩, ⟨1, "main", "c3", ""⟩]
    (RefTable.ofList heads).heads.map (·.sha) = ["c3", "c2"] := by
  decide

end PipelineUpkeep
