import PipelineUpkeep.Proofs.TableLaws
import PipelineUpkeep.Store.Basic
/-!
# Stores and their snapshots

The snapshot of a store lists its rows in the order in which the store keeps them, so the
store that is made of the snapshot is the store itself.
-/

namespace PipelineUpkeep

/-- A head of a new ref goes to the end. -/
theorem setHead_of_forall_ne {head : RefHead} {heads : List RefHead}
    (h : ∀ other ∈ heads, other.key ≠ head.key) : setHead head heads = heads ++ [head] := by
  induction heads with
  | nil => rfl
  | cons first rest ih =>
      have hRest := ih fun other hOther => h other (List.mem_cons_of_mem _ hOther)
      rw [setHead, if_neg (h first List.mem_cons_self), hRest]
      rfl

namespace RefTable

/-- Heads of further refs join those of a table at the end. -/
theorem heads_foldl_set (refs : RefTable) {heads : List RefHead}
    (hDistinct : (refs.heads ++ heads).Pairwise (·.key ≠ ·.key)) :
    (heads.foldl set refs).heads = refs.heads ++ heads := by
  induction heads generalizing refs with
  | nil => exact (List.append_nil _).symm
  | cons head rest ih =>
      have hSet : (refs.set head).heads = refs.heads ++ [head] :=
        setHead_of_forall_ne fun other hOther =>
          (List.pairwise_append.mp hDistinct).2.2 other hOther head List.mem_cons_self
      have hJoined : (refs.set head).heads ++ rest = refs.heads ++ head :: rest := by
        rw [hSet, List.append_assoc, List.singleton_append]
      exact (ih (refs.set head) (hJoined ▸ hDistinct)).trans hJoined

theorem ofList_heads (refs : RefTable) : ofList refs.heads = refs :=
  ext (heads_foldl_set empty refs.distinct)

end RefTable

/-- The store of its snapshot is the store itself. -/
theorem Store.ofSnapshot_snapshot (store : Store) : ofSnapshot store.snapshot = store :=
  Store.ext store.projects.ofList_rows store.users.ofList_rows store.refs.ofList_heads
    store.pipelines.ofList_rows store.builds.ofList_rows store.schedules.ofList_rows

end PipelineUpkeep
