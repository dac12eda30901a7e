import PipelineUpkeep.Store.Query
import PipelineUpkeep.Store.Snapshot
import PipelineUpkeep.Store.Table
/-!
# The store

Six collections of rows.  Five are tables by identifier; the heads of refs keep
the order in which their refs were first seen.  A store is made from a snapshot,
of whose rows with one key the last counts, and gives back a snapshot.
-/

namespace PipelineUpkeep

/-- The project and the name of a head's ref. -/
def RefHead.key (head : RefHead) : Nat × String := (head.projectId, head.ref)

/-- Replace the head of the same ref, or add a head at the end. -/
def setHead (head : RefHead) : List RefHead → List RefHead
  | [] => [head]
  | other :: rest => if other.key = head.key then head :: rest else other :: setHead head rest

theorem key_mem_setHead {head other : RefHead} {heads : List RefHead}
    (h : other ∈ setHead head heads) : other.key = head.key ∨ other ∈ heads := by
  induction heads with
  | nil => left; rw [setHead, List.mem_singleton] at h; rw [h]
  | cons first rest ih =>
      simp only [setHead] at h
      split at h
      · rcases List.mem_cons.mp h with rfl | hRest
        · exact Or.inl rfl
        · exact Or.inr (List.mem_cons_of_mem _ hRest)
      · rcases List.mem_cons.mp h with rfl | hRest
        · exact Or.inr List.mem_cons_self
        · exact (ih hRest).imp id (List.mem_cons_of_mem _)

theorem pairwise_setHead (head : RefHead) {heads : List RefHead}
    (h : heads.Pairwise (·.key ≠ ·.key)) : (setHead head heads).Pairwise (·.key ≠ ·.key) := by
  induction heads with
  | nil => simp [setHead]
  | cons first rest ih =>
      obtain ⟨hHead, hTail⟩ := List.pairwise_cons.mp h
      simp only [setHead]
      split
      · rename_i hSame
        exact List.pairwise_cons.mpr ⟨fun x hx => hSame ▸ hHead x hx, hTail⟩
      · rename_i hOther
        refine List.pairwise_cons.mpr ⟨fun x hx => ?_, ih hTail⟩
        rcases key_mem_setHead hx with hKey | hRest
        · rw [hKey]
          exact hOther
        · exact hHead x hRest

/-- Heads of distinct refs, in the order in which the refs were first seen. -/
structure RefTable where
  heads : List RefHead
  distinct : heads.Pairwise (·.key ≠ ·.key)

namespace RefTable

@[ext]
theorem ext {a b : RefTable} (h : a.heads = b.heads) : a = b := by
  cases a
  cases b
  cases h
  rfl

def empty : RefTable := ⟨[], List.Pairwise.nil⟩

instance : Inhabited RefTable := ⟨empty⟩

def find? (refs : RefTable) (projectId : Nat) (ref : String) : Option RefHead :=
  refs.heads.find? fun head => head.key == (projectId, ref)

def set (refs : RefTable) (head : RefHead) : RefTable :=
  ⟨setHead head refs.heads, pairwise_setHead head refs.distinct⟩

def ofList (heads : List RefHead) : RefTable :=
  heads.foldl set empty

end RefTable

structure Store where
  projects : Table Project Project.id
  users : Table User User.id
  refs : RefTable
  pipelines : Table Pipeline Pipeline.id
  builds : Table Build Build.id
  schedules : Table Schedule Schedule.id
  deriving Inhabited

namespace Store

@[ext]
theorem ext {a b : Store} (hProjects : a.projects = b.projects) (hUsers : a.users = b.users)
    (hRefs : a.refs = b.refs) (hPipelines : a.pipelines = b.pipelines)
    (hBuilds : a.builds = b.builds) (hSchedules : a.schedules = b.schedules) : a = b := by
  cases a
  cases b
  simp_all

def ofSnapshot (snapshot : Snapshot) : Store where
  projects := Table.ofList snapshot.projects
  users := Table.ofList snapshot.users
  refs := RefTable.ofList snapshot.refs
  pipelines := Table.ofList snapshot.pipelines
  builds := Table.ofList snapshot.builds
  schedules := Table.ofList snapshot.schedules

def snapshot (store : Store) : Snapshot where
  projects := store.projects.rows
  users := store.users.rows
  refs := store.refs.heads
  pipelines := store.pipelines.rows
  builds := store.builds.rows
  schedules := store.schedules.rows

/-- A store is determined by its snapshot. -/
theorem snapshot_injective {a b : Store} (h : a.snapshot = b.snapshot) : a = b := by
  simp only [snapshot, Snapshot.mk.injEq] at h
  obtain ⟨h₁, h₂, h₃, h₄, h₅, h₆⟩ := h
  exact Store.ext (Table.ext h₁) (Table.ext h₂) (RefTable.ext h₃) (Table.ext h₄)
    (Table.ext h₅) (Table.ext h₆)

end Store

end PipelineUpkeep
