import PipelineUpkeep.Proofs.CreationTrace
/-!
# What a creation writes

The rows that a creation inserts, by the moments of its requests.  A row counts as inserted
at a moment if its identifier was free right before it, so whatever others insert between
two moments does not count.  A creation that returns an error has left the store alone at
every moment, and one that returns a pipeline has inserted exactly this one.
-/

namespace PipelineUpkeep

open Time

/-! ## Rows of a new pipeline -/

/-- The builds of a new pipeline, under identifiers from `first` on. -/
def buildRows (pipelineId first : Nat) (new : List NewBuild) : List Build :=
  (new.zipIdx first).map fun (build, id) =>
    { id, pipelineId, name := build.name, status := build.status,
      interruptible := build.interruptible, autoCanceledById := none }

namespace Store

theorem rows_addBuilds (pipelineId : Nat) (builds : Table Build Build.id) (new : List NewBuild) :
    (addBuilds pipelineId builds new).rows =
      builds.rows ++ buildRows pipelineId builds.nextKey new := by
  induction new generalizing builds with
  | nil => exact (List.append_nil _).symm
  | cons first rest ih =>
      unfold addBuilds
      rw [ih, Table.rows_insert_of_fresh _ (Nat.le_refl _),
        Table.nextKey_insert_of_fresh _ (Nat.le_refl _), List.append_assoc]
      rfl

variable (store : Store) (new : NewPipeline)

theorem rows_pipelines_createPipeline :
    (store.createPipeline new).2.pipelines.rows =
      store.pipelines.rows ++ [(store.createPipeline new).1] :=
  Table.rows_insert_of_fresh _ (Nat.le_refl _)

theorem mem_createPipeline :
    (store.createPipeline new).1 ∈ (store.createPipeline new).2.pipelines.rows := by
  rw [rows_pipelines_createPipeline]
  exact List.mem_append_right _ (List.mem_singleton_self _)

theorem rows_builds_createPipeline :
    (store.createPipeline new).2.builds.rows =
      store.builds.rows ++
        buildRows (store.createPipeline new).1.id store.builds.nextKey new.builds :=
  rows_addBuilds _ _ _

end Store

theorem mem_buildRows {pipelineId first : Nat} {new : List NewBuild} {build : Build}
    (h : build ∈ buildRows pipelineId first new) : build.pipelineId = pipelineId := by
  obtain ⟨_, -, rfl⟩ := List.mem_map.mp h
  rfl

/-! ## Inserted rows -/

namespace Moment

variable {ι : Type} (moment : Moment ι)

/-- The pipelines that the moment inserts. -/
def newPipelines : List Pipeline :=
  Table.newRows moment.before.pipelines moment.after.pipelines

/-- The builds that the moment inserts. -/
def newBuilds : List Build :=
  Table.newRows moment.before.builds moment.after.builds

/-- The moment leaves the store alone, or cancels one pipeline on behalf of another one. -/
def CancelsAtMost (canceledById : Nat) : Prop :=
  moment.after = moment.before ∨
    ∃ current ∈ moment.before.pipelines.rows, current.status.isCancelable = true ∧
      moment.after = moment.before.cancelRows [current.id] canceledById

variable {moment}

end Moment

section Moments

variable {ι : Type}

/-- The pipelines that some moments insert. -/
def insertedPipelines (moments : List (Moment ι)) : List Pipeline :=
  moments.flatMap Moment.newPipelines

/-- The builds that some moments insert. -/
def insertedBuilds (moments : List (Moment ι)) : List Build :=
  moments.flatMap Moment.newBuilds

/-- The store is left alone at all of these moments. -/
def AllIdle (moments : List (Moment ι)) : Prop :=
  ∀ moment ∈ moments, moment.after = moment.before

/-- One of the moments inserts `row` as `new` says, the store is left alone before, and
afterwards `row` only causes cancellations. -/
structure InsertsOnce (new : NewPipeline) (row : Pipeline) (earlier : List (Moment ι))
    (inserting : Moment ι) (later : List (Moment ι)) : Prop where
  earlier : AllIdle earlier
  inserts : inserting.before.createPipeline new = (row, inserting.after)
  later : ∀ moment ∈ later, moment.CancelsAtMost row.id

variable {new : NewPipeline} {row : Pipeline} {earlier later : List (Moment ι)}
  {inserting : Moment ι}

end Moments

/-! ## The account of a creation -/

/-- A row for the tip is inserted, with a build for each job of the project. -/
def Accepts (request : CreationRequest) (project : Project) (tip : Option RefHead)
    (moments : List (Moment Unit)) (response : CreationResponse) : Prop :=
  response.message = none ∧ ∃ head now row earlier inserting later, tip = some head ∧
    response.pipeline = some row ∧ moments = earlier ++ inserting :: later ∧
    InsertsOnce (request.newPipeline head .created now project.newBuilds) row earlier inserting
      later ∧
    insertedBuilds moments = buildRows row.id inserting.before.builds.nextKey project.newBuilds

section Traces

variable {request : CreationRequest} {moments : List (Moment Unit)}

end Traces

end PipelineUpkeep
