import PipelineUpkeep.Pipeline.Source
import PipelineUpkeep.Pipeline.Status
import PipelineUpkeep.Text.Decimal
import PipelineUpkeep.Time.Timestamp
/-!
# Projects, pipelines and builds

The rows of a store.  Identifiers and versions are natural numbers; files hold
only those below 2⁶⁴.  A pipeline with a parent is a *child* pipeline.  A build
*blocks* cancellation of its pipeline while it has not completed and is not
interruptible.
-/

namespace PipelineUpkeep

open Time

/-- Identifiers in files are below this bound. -/
def idBound : Nat := Text.bound64

/-- A CI pipeline of a project.  `lockVersion` grows with every write;
`autoCanceledById` is the pipeline whose creation canceled this one. -/
structure Pipeline where
  id : Nat
  projectId : Nat
  ref : String
  sha : String
  source : Source
  status : Status
  createdAt : Timestamp
  parentId : Option Nat
  autoCanceledById : Option Nat
  lockVersion : Nat
  deriving DecidableEq, Repr, Inhabited

def Pipeline.isChild (pipeline : Pipeline) : Bool :=
  pipeline.parentId.isSome

theorem Pipeline.isChild_eq_false_iff (pipeline : Pipeline) :
    pipeline.isChild = false ↔ pipeline.parentId = none :=
  Option.isSome_eq_false_iff.trans Option.isNone_iff_eq_none

/-- A job of one pipeline.  Its author marks it `interruptible` when it may be
canceled while it runs. -/
structure Build where
  id : Nat
  pipelineId : Nat
  name : String
  status : Status
  interruptible : Bool
  autoCanceledById : Option Nat
  deriving DecidableEq, Repr, Inhabited

/-- Still able to make progress and not declared interruptible. -/
def Build.blocksAutoCancel (build : Build) : Bool :=
  !build.status.isCompleted && !build.interruptible

/-- A job definition from which the builds of new pipelines are made. -/
structure JobTemplate where
  name : String
  interruptible : Bool
  deriving DecidableEq, Repr, Inhabited

/-- A project.  `ciConfigError` is set while its CI configuration cannot be
processed. -/
structure Project where
  id : Nat
  path : String
  autoCancelPendingPipelines : Bool
  ciConfigError : Option String
  ciJobs : List JobTemplate
  deriving DecidableEq, Repr, Inhabited

/-- The commit at the tip of a branch or tag. -/
structure RefHead where
  projectId : Nat
  ref : String
  sha : String
  message : String
  deriving DecidableEq, Repr, Inhabited

structure User where
  id : Nat
  username : String
  deriving DecidableEq, Repr, Inhabited

/-- The builds of a pipeline to be created. -/
structure NewBuild where
  name : String
  status : Status
  interruptible : Bool
  deriving DecidableEq, Repr, Inhabited

/-- The fields of a pipeline to be created; the store gives it an identifier. -/
structure NewPipeline where
  projectId : Nat
  ref : String
  sha : String
  source : Source
  status : Status
  createdAt : Timestamp
  parentId : Option Nat
  builds : List NewBuild
  deriving DecidableEq, Repr, Inhabited

end PipelineUpkeep
