import PipelineUpkeep.Data.Value
import PipelineUpkeep.Store.Table
/-!
# Summaries of cancellation runs

What a run did.  The canceled pipelines and the largest batch count over all of
its passes; the pipelines left alone and the number of batches over the last
pass.
-/

namespace PipelineUpkeep

open Data

/-- A set of identifiers, in increasing order. -/
abbrev IdSet := Table Nat id

namespace IdSet

/-- The identifiers in increasing order. -/
def toList (ids : IdSet) : List Nat := ids.rows

def isEmpty (ids : IdSet) : Bool := ids.rows.isEmpty

def encode (ids : IdSet) : Value := .ofList .nat ids.toList

end IdSet

structure CancellationSummary where
  canceled : IdSet
  /-- Candidates of the last pass with a build that blocks cancellation. -/
  notInterruptible : IdSet
  /-- Candidates of the last pass that had finished before. -/
  alreadyResolved : IdSet
  /-- Batches read in the last pass. -/
  batches : Nat
  largestBatch : Nat
  attempts : Nat
  deriving Inhabited

namespace CancellationSummary

def empty : CancellationSummary := ⟨Table.empty, Table.empty, Table.empty, 0, 0, 0⟩

/-- Forget what counts for the last pass only. -/
def startPass (summary : CancellationSummary) (attempt : Nat) : CancellationSummary :=
  { summary with
    attempts := attempt
    notInterruptible := Table.empty
    alreadyResolved := Table.empty
    batches := 0 }

def recordBatch (summary : CancellationSummary) (size : Nat) : CancellationSummary :=
  { summary with
    batches := summary.batches + 1
    largestBatch := max summary.largestBatch size }

def addNotInterruptible (summary : CancellationSummary) (ids : List Nat) :
    CancellationSummary :=
  { summary with notInterruptible := summary.notInterruptible.insertAll ids }

def addCanceled (summary : CancellationSummary) (id : Nat) : CancellationSummary :=
  { summary with canceled := summary.canceled.insert id }

def addAlreadyResolved (summary : CancellationSummary) (id : Nat) : CancellationSummary :=
  { summary with alreadyResolved := summary.alreadyResolved.insert id }

def entries (summary : CancellationSummary) : List (String × Value) :=
  [("canceled", summary.canceled.encode), ("not_interruptible", summary.notInterruptible.encode),
    ("already_resolved", summary.alreadyResolved.encode), ("batches", .nat summary.batches),
    ("largest_batch", .nat summary.largestBatch), ("attempts", .nat summary.attempts)]

end CancellationSummary

end PipelineUpkeep
