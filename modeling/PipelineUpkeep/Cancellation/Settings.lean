import PipelineUpkeep.Time.Span
/-!
# Settings of a cancellation run

How many pipelines are read at once, how far back pipelines count, and how often
and at what distance a run starts over after a conflict.
-/

namespace PipelineUpkeep

open Time

structure CancellationSettings where
  batchSize : Nat
  /-- In seconds; a negative window starts in the future. -/
  lookback : Int
  maxLockAttempts : Nat
  lockBackoff : Span
  /-- The web address for the links in audit records. -/
  webBaseUrl : Option String
  deriving DecidableEq, Repr

namespace CancellationSettings

/-- Batches of 25, one week, five attempts ten milliseconds apart, no links. -/
def standard : CancellationSettings where
  batchSize := 25
  lookback := 7 * 24 * 3600
  maxLockAttempts := 5
  lockBackoff := Span.ofMilliseconds 10
  webBaseUrl := none

instance : Inhabited CancellationSettings := ⟨standard⟩

end CancellationSettings

end PipelineUpkeep
