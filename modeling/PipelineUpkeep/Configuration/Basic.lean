import PipelineUpkeep.Cancellation.Settings
import PipelineUpkeep.Data.Decode
import PipelineUpkeep.Pipeline.Records
import PipelineUpkeep.Policy
/-!
# Configurations

The settings of the command line in five sections.  A file may leave out any
section and any field.  A list in place of a section that starts with the token
must give the token.
-/

namespace PipelineUpkeep

open Data Time

/-- The server that knows the heads of branches. -/
structure RemoteSection where
  token : Option String
  baseUrl : String
  deriving DecidableEq, Repr

structure CancellationSection where
  batchSize : Nat
  lookbackHours : Nat
  maxLockAttempts : Nat
  lockBackoffMs : Nat
  deriving DecidableEq, Repr

/-- How a command prints its result. -/
inductive OutputFormat where
  | table
  | json
  deriving DecidableEq, Repr

structure OutputSection where
  format : OutputFormat
  pretty : Bool
  deriving DecidableEq, Repr

structure Configuration where
  remote : RemoteSection
  cancellation : CancellationSection
  sweepIntervalSecs : Nat
  features : FeatureFlags
  output : OutputSection
  deriving DecidableEq, Repr

namespace RemoteSection

def standard : RemoteSection := ⟨none, "https://gitlab.com"⟩

def fieldNames : List String := ["token", "base-url"]

def decode : Decoder RemoteSection := fun format value => do
  match ← Decode.fields fieldNames format value with
  | [token, baseUrl] =>
      if value.isEmptyList then none
      else
        some {
          token := ← Decode.optional none (Decode.option Decode.string) format token
          baseUrl := ← Decode.optional standard.baseUrl Decode.string format baseUrl }
  | _ => none

def encode (remote : RemoteSection) : Value :=
  .table [("token", .ofOption .text remote.token), ("base-url", .text remote.baseUrl)]

end RemoteSection

namespace CancellationSection

/-- Batches of 25, one week, five attempts, ten milliseconds. -/
def standard : CancellationSection := ⟨25, 24 * 7, 5, 10⟩

def fieldNames : List String :=
  ["batch-size", "lookback-hours", "max-lock-attempts", "lock-backoff-ms"]

/-- Hours and attempts have 32 bits, the others 64. -/
def decode : Decoder CancellationSection := fun format value => do
  let short := Decode.natBelow Text.bound32
  let long := Decode.natBelow Text.bound64
  match ← Decode.fields fieldNames format value with
  | [batchSize, lookbackHours, maxLockAttempts, lockBackoffMs] =>
      some {
        batchSize := ← Decode.optional standard.batchSize long format batchSize
        lookbackHours := ← Decode.optional standard.lookbackHours short format lookbackHours
        maxLockAttempts :=
          ← Decode.optional standard.maxLockAttempts short format maxLockAttempts
        lockBackoffMs := ← Decode.optional standard.lockBackoffMs long format lockBackoffMs }
  | _ => none

def encode (cancellation : CancellationSection) : Value :=
  .table [("batch-size", .nat cancellation.batchSize),
    ("lookback-hours", .nat cancellation.lookbackHours),
    ("max-lock-attempts", .nat cancellation.maxLockAttempts),
    ("lock-backoff-ms", .nat cancellation.lockBackoffMs)]

end CancellationSection

namespace OutputFormat

def name : OutputFormat → String
  | table => "table"
  | json => "json"

def ofName? : String → Option OutputFormat
  | "table" => some table
  | "json" => some json
  | _ => none

@[simp]
theorem ofName?_name (format : OutputFormat) : ofName? format.name = some format := by
  cases format <;> rfl

end OutputFormat

namespace OutputSection

def standard : OutputSection := ⟨.table, false⟩

def decode : Decoder OutputSection := fun format value => do
  match ← Decode.fields ["format", "pretty"] format value with
  | [output, pretty] =>
      some {
        format :=
          ← Decode.optional standard.format (Decode.choice OutputFormat.ofName?) format output
        pretty := ← Decode.optional standard.pretty Decode.bool format pretty }
  | _ => none

def encode (output : OutputSection) : Value :=
  .table [("format", .text output.format.name), ("pretty", .bool output.pretty)]

end OutputSection

namespace Configuration

/-- The seconds between two sweeps where no file says otherwise. -/
def standardSweepInterval : Nat := 60

def standard : Configuration :=
  ⟨.standard, .standard, standardSweepInterval, .standard, .standard⟩

instance : Inhabited Configuration := ⟨standard⟩

def fieldNames : List String := ["gitlab", "cancellation", "schedules", "features", "output"]

/-- The section of the schedules holds only the interval of sweeps. -/
def decodeSweepInterval : Decoder Nat := fun format value => do
  match ← Decode.fields ["sweep-interval-secs"] format value with
  | [interval] =>
      Decode.optional standardSweepInterval (Decode.natBelow Text.bound64) format interval
  | _ => none

def decode : Decoder Configuration := fun format value => do
  match ← Decode.fields fieldNames format value with
  | [remote, cancellation, schedules, features, output] =>
      some {
        remote := ← Decode.optional .standard RemoteSection.decode format remote
        cancellation := ← Decode.optional .standard CancellationSection.decode format cancellation
        sweepIntervalSecs :=
          ← Decode.optional standardSweepInterval decodeSweepInterval format schedules
        features := ← Decode.optional .standard FeatureFlags.decode format features
        output := ← Decode.optional .standard OutputSection.decode format output }
  | _ => none

def encode (configuration : Configuration) : Value :=
  .table [("gitlab", configuration.remote.encode),
    ("cancellation", configuration.cancellation.encode),
    ("schedules", .table [("sweep-interval-secs", .nat configuration.sweepIntervalSecs)]),
    ("features", configuration.features.encode), ("output", configuration.output.encode)]

/-- The settings of cancellation runs: at least one pipeline a batch and at least
one attempt. -/
def cancellationSettings (configuration : Configuration) : CancellationSettings where
  batchSize := max configuration.cancellation.batchSize 1
  lookback := configuration.cancellation.lookbackHours * 3600
  maxLockAttempts := max configuration.cancellation.maxLockAttempts 1
  lockBackoff := Span.ofMilliseconds configuration.cancellation.lockBackoffMs
  webBaseUrl := some configuration.remote.baseUrl

/-- The seconds between two sweeps, at least one. -/
def sweepInterval (configuration : Configuration) : Nat :=
  max configuration.sweepIntervalSecs 1

end Configuration

end PipelineUpkeep
