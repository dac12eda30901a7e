import PipelineUpkeep.Text.Decimal
/-!
# Spans of time

A span counts nanoseconds, at most 2⁶⁴ seconds less one nanosecond.
Multiplication stops at that bound.  As text, a span has the largest unit of
which it holds at least one, with the digits of the fraction that are not
trailing zeros.
-/

namespace PipelineUpkeep.Time

/-- A span of time in nanoseconds. -/
structure Span where
  nanoseconds : Nat
  deriving DecidableEq, Repr, Inhabited

namespace Span

/-- The longest span. -/
def longest : Span := ⟨18446744073709551616 * 1000000000 - 1⟩

def ofMilliseconds (milliseconds : Nat) : Span := ⟨milliseconds * 1000000⟩

def ofSeconds (seconds : Nat) : Span := ⟨seconds * 1000000000⟩

/-- Multiply, stopping at the longest span. -/
def times (span : Span) (factor : Nat) : Span :=
  ⟨min (span.nanoseconds * factor) longest.nanoseconds⟩

/-- The shorter of two spans. -/
def min (a b : Span) : Span :=
  ⟨Nat.min a.nanoseconds b.nanoseconds⟩

/-- The whole milliseconds in a span. -/
def milliseconds (span : Span) : Nat := span.nanoseconds / 1000000

/-- `n / 10 ^ places`, without trailing zeros after the point. -/
def decimalText (n places : Nat) : List Char :=
  let whole := Text.natDigits (n / Nat.pow 10 places)
  let fraction :=
    Text.dropEndWhile (· == '0') (Text.paddedDigits places (n % Nat.pow 10 places))
  if fraction.isEmpty then whole else whole ++ '.' :: fraction

/-- For instance `10ms`, `1.5s` and `0ns`. -/
def toText (span : Span) : String :=
  let n := span.nanoseconds
  let (digits, unit) :=
    if n ≥ 1000000000 then (decimalText n 9, "s")
    else if n ≥ 1000000 then (decimalText n 6, "ms")
    else if n ≥ 1000 then (decimalText n 3, "µs")
    else (decimalText n 0, "ns")
  String.ofList digits ++ unit

end Span

end PipelineUpkeep.Time
