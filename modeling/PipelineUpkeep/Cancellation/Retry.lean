import PipelineUpkeep.Program.Basic
/-!
# Optimistic retry

An operation that fails with a conflict is run again from the start, up to a
number of attempts; any other outcome ends the loop.  Between two attempts the
program sleeps.  The first pause is the base span, each further one is twice as
long, and none exceeds one second.
-/

namespace PipelineUpkeep

open Time

/-- How often and at what distance an operation is run again. -/
structure OptimisticLock where
  name : String
  maxAttempts : Nat
  backoff : Span
  deriving DecidableEq, Repr

namespace OptimisticLock

/-- The longest pause. -/
def longestPause : Span := Span.ofSeconds 1

/-- The greatest factor by which the base span is multiplied. -/
def greatestFactor : Nat := Text.bound32 - 1

/-- `2 ^ exponent`, stopping at the greatest factor. -/
def doublingFactor (exponent : Nat) : Nat :=
  if exponent < 32 then Nat.pow 2 exponent else greatestFactor

/-- The pause after a failed attempt, counted from one. -/
def backoffFor (lock : OptimisticLock) (attempt : Nat) : Span :=
  (lock.backoff.times (doublingFactor (attempt - 1))).min longestPause

/-- At least one attempt is made. -/
def attemptLimit (lock : OptimisticLock) : Nat :=
  max 1 lock.maxAttempts

/-- The line that tells of a conflict before a pause. -/
def conflictMessage (lock : OptimisticLock) (error : StoreError) (attempt : Nat) : String :=
  "Optimistic lock '" ++ lock.name ++ "' conflict (" ++ error.message ++ "), retrying in " ++
    (lock.backoffFor attempt).toText ++ s!" ({attempt}/{lock.attemptLimit})..."

variable {α σ : Type}

/-- Run attempt number `attempt`, and up to `remaining` further ones.  The state is
handed from one attempt to the next.  The time that the attempts have taken is not
modelled: the line of a released lock always tells of `0.000s`. -/
def retryFrom (lock : OptimisticLock)
    (operation : Nat → σ → Program (Except StoreError α × σ)) :
    Nat → Nat → σ → Program (Except UpkeepError (α × Nat) × σ)
  | remaining, attempt, state => do
      let (result, state) ← operation attempt state
      match result with
      | .ok value =>
          if attempt > 1 then
            Program.info ("Optimistic lock '" ++ lock.name ++
              s!"' released after {attempt - 1} retries in 0.000s")
          return (.ok (value, attempt), state)
      | .error error =>
          if error.isConflict then
            -- The attempts are used up, or the state goes into the next one.
            match remaining with
            | 0 => return (.error (.lockRetriesExhausted lock.name attempt), state)
            | remaining + 1 =>
                Program.warn (lock.conflictMessage error attempt)
                Program.sleep (lock.backoffFor attempt)
                retryFrom lock operation remaining (attempt + 1) state
          else return (.error (.store error), state)

/-- Run an operation until it ends without a conflict or the attempts are used up.
Gives its value and the number of attempts. -/
def retry (lock : OptimisticLock) (operation : Nat → σ → Program (Except StoreError α × σ))
    (state : σ) : Program (Except UpkeepError (α × Nat) × σ) :=
  retryFrom lock operation (lock.attemptLimit - 1) 1 state

end OptimisticLock

end PipelineUpkeep
