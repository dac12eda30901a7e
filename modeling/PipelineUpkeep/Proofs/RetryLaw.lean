import PipelineUpkeep.Cancellation.Retry
import PipelineUpkeep.Proofs.ContractRuns
/-!
# The law of optimistic retry

A loop of retries is told by its attempts.  Each is the operation called with the next number
and the state that the attempt before it has left.  All but the last one ended in a conflict,
and each of these is followed by a pause of its own length; the last one did not, or it has
the greatest number that the lock allows, and no pause follows it.  The exchanges of the loop
are exactly those of its attempts, a line in the log and the pause between two of them, and a
line at the end if a value came after a conflict.

The operation may be any program: it may ask the surroundings, and answer by what it asked in
earlier calls.
-/

namespace PipelineUpkeep

namespace Program

variable {α β : Type}

/-- The program may come to its end with this value after these exchanges. -/
def Yields (program : Program α) (made : List Exchange) (value : α) : Prop :=
  program.Reaches made (.done value)

/-- The program never ends in a fault. -/
def IsFaultless (program : Program α) : Prop :=
  ∀ made fault, ¬ program.Reaches made (.crash fault)

theorem Reaches.cons {asked : Request} {resume : asked.Answer → Program α}
    {answer : asked.Answer} {later : List Exchange} {rest : Program α}
    (h : (resume answer).Reaches later rest) :
    (request asked resume).Reaches (⟨asked, answer⟩ :: later) rest := by
  induction h with
  | start => exact Reaches.start.ask answer
  | ask _ reply ih => exact ih.ask reply

theorem yields_done_iff {value result : α} {made : List Exchange} :
    (done value).Yields made result ↔ made = [] ∧ result = value := by
  constructor
  · intro h
    rcases h.cases_head with ⟨rfl, hRest⟩ | ⟨_, _, _, _, hRequest, -⟩
    · cases hRest
      exact ⟨rfl, rfl⟩
    · cases hRequest
  · rintro ⟨rfl, rfl⟩
    exact .start

theorem not_yields_crash {fault : Fault} {value : α} {made : List Exchange} :
    ¬ (crash fault : Program α).Yields made value := by
  intro h
  rcases h.cases_head with ⟨-, hRest⟩ | ⟨_, _, _, _, hRequest, -⟩
  · cases hRest
  · cases hRequest

theorem yields_request_iff {asked : Request} {resume : asked.Answer → Program α} {value : α}
    {made : List Exchange} :
    (request asked resume).Yields made value ↔
      ∃ answer later, made = ⟨asked, answer⟩ :: later ∧ (resume answer).Yields later value := by
  constructor
  · intro h
    rcases h.cases_head with ⟨-, hRest⟩ | ⟨_, _, answer, later, hRequest, hMade, hLater⟩
    · cases hRest
    · cases hRequest
      exact ⟨answer, later, hMade, hLater⟩
  · rintro ⟨answer, later, rfl, hLater⟩
    exact hLater.cons

theorem yields_bind_iff {program : Program α} {next : α → Program β} {result : β}
    {made : List Exchange} :
    (program >>= next).Yields made result ↔
      ∃ earlier value later, made = earlier ++ later ∧ program.Yields earlier value ∧
        (next value).Yields later result := by
  induction program generalizing made with
  | done value =>
      rw [done_bind]
      constructor
      · intro h
        exact ⟨[], value, made, rfl, .start, h⟩
      · rintro ⟨earlier, other, later, rfl, hEarlier, hLater⟩
        obtain ⟨rfl, rfl⟩ := yields_done_iff.mp hEarlier
        exact hLater
  | crash fault =>
      rw [crash_bind]
      constructor
      · intro h
        exact absurd h not_yields_crash
      · rintro ⟨_, _, _, _, hEarlier, _⟩
        exact absurd hEarlier not_yields_crash
  | request asked resume ih =>
      rw [request_bind, yields_request_iff]
      constructor
      · rintro ⟨answer, rest, rfl, hRest⟩
        obtain ⟨earlier, value, later, rfl, hEarlier, hLater⟩ := (ih answer).mp hRest
        exact ⟨_, value, later, rfl, hEarlier.cons, hLater⟩
      · rintro ⟨earlier, value, later, rfl, hEarlier, hLater⟩
        obtain ⟨answer, rest, rfl, hRest⟩ := yields_request_iff.mp hEarlier
        exact ⟨answer, rest ++ later, rfl, (ih answer).mpr ⟨rest, value, later, rfl, hRest, hLater⟩⟩

theorem yields_pure_iff {value result : α} {made : List Exchange} :
    (pure value : Program α).Yields made result ↔ made = [] ∧ result = value :=
  yields_done_iff

theorem yields_writeLog_bind_iff {level : LogLevel} {message : String} {next : Unit → Program β}
    {result : β} {made : List Exchange} :
    (writeLog level message >>= next).Yields made result ↔
      ∃ later, made = ⟨.log ⟨level, false, message⟩, ()⟩ :: later ∧
        (next ()).Yields later result := by
  refine Iff.trans (yields_request_iff : (request (.log ⟨level, false, message⟩) next).Yields
    made result ↔ _) ?_
  exact ⟨fun ⟨(), later, h⟩ => ⟨later, h⟩, fun ⟨later, h⟩ => ⟨(), later, h⟩⟩

theorem yields_sleep_bind_iff {span : Time.Span} {next : Unit → Program β} {result : β}
    {made : List Exchange} :
    (sleep span >>= next).Yields made result ↔
      ∃ later, made = ⟨.sleep span, ()⟩ :: later ∧ (next ()).Yields later result := by
  refine Iff.trans (yields_request_iff : (request (.sleep span) next).Yields made result ↔ _) ?_
  exact ⟨fun ⟨(), later, h⟩ => ⟨later, h⟩, fun ⟨later, h⟩ => ⟨(), later, h⟩⟩

/-! ### Faults -/

theorem isFaultless_done (value : α) : (done value).IsFaultless := by
  intro made fault h
  rcases h.cases_head with ⟨-, hRest⟩ | ⟨_, _, _, _, hRequest, -⟩
  · cases hRest
  · cases hRequest

theorem isFaultless_request_iff {asked : Request} {resume : asked.Answer → Program α} :
    (request asked resume).IsFaultless ↔ ∀ answer, (resume answer).IsFaultless := by
  constructor
  · intro h answer made fault hReaches
    exact h _ fault hReaches.cons
  · intro h made fault hReaches
    rcases hReaches.cases_head with ⟨-, hRest⟩ | ⟨_, _, answer, later, hRequest, -, hLater⟩
    · cases hRest
    · cases hRequest
      exact h answer later fault hLater

theorem IsFaultless.bind {program : Program α} {next : α → Program β}
    (h : program.IsFaultless) (hNext : ∀ value, (next value).IsFaultless) :
    (program >>= next).IsFaultless := by
  induction program with
  | done value => exact hNext value
  | crash fault => exact absurd .start (h [] fault)
  | request asked resume ih =>
      rw [request_bind, isFaultless_request_iff]
      intro answer
      exact ih answer (isFaultless_request_iff.mp h answer)

theorem isFaultless_ask (asked : Request) : (ask asked).IsFaultless :=
  isFaultless_request_iff.mpr fun answer => isFaultless_done answer

/-- A program without faults ends with a value that it may yield, however its requests are
answered. -/
theorem IsFaultless.runWith_yields {τ : Type} {program : Program α} (h : program.IsFaultless)
    (answer : (asked : Request) → τ → asked.Answer × τ) (surroundings : τ) :
    ∃ made value, (program.runWith answer surroundings).1 = .ok value ∧
      program.Yields made value := by
  induction program generalizing surroundings with
  | done value => exact ⟨[], value, rfl, .start⟩
  | crash fault => exact absurd .start (h [] fault)
  | request asked resume ih =>
      obtain ⟨made, value, hValue, hYields⟩ := ih (answer asked surroundings).1
        (isFaultless_request_iff.mp h _) (answer asked surroundings).2
      exact ⟨_, value, hValue, hYields.cons⟩

end Program

namespace OptimisticLock

variable {α σ : Type}

/-- A call of the operation: its number, what it has exchanged, its answer, and the state that
it has left. -/
structure Attempt (α σ : Type) where
  number : Nat
  exchanges : List Exchange
  answer : Except StoreError α
  state : σ

/-- The call has met a version that it did not expect. -/
def Attempt.IsConflict (attempt : Attempt α σ) : Prop :=
  ∃ pipelineId expected actual, attempt.answer = .error (.staleObject pipelineId expected actual)

/-- Each attempt is a call of the operation with its number and the state that the one before
it has left. -/
def CallsInTurn (operation : Nat → σ → Program (Except StoreError α × σ)) :
    σ → List (Attempt α σ) → Prop
  | _, [] => True
  | state, attempt :: rest =>
      (operation attempt.number state).Yields attempt.exchanges (attempt.answer, attempt.state) ∧
        CallsInTurn operation attempt.state rest

/-- The warning that tells of the conflict of an attempt. -/
def warningOf (lock : OptimisticLock) (attempt : Attempt α σ) : List Exchange :=
  match attempt.answer with
  | .ok _ => []
  | .error error => [⟨.log ⟨.warn, false, lock.conflictMessage error attempt.number⟩, ()⟩]

/-- What the log says of a value that came with the attempt of this number. -/
def releaseMessage (lock : OptimisticLock) (number : Nat) : String :=
  "Optimistic lock '" ++ lock.name ++ s!"' released after {number - 1} retries in 0.000s"

/-- The line that tells of a value that came after a conflict. -/
def releaseOf (lock : OptimisticLock) (attempt : Attempt α σ) : List Exchange :=
  match attempt.answer with
  | .ok _ =>
      if attempt.number > 1 then
        [⟨.log ⟨.info, false, lock.releaseMessage attempt.number⟩, ()⟩]
      else []
  | .error _ => []

/-- What comes of the last attempt. -/
def conclusion (lock : OptimisticLock) (attempt : Attempt α σ) :
    Except UpkeepError (α × Nat) :=
  match attempt.answer with
  | .ok value => .ok (value, attempt.number)
  | .error (.staleObject _ _ _) => .error (.lockRetriesExhausted lock.name attempt.number)
  | .error error => .error (.store error)

/-- The attempts of a loop that begins with number `first` and this state.  Those in `failed`
are followed by another one. -/
structure IsHistory (lock : OptimisticLock)
    (operation : Nat → σ → Program (Except StoreError α × σ)) (first : Nat) (state : σ)
    (failed : List (Attempt α σ)) (last : Attempt α σ) : Prop where
  numbers : (failed ++ [last]).map (·.number) = List.range' first (failed.length + 1)
  calls : CallsInTurn operation state (failed ++ [last])
  conflicts : ∀ attempt ∈ failed, attempt.IsConflict
  within : last.number ≤ max 1 lock.maxAttempts
  ends : last.IsConflict → last.number = max 1 lock.maxAttempts

/-- What a loop exchanges in the course of these attempts. -/
def exchangesOf (lock : OptimisticLock) (failed : List (Attempt α σ)) (last : Attempt α σ) :
    List Exchange :=
  failed.flatMap (fun attempt => attempt.exchanges ++ lock.warningOf attempt ++
    [⟨.sleep (lock.backoffFor attempt.number), ()⟩]) ++ last.exchanges ++ lock.releaseOf last

variable {lock : OptimisticLock} {operation : Nat → σ → Program (Except StoreError α × σ)}

theorem IsHistory.number_last {first : Nat} {state : σ} {failed : List (Attempt α σ)}
    {last : Attempt α σ} (h : lock.IsHistory operation first state failed last) :
    last.number = first + failed.length := by
  have hNumbers := h.numbers
  rw [List.map_append, List.range'_concat, List.map_singleton] at hNumbers
  have hLast := (List.append_inj' hNumbers rfl).2
  rw [List.singleton_inj] at hLast
  rw [hLast, Nat.one_mul]

/-- A loop of one attempt. -/
theorem isHistory_nil {first : Nat} {state : σ} {last : Attempt α σ} :
    lock.IsHistory operation first state [] last ↔
      last.number = first ∧
        (operation first state).Yields last.exchanges (last.answer, last.state) ∧
        first ≤ max 1 lock.maxAttempts ∧ (last.IsConflict → first = max 1 lock.maxAttempts) := by
  constructor
  · intro h
    have hNumber : last.number = first := h.number_last
    exact ⟨hNumber, hNumber ▸ h.calls.1, hNumber ▸ h.within, hNumber ▸ h.ends⟩
  · rintro ⟨rfl, hCall, hWithin, hEnds⟩
    exact ⟨rfl, ⟨hCall, trivial⟩, fun _ hNone => absurd hNone List.not_mem_nil, hWithin, hEnds⟩

/-- A loop that goes on after its first attempt. -/
theorem isHistory_cons {first : Nat} {state : σ} {attempt last : Attempt α σ}
    {failed : List (Attempt α σ)} :
    lock.IsHistory operation first state (attempt :: failed) last ↔
      attempt.number = first ∧
        (operation first state).Yields attempt.exchanges (attempt.answer, attempt.state) ∧
        attempt.IsConflict ∧ lock.IsHistory operation (first + 1) attempt.state failed last := by
  constructor
  · intro h
    have hNumbers := h.numbers
    rw [List.cons_append, List.map_cons, List.length_cons, List.range'_succ,
      List.cons.injEq] at hNumbers
    obtain ⟨rfl, hRest⟩ := hNumbers
    obtain ⟨hCall, hCalls⟩ := h.calls
    have hConflicts := List.forall_mem_cons.mp h.conflicts
    exact ⟨rfl, hCall, hConflicts.1, hRest, hCalls, hConflicts.2, h.within, h.ends⟩
  · rintro ⟨rfl, hCall, hConflict, h⟩
    refine ⟨?_, ⟨hCall, h.calls⟩, List.forall_mem_cons.mpr ⟨hConflict, h.conflicts⟩, h.within,
      h.ends⟩
    rw [List.cons_append, List.map_cons, h.numbers]
    exact List.range'_succ.symm

/-- What a loop does after an attempt. -/
def afterAttempt (lock : OptimisticLock)
    (operation : Nat → σ → Program (Except StoreError α × σ)) (remaining : Nat)
    (attempt : Attempt α σ) : Program (Except UpkeepError (α × Nat) × σ) :=
  match attempt.answer with
  | .ok value => do
      if attempt.number > 1 then
        Program.info (lock.releaseMessage attempt.number)
      return (.ok (value, attempt.number), attempt.state)
  | .error error =>
      if error.isConflict then
        match remaining with
        | 0 => return (.error (.lockRetriesExhausted lock.name attempt.number), attempt.state)
        | remaining + 1 => do
            Program.warn (lock.conflictMessage error attempt.number)
            Program.sleep (lock.backoffFor attempt.number)
            retryFrom lock operation remaining (attempt.number + 1) attempt.state
      else return (.error (.store error), attempt.state)

theorem retryFrom_eq (remaining first : Nat) (state : σ) :
    lock.retryFrom operation remaining first state =
      operation first state >>= fun reply =>
        lock.afterAttempt operation remaining ⟨first, [], reply.1, reply.2⟩ := by
  rw [retryFrom.eq_def]
  rfl

/-- A loop ends after an attempt, or it pauses and goes on. -/
theorem yields_afterAttempt_iff {remaining : Nat} {attempt : Attempt α σ}
    {made : List Exchange} {ending : Except UpkeepError (α × Nat) × σ} :
    (lock.afterAttempt operation remaining attempt).Yields made ending ↔
      ((attempt.IsConflict → remaining = 0) ∧ made = lock.releaseOf attempt ∧
        ending = (lock.conclusion attempt, attempt.state)) ∨
      ∃ fewer later, attempt.IsConflict ∧ remaining = fewer + 1 ∧
        made = lock.warningOf attempt ++
          ⟨.sleep (lock.backoffFor attempt.number), ()⟩ :: later ∧
        (lock.retryFrom operation fewer (attempt.number + 1) attempt.state).Yields later
          ending := by
  obtain ⟨number, own, answer, held⟩ := attempt
  unfold afterAttempt Attempt.IsConflict releaseOf conclusion warningOf
  cases answer with
  | ok value =>
      by_cases hLate : number > 1
      · simp [hLate, Program.info, Program.yields_writeLog_bind_iff, Program.yields_pure_iff]
      · simp [hLate, Program.yields_pure_iff]
  | error error =>
      cases error with
      | staleObject pipelineId expected actual =>
          cases remaining with
          | zero => simp [StoreError.isConflict, Program.yields_pure_iff]
          | succ remaining =>
              simp [StoreError.isConflict, Program.warn, Program.yields_writeLog_bind_iff,
                Program.yields_sleep_bind_iff]
      | notFound entity id | poisoned => simp [StoreError.isConflict, Program.yields_pure_iff]

theorem exchangesOf_cons (attempt last : Attempt α σ) (failed : List (Attempt α σ)) :
    lock.exchangesOf (attempt :: failed) last =
      attempt.exchanges ++ (lock.warningOf attempt ++
        ⟨.sleep (lock.backoffFor attempt.number), ()⟩ :: lock.exchangesOf failed last) := by
  simp [exchangesOf]

/-- A loop that may make `remaining` attempts after its first one is told by its attempts. -/
theorem exists_isHistory_of_yields {remaining first : Nat} {state : σ} {made : List Exchange}
    {ending : Except UpkeepError (α × Nat) × σ}
    (hLimit : first + remaining = max 1 lock.maxAttempts)
    (h : (lock.retryFrom operation remaining first state).Yields made ending) :
    ∃ failed last, lock.IsHistory operation first state failed last ∧
      made = lock.exchangesOf failed last ∧ ending = (lock.conclusion last, last.state) := by
  induction remaining generalizing first state made with
  | zero =>
      rw [retryFrom_eq, Program.yields_bind_iff] at h
      obtain ⟨own, ⟨answer, held⟩, later, rfl, hOwn, hLater⟩ := h
      rcases yields_afterAttempt_iff.mp hLater with ⟨-, rfl, rfl⟩ | ⟨_, _, _, hFewer, _⟩
      · exact ⟨[], ⟨first, own, answer, held⟩,
          isHistory_nil.mpr ⟨rfl, hOwn, by omega, fun _ => hLimit⟩, rfl, rfl⟩
      · exact absurd hFewer (Nat.succ_ne_zero _).symm
  | succ remaining ih =>
      rw [retryFrom_eq, Program.yields_bind_iff] at h
      obtain ⟨own, ⟨answer, held⟩, later, rfl, hOwn, hLater⟩ := h
      rcases yields_afterAttempt_iff.mp hLater with ⟨hEnd, rfl, rfl⟩ |
        ⟨fewer, rest, hConflict, hFewer, rfl, hRest⟩
      · refine ⟨[], ⟨first, own, answer, held⟩,
          isHistory_nil.mpr ⟨rfl, hOwn, by omega, fun hConflict => ?_⟩, rfl, rfl⟩
        exact absurd (hEnd hConflict) (Nat.succ_ne_zero _)
      · obtain rfl := Nat.succ.inj hFewer
        have hNext : first + 1 + remaining = max 1 lock.maxAttempts := by omega
        obtain ⟨failed, last, hHistory, rfl, rfl⟩ := ih hNext hRest
        refine ⟨⟨first, own, answer, held⟩ :: failed, last,
          isHistory_cons.mpr ⟨rfl, hOwn, hConflict, hHistory⟩, ?_, rfl⟩
        rw [exchangesOf_cons]
        rfl

/-- Attempts that follow the law are those of a loop. -/
theorem IsHistory.yields {remaining first : Nat} {state : σ} {failed : List (Attempt α σ)}
    {last : Attempt α σ} (hLimit : first + remaining = max 1 lock.maxAttempts)
    (h : lock.IsHistory operation first state failed last) :
    (lock.retryFrom operation remaining first state).Yields (lock.exchangesOf failed last)
      (lock.conclusion last, last.state) := by
  induction failed generalizing remaining first state with
  | nil =>
      obtain ⟨rfl, hCall, -, hEnds⟩ := isHistory_nil.mp h
      rw [retryFrom_eq, Program.yields_bind_iff]
      refine ⟨_, _, _, rfl, hCall,
        yields_afterAttempt_iff.mpr (Or.inl ⟨fun hConflict => ?_, rfl, rfl⟩)⟩
      have hNumber := hEnds hConflict
      omega
  | cons attempt failed ih =>
      obtain ⟨rfl, hCall, hConflict, hRest⟩ := isHistory_cons.mp h
      have hMore : attempt.number + 1 + failed.length ≤ max 1 lock.maxAttempts :=
        hRest.number_last ▸ hRest.within
      obtain ⟨fewer, rfl⟩ : ∃ fewer, remaining = fewer + 1 := ⟨remaining - 1, by omega⟩
      have hNext : attempt.number + 1 + fewer = max 1 lock.maxAttempts := by omega
      rw [retryFrom_eq, Program.yields_bind_iff, exchangesOf_cons]
      exact ⟨_, _, _, rfl, hCall,
        yields_afterAttempt_iff.mpr (Or.inr ⟨fewer, _, hConflict, rfl, rfl, ih hNext hRest⟩)⟩

/-! ## Faults -/

theorem isFaultless_afterAttempt {remaining : Nat} (attempt : Attempt α σ)
    (h : ∀ fewer, remaining = fewer + 1 → ∀ first state,
      (lock.retryFrom operation fewer first state).IsFaultless) :
    (lock.afterAttempt operation remaining attempt).IsFaultless := by
  have hReturn (ending : Except UpkeepError (α × Nat) × σ) :
      (pure ending : Program _).IsFaultless := Program.isFaultless_done ending
  unfold afterAttempt
  split
  · split
    · exact (Program.isFaultless_ask _).bind fun _ => hReturn _
    · exact hReturn _
  · split
    · split
      · exact hReturn _
      · exact (Program.isFaultless_ask _).bind fun _ =>
          (Program.isFaultless_ask _).bind fun _ => h _ rfl _ _
    · exact hReturn _

theorem isFaultless_retryFrom (h : ∀ number held, (operation number held).IsFaultless)
    (remaining first : Nat) (state : σ) :
    (lock.retryFrom operation remaining first state).IsFaultless := by
  induction remaining generalizing first state with
  | zero =>
      rw [retryFrom_eq]
      exact (h first state).bind fun _ =>
        isFaultless_afterAttempt _ fun _ hFewer => absurd hFewer (Nat.succ_ne_zero _).symm
  | succ remaining ih =>
      rw [retryFrom_eq]
      refine (h first state).bind fun _ => isFaultless_afterAttempt _ fun fewer hFewer => ?_
      obtain rfl := Nat.succ.inj hFewer
      exact ih

/-- The law of optimistic retry.  A loop may end with a value after some exchanges exactly if
its attempts say so; and it does end with a value if no attempt ends in a fault, however the
requests of the attempts are answered. -/
theorem retry_stops_at_first_other_answer (lock : OptimisticLock)
    (operation : Nat → σ → Program (Except StoreError α × σ)) (state : σ) :
    (∀ made result final, (lock.retry operation state).Yields made (result, final) ↔
      ∃ failed last, lock.IsHistory operation 1 state failed last ∧
        made = lock.exchangesOf failed last ∧ result = lock.conclusion last ∧
        final = last.state) ∧
    ((∀ number held, (operation number held).IsFaultless) →
      ∀ (τ : Type) (answer : (asked : Request) → τ → asked.Answer × τ) (surroundings : τ),
        ∃ made result final,
          ((lock.retry operation state).runWith answer surroundings).1 = .ok (result, final) ∧
          (lock.retry operation state).Yields made (result, final)) := by
  have hLimit : 1 + (lock.attemptLimit - 1) = max 1 lock.maxAttempts := by
    unfold attemptLimit
    omega
  refine ⟨fun made result final => ⟨fun h => ?_, ?_⟩, fun h τ answer surroundings => ?_⟩
  · obtain ⟨failed, last, hHistory, hMade, hEnding⟩ := exists_isHistory_of_yields hLimit h
    obtain ⟨rfl, rfl⟩ := Prod.mk.inj hEnding
    exact ⟨failed, last, hHistory, hMade, rfl, rfl⟩
  · rintro ⟨failed, last, hHistory, rfl, rfl, rfl⟩
    exact hHistory.yields hLimit
  · obtain ⟨made, ⟨result, final⟩, hValue, hYields⟩ :=
      (isFaultless_retryFrom h (lock.attemptLimit - 1) 1 state).runWith_yields answer surroundings
    exact ⟨made, result, final, hValue, hYields⟩

/-- An operation that counts its calls and gives a value from the third one on. -/
def thirdCall (number calls : Nat) : Program (Except StoreError Nat × Nat) :=
  if calls < 2 then pure (.error (.staleObject 7 calls (calls + 1)), calls + 1)
  else pure (.ok number, calls + 1)

def fiveAttempts : OptimisticLock := ⟨"demo", 5, Time.Span.ofMilliseconds 10⟩

/-- A lock of five attempts lets the third call of that operation come, after pauses of ten and
twenty milliseconds. -/
theorem retry_stops_at_first_other_answer_thirdCall :
    (fiveAttempts.retry thirdCall 0).Yields
      [⟨.log ⟨.warn, false, fiveAttempts.conflictMessage (.staleObject 7 0 1) 1⟩, ()⟩,
        ⟨.sleep (Time.Span.ofMilliseconds 10), ()⟩,
        ⟨.log ⟨.warn, false, fiveAttempts.conflictMessage (.staleObject 7 1 2) 2⟩, ()⟩,
        ⟨.sleep (Time.Span.ofMilliseconds 20), ()⟩,
        ⟨.log ⟨.info, false, "Optimistic lock 'demo' released after 2 retries in 0.000s"⟩, ()⟩]
      (.ok (3, 3), 3) ∧
    ∃ made result final,
      ((fiveAttempts.retry thirdCall 0).runWith (fun asked world => world.answer asked)
        (World.start default ⟨0, 0⟩)).1 = .ok (result, final) ∧
      (fiveAttempts.retry thirdCall 0).Yields made (result, final) := by
  have hFaultless (number calls : Nat) : (thirdCall number calls).IsFaultless := by
    unfold thirdCall
    split
    · exact Program.isFaultless_done _
    · exact Program.isFaultless_done _
  have hHistory : fiveAttempts.IsHistory thirdCall 1 0
      [⟨1, [], .error (.staleObject 7 0 1), 1⟩, ⟨2, [], .error (.staleObject 7 1 2), 2⟩]
      ⟨3, [], .ok 3, 3⟩ := by
    refine ⟨rfl, ⟨.start, .start, .start, trivial⟩, ?_, by decide, ?_⟩
    · simp [Attempt.IsConflict]
    · simp [Attempt.IsConflict]
  obtain ⟨hYields, hReturns⟩ := retry_stops_at_first_other_answer fiveAttempts thirdCall 0
  exact ⟨(hYields _ _ _).mpr ⟨_, _, hHistory, rfl, rfl, rfl⟩, hReturns hFaultless _ _ _⟩

end OptimisticLock

end PipelineUpkeep
