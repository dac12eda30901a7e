import PipelineUpkeep.Proofs.ConcurrentRuns
/-!
# Programs over an unreliable store

One program works on a store that others write as well.  Hardly anything is known of these
others: between two requests they may add and change rows as they like, as long as what has
settled stays settled.  Any store call of the program may fail instead of being performed;
a call that fails leaves the store alone.  Clocks and audit trails answer as they like.

`Unfolds` lists how far a program may come that way.  `Program.Ensures` judges the program
alone, request by request, and `Unfolds.ensures` carries its judgement to every such run.
-/

namespace PipelineUpkeep

open Time

namespace Store

/-- Under the identifier a pipeline is stored that may not be canceled any more. -/
def IsSettled (store : Store) (id : Nat) : Prop :=
  ∃ row ∈ store.pipelines.rows, row.id = id ∧ row.status.isCancelable = false

/-- No pipeline goes back to a status in which it may be canceled. -/
def KeepsSettled (before after : Store) : Prop :=
  ∀ id, before.IsSettled id → after.IsSettled id

theorem KeepsSettled.refl (store : Store) : store.KeepsSettled store := fun _ h => h

theorem KeepsSettled.trans {before middle after : Store} (h : before.KeepsSettled middle)
    (hLater : middle.KeepsSettled after) : before.KeepsSettled after :=
  fun id hId => hLater id (h id hId)

/-- A settled pipeline has no row that may be canceled. -/
theorem IsSettled.not_isCancelable {store : Store} {row : Pipeline}
    (h : store.IsSettled row.id) (hRow : row ∈ store.pipelines.rows) :
    row.status.isCancelable = false := by
  obtain ⟨settled, hSettled, hId, hStatus⟩ := h
  rw [← store.pipelines.eq_of_key_eq hSettled hRow hId]
  exact hStatus

theorem Evolves.keepsSettled {before after : Store} (h : before.Evolves after) :
    before.KeepsSettled after := by
  rintro id ⟨row, hRow, hId, hStatus⟩
  obtain ⟨later, hLater, hBecomes⟩ := h.pipelines row hRow
  have hSame : later = row := CanceledAtMost.eq_of_not_isCancelable hBecomes hStatus
  rw [hSame] at hLater
  exact ⟨row, hLater, hId, hStatus⟩

end Store

/-- The request is a store call that fails and has no effect. -/
def Request.Fails : (asked : Request) → Store → asked.Answer → Store → Prop
  | .store _ _, before, answer, after => (∃ error, answer = .error error) ∧ after = before
  | _, _, _, _ => False

/-- The request ends this way over an unreliable store. -/
def Request.Ends (asked : Request) (before : Store) (answer : asked.Answer) (after : Store) :
    Prop :=
  asked.Occurs before answer after ∨ asked.Fails before answer after

theorem Request.Fails.eq {asked : Request} {before after : Store} {answer : asked.Answer}
    (h : asked.Fails before answer after) : after = before := by
  cases asked with
  | store access call => exact h.2
  | _ => exact h.elim

theorem Request.Ends.keepsSettled {asked : Request} {before after : Store}
    {answer : asked.Answer} (h : asked.Ends before answer after) : before.KeepsSettled after := by
  rcases h with hOccurs | hFails
  · exact hOccurs.evolves.keepsSettled
  · rw [hFails.eq]
    exact .refl before

/-- A pipeline that a call without cascade cancels could be canceled, and has settled. -/
theorem Request.Ends.settles {access : Access} {row : Pipeline} {canceledById : Nat}
    {before after : Store}
    (h : Request.Ends (.store access (.cancelRunning row ⟨canceledById, false⟩)) before
      (.ok .canceled) after) :
    ¬ before.IsSettled row.id ∧ after.IsSettled row.id := by
  have hOccurs : before.cancelRunning row ⟨canceledById, false⟩ = (.ok .canceled, after) := by
    rcases h with hOccurs | ⟨⟨error, hError⟩, -⟩
    · exact hOccurs
    · cases hError
  rcases before.cancelRunning_cases row canceledById with ⟨hOther, -⟩ | hCancels
  · exact absurd (congrArg Prod.fst hOccurs) hOther
  · obtain ⟨current, hCurrent, hId, hStatus, -, hResult⟩ := hCancels
    obtain rfl : before.cancelRows [current.id] canceledById = after :=
      congrArg Prod.snd (hResult.symm.trans hOccurs)
    have hLater : current.afterCancel canceledById ∈
        (before.cancelRows [current.id] canceledById).pipelines.rows :=
      Store.afterCancel_mem_cancelRows hCurrent (List.mem_singleton_self _) hStatus
    refine ⟨fun hSettled => ?_, _, hLater, hId, rfl⟩
    rw [← hId] at hSettled
    rw [hSettled.not_isCancelable hCurrent] at hStatus
    cases hStatus

variable {α : Type}

/-- Over a store, some of a program's requests have been answered, the others have written,
and this store and this rest of the program are left. -/
inductive Unfolds (store : Store) (program : Program α) :
    List Exchange → Store → Program α → Prop where
  | start : Unfolds store program [] store program
  | ask {past : List Exchange} {held after : Store} {asked : Request}
      {resume : asked.Answer → Program α} {answer : asked.Answer}
      (hPast : Unfolds store program past held (.request asked resume))
      (hEnds : asked.Ends held answer after) :
      Unfolds store program (past ++ [⟨asked, answer⟩]) after (resume answer)
  | write {past : List Exchange} {held after : Store} {rest : Program α}
      (hPast : Unfolds store program past held rest) (hWrite : held.KeepsSettled after) :
      Unfolds store program past after rest

/-- Anything may be requested and may fail, and others write as far as what has settled stays
settled. -/
abbrev Contract.unreliable : Contract where
  others := Store.KeepsSettled
  refl := Store.KeepsSettled.refl
  trans := Store.KeepsSettled.trans
  ends := Request.Ends
  permits _ _ _ := True
  mayFault _ := True

namespace Program

/-- From these exchanges and this store on, `post` holds once the program is done, however
its requests end and whatever the others write. -/
abbrev Ensures (post : List Exchange → α → Store → Prop) (program : Program α)
    (past : List Exchange) (store : Store) : Prop :=
  program.Fulfills .unreliable post past store

theorem ensures_ask {past : List Exchange} {store : Store} (asked : Request) :
    (ask asked).Ensures
      (fun later answer held => later = past ++ [⟨asked, answer⟩] ∧
        ∃ before after, store.KeepsSettled before ∧ asked.Ends before answer after ∧
          after.KeepsSettled held) past store :=
  fulfills_ask asked fun _ _ => trivial

end Program

/-- What a program ensures from the start it ensures wherever it has come. -/
theorem Unfolds.ensures {post : List Exchange → α → Store → Prop} {start held : Store}
    {program rest : Program α} {past : List Exchange} (h : Unfolds start program past held rest)
    (hStart : program.Ensures post [] start) : rest.Ensures post past held := by
  induction h with
  | start => exact hStart
  | ask _ hEnds ih => exact (ih _ (.refl _)).2 _ _ hEnds
  | write _ hWrite ih => exact ih.after hWrite

/-! ## Runs that can be computed -/

/-- Answer some requests; before each the others write, by the number of requests that were
answered before. -/
def Program.playAmong (clock : Timestamp) (others : Nat → Store → Store) :
    Nat → List Exchange → Store → Program α → List Exchange × Store × Program α
  | turns + 1, past, held, .request asked resume =>
      let (answer, after) := asked.serve clock (others past.length held)
      playAmong clock others turns (past ++ [⟨asked, answer⟩]) after (resume answer)
  | _, past, held, rest => (past, held, rest)

/-- The value of a program that is done. -/
def Program.value? : Program α → Option α
  | .done value => some value
  | .crash _ => none
  | .request _ _ => none

theorem Program.eq_done_of_value? {program : Program α} {value : α}
    (h : program.value? = some value) : program = .done value := by
  cases program with
  | done other => rw [Option.some.inj h]
  | crash fault => cases h
  | request asked resume => cases h

theorem unfolds_playAmong {store : Store} {program : Program α} (clock : Timestamp)
    {others : Nat → Store → Store}
    (hOthers : ∀ turn (held : Store), held.KeepsSettled (others turn held))
    (turns : Nat) {past : List Exchange} {held : Store} {rest : Program α}
    (h : Unfolds store program past held rest) :
    Unfolds store program (rest.playAmong clock others turns past held).1
      (rest.playAmong clock others turns past held).2.1
      (rest.playAmong clock others turns past held).2.2 := by
  induction turns generalizing past held rest with
  | zero => exact h
  | succ turns ih =>
      cases rest with
      | done value => exact h
      | crash fault => exact h
      | request asked resume =>
          have hServed := asked.occurs_serve clock (others past.length held)
          exact ih (.ask (.write h (hOthers _ held)) (Or.inl hServed))

end PipelineUpkeep
