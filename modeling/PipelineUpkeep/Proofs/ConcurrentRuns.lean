import PipelineUpkeep.Proofs.CancellationDiscipline
import PipelineUpkeep.Proofs.StoreEvolution
/-!
# Cancellation runs over one store

Any number of runs share a store with anyone who calls it.  Nothing that happens there
blocks a pipeline that is stored: builds are added to new pipelines only, and a build
never leaves a status in which it does not block.  So what a run has read about a row
still holds when the run cancels it, and the call never fails.
-/

namespace PipelineUpkeep

/-- A run and what it runs with. -/
structure CancellationRun where
  rules : PolicyRules
  settings : CancellationSettings
  /-- The pipeline on whose behalf others are canceled, as it was read. -/
  initiator : Pipeline

/-- The runs before anyone has made a request. -/
def CancellationRun.system {κ : Type} (store : Store) (runs : κ → CancellationRun) :
    System fun _ : κ => Except UpkeepError CancellationReport where
  store := store
  rest client := cancelRedundant (runs client).rules (runs client).settings (runs client).initiator

/-- A store that is written by its own calls only.  A row that was read may be canceled
if it is stored, as it was or canceled since, and no build blocks it. -/
def sharedScope : RunScope where
  others := Store.Evolves
  refl := Store.Evolves.refl
  trans := Store.Evolves.trans
  admits store row := (∃ stored ∈ store.pipelines.rows, row.Becomes stored) ∧
    store.isBlocked row.id = false
  admits_later := by
    rintro before after row hEvolves ⟨⟨stored, hStored, hBecomes⟩, hFree⟩
    obtain ⟨later, hLater, hNext⟩ := hEvolves.pipelines stored hStored
    rw [← hBecomes.id_eq] at hFree ⊢
    exact ⟨⟨later, hLater, hBecomes.trans hNext⟩, hEvolves.isBlocked_eq_false hStored hFree⟩
  fails _ := False
  fails_of_admits := by
    rintro store row request error ⟨⟨stored, hStored, hBecomes⟩, -⟩ hError
    have hFound : store.pipelines.find? row.id = some stored :=
      (store.pipelines.find?_eq_some_iff _ _).mpr ⟨hStored, hBecomes.id_eq⟩
    rw [Store.cancelRunning, hFound] at hError
    -- As it was read, the row has its version; once canceled, the version does not count.
    rcases hBecomes with rfl | ⟨-, canceledById, rfl⟩
    · cases hStatus : stored.status.isCancelable <;> simp [hStatus] at hError
    · simp [Pipeline.afterCancel] at hError
  cancels store row request := Store.evolves_perform (.cancelRunning row request) store

theorem finds_sharedScope (candidates : Query) : sharedScope.Finds candidates :=
  fun _ _ hStored _ hFree => ⟨⟨_, hStored, .refl _⟩, hFree⟩

/-- Every request leaves the store alone or is one call of it. -/
theorem Request.Occurs.eq_or_calls {asked : Request} {before after : Store}
    {answer : asked.Answer} (h : asked.Occurs before answer after) :
    after = before ∨ before.Calls after := by
  match asked, answer, h with
  | .store _ call, _, h => exact Or.inr ⟨call, (congrArg Prod.snd h).symm⟩
  | .clock, _, h | .log _, _, h | .audit _, _, h | .sleep _, _, h | .countFailure, _, h
  | .track _ _, _, h | .creation _, _, h => exact Or.inl h

theorem Request.Occurs.evolves {asked : Request} {before after : Store} {answer : asked.Answer}
    (h : asked.Occurs before answer after) : before.Evolves after := by
  rcases h.eq_or_calls with rfl | hCalls
  · exact .refl after
  · exact hCalls.evolves

/-- Among callers of one store, every request of a client that keeps to its contract was
permitted, if the contract puts up with any call in between and with all that may occur. -/
theorem Interleaved.permits_among_calls {ι : Type} [DecidableEq ι] {α : ι → Type}
    {start final : System α} {earlier later : List (Moment ι)} {moment : Moment ι}
    {contract : Contract} {post : List Exchange → α moment.client → Store → Prop}
    (h : Interleaved Store.Calls start (earlier ++ moment :: later) final)
    (hStart : (start.rest moment.client).Fulfills contract post [] start.store)
    (hCalls : ∀ before after, before.Calls after → contract.others before after)
    (hEnds : ∀ (asked : Request) before answer after, asked.Occurs before answer after →
      contract.ends asked before answer after) :
    contract.permits (ownExchanges moment.client earlier) moment.before moment.exchange.asked := by
  have hOccurs (other : Moment ι) (hOther : other ∈ earlier) :=
    h.occurs other (List.mem_append_left _ hOther)
  refine h.permits rfl hStart hCalls (fun other hOther _ => ?_)
    fun other hOther _ => hEnds _ _ _ _ (hOccurs other hOther)
  rcases (hOccurs other hOther).eq_or_calls with hSame | hCall
  · rw [hSame]
    exact contract.refl _
  · exact hCalls _ _ hCall

theorem Request.Occurs.mem_pipelines {asked : Request} {answer : asked.Answer}
    {before after : Store} (h : asked.Occurs before answer after)
    (hOther : ∀ access row request, asked ≠ .store access (.cancelRunning row request))
    {row : Pipeline} (hRow : row ∈ before.pipelines.rows) : row ∈ after.pipelines.rows := by
  cases asked with
  | store access call =>
      have hAfter : (call.perform before).2 = after := congrArg Prod.snd h
      rw [← hAfter]
      refine Store.mem_pipelines_perform (fun other request hCall => ?_) hRow
      exact hOther access other request (congrArg (Request.store access) hCall)
  | _ =>
      obtain rfl : after = before := h
      exact hRow

section Histories

variable {κ : Type} [DecidableEq κ] {runs : κ → CancellationRun} {store : Store}
  {history : List (Moment κ)}
  {final : System fun _ : κ => Except UpkeepError CancellationReport}

theorem cancelRedundant_follows_sharedScope (run : CancellationRun) (store : Store) :
    (cancelRedundant run.rules run.settings run.initiator).Follows
      (sharedScope.discipline run.initiator)
      (fun later result _ => sharedScope.Concludes later result) [] store :=
  cancelRedundant_follows fun _ _ _ => finds_sharedScope _

theorem Interleaved.evolves_moments
    (h : Interleaved Store.Calls (CancellationRun.system store runs) history final) :
    ∀ moment ∈ history, moment.before.Evolves moment.after :=
  fun moment hMoment => (h.occurs moment hMoment).evolves

/-- Every request of a run was permitted. -/
theorem Interleaved.run_permits
    (h : Interleaved Store.Calls (CancellationRun.system store runs) history final)
    {earlier later : List (Moment κ)} {moment : Moment κ}
    (hSplit : history = earlier ++ moment :: later) :
    sharedScope.permits (runs moment.client).initiator (ownExchanges moment.client earlier)
      moment.before moment.exchange.asked := by
  subst hSplit
  exact h.permits_among_calls (cancelRedundant_follows_sharedScope (runs moment.client) store)
    (fun _ _ hCall => hCall.evolves) (fun _ _ _ _ => id)

/-- A moment of a run leaves the store alone, or cancels one stored pipeline that no
build blocks, on behalf of the initiator of the run. -/
theorem Interleaved.run_cases
    (h : Interleaved Store.Calls (CancellationRun.system store runs) history final)
    {moment : Moment κ} (hMoment : moment ∈ history) :
    (moment.after = moment.before ∧ moment.exchange.canceledId? = none) ∨
      ∃ current ∈ moment.before.pipelines.rows, current.status.isCancelable = true ∧
        moment.before.isBlocked current.id = false ∧
        moment.exchange.canceledId? = some current.id ∧
        moment.after =
          moment.before.cancelRows [current.id] (runs moment.client).initiator.id := by
  have hOccurs := h.occurs moment hMoment
  obtain ⟨earlier, later, hSplit⟩ := List.append_of_mem hMoment
  rcases sharedScope.occurs_cases (h.run_permits hSplit) hOccurs with hSame | hCancels
  · exact Or.inl hSame
  · obtain ⟨current, hCurrent, row, ⟨-, hFree⟩, hId, hStatus, -, hCanceled, hAfter⟩ := hCancels
    rw [hId] at hFree
    exact Or.inr ⟨current, hCurrent, hStatus, hFree, hCanceled, hAfter⟩

/-- A run that has ended has followed its discipline to the end. -/
theorem Interleaved.run_concludes
    (h : Interleaved Store.Calls (CancellationRun.system store runs) history final)
    (client : κ) :
    (final.rest client).Follows (sharedScope.discipline (runs client).initiator)
      (fun later result _ => sharedScope.Concludes later result) (ownExchanges client history)
      final.store :=
  h.follows (cancelRedundant_follows_sharedScope (runs client) store)
    (fun _ _ hCall => hCall.evolves) (fun moment hMoment _ => h.evolves_moments moment hMoment)

end Histories

end PipelineUpkeep
