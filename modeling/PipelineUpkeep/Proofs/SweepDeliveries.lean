import PipelineUpkeep.Proofs.CreationTrace
import PipelineUpkeep.Proofs.SharedContracts
import PipelineUpkeep.Proofs.SweepClaims
/-!
# The deliveries of a sweep

The deliveries of a sweep run side by side, in any order of their requests.  A delivery whose
caller has advanced the next run writes schedules only to note a pipeline on its own row.  So
none of them gets in the way of another one: each comes to its own outcome, the rows of all
other schedules stay as they are, and a pipeline that an outcome names is the one that the
row of its schedule remembers.
-/

namespace PipelineUpkeep

open Time

/-! ## Requests that write schedules -/

namespace Request

/-- The request does not write schedules. -/
def sparesSchedules : Request → Bool
  | .store _ (.advanceNextRun ..) | .store _ (.recordLastPipeline ..) => false
  | _ => true

/-- If the request writes schedules, it notes a pipeline on this one. -/
def WritesOnly (id : Nat) (asked : Request) : Prop :=
  asked.sparesSchedules = true ∨
    ∃ access pipelineId, asked = .store access (.recordLastPipeline id pipelineId)

theorem sparesSchedules_of_isEngineWork {asked : Request} (h : asked.isEngineWork = true) :
    asked.sparesSchedules = true := by
  unfold isEngineWork at h
  split at h
  all_goals first | rfl | cases h

variable {asked : Request} {answer : asked.Answer} {before after : Store}

theorem Occurs.schedules_eq (h : asked.Occurs before answer after)
    (hSpares : asked.sparesSchedules = true) : after.schedules = before.schedules := by
  cases asked with
  | store access call =>
      obtain rfl : (call.perform before).2 = after := congrArg Prod.snd h
      cases call with
      | cancelRunning row request => exact before.schedules_cancelRunning row request
      | advanceNextRun | recordLastPipeline => cases hSpares
      | _ => rfl
  | _ =>
      exact congrArg Store.schedules h

theorem Occurs.schedules_cases {id : Nat} (h : asked.Occurs before answer after)
    (hWrites : asked.WritesOnly id) :
    after.schedules = before.schedules ∨
      ∃ pipelineId, after.schedules = (before.withLastPipeline id pipelineId).schedules := by
  rcases hWrites with hSpares | ⟨access, pipelineId, rfl⟩
  · exact Or.inl (h.schedules_eq hSpares)
  · obtain rfl : (before.recordLastPipeline id pipelineId).2 = after := congrArg Prod.snd h
    cases hRow : before.schedules.find? id with
    | none =>
        rw [Store.recordLastPipeline, hRow]
        exact Or.inl rfl
    | some row =>
        rw [Store.recordLastPipeline_of_find? hRow]
        exact Or.inr ⟨pipelineId, rfl⟩

/-- The rows of all other schedules stay as they are. -/
theorem Occurs.find?_eq_of_ne {id other : Nat} (h : asked.Occurs before answer after)
    (hWrites : asked.WritesOnly id) (hNe : other ≠ id) :
    after.schedules.find? other = before.schedules.find? other := by
  rcases h.schedules_cases hWrites with hSame | ⟨pipelineId, hNoted⟩
  · rw [hSame]
  · rw [hNoted, Store.find?_withLastPipeline]
    simp only [if_neg hNe, Option.map_id']

end Request

/-! ## One delivery among others -/

/-- The share of a delivery: nobody else writes the row of its schedule. -/
def scheduleShare (id : Nat) : Share where
  rely before after := after.schedules.find? id = before.schedules.find? id
  refl _ := rfl
  trans := fun h hLater => hLater.trans h
  allows _ asked := asked.WritesOnly id

/-- The same among such others, but without a write of schedules. -/
def sparingShare (id : Nat) : Share :=
  { scheduleShare id with allows := fun _ asked => asked.sparesSchedules = true }

/-- Among others that leave the schedule alone every call is performed, and the clock stands
still. -/
abbrev scheduleContract (id : Nat) (clock : Timestamp) : Contract :=
  (scheduleShare id).contract (Contract.alone clock).ends False

/-- The schedule remembers the pipeline that the outcome names. -/
def Store.Remembers (store : Store) (id : Nat) (outcome : DeliveryOutcome) : Prop :=
  ∀ pipelineId, outcome = .created pipelineId →
    ∃ row, store.schedules.find? id = some row ∧ row.lastPipelineId = some pipelineId

section Walk

variable {scheduleId : Nat} {clock : Timestamp} {past : List Exchange} {store : Store}

/-- A request that does not write schedules is answered from a store with the same row. -/
theorem ask_scheduleContract {asked : Request} (h : asked.sparesSchedules = true) :
    (Program.ask asked).Fulfills (scheduleContract scheduleId clock)
      (fun _ answer held => held.schedules.find? scheduleId = store.schedules.find? scheduleId ∧
        ∃ before after, before.schedules.find? scheduleId = store.schedules.find? scheduleId ∧
          asked.Occurs before answer after) past store := by
  refine (Program.fulfills_ask asked fun _ _ => Or.inl h).imp ?_
  rintro _ answer held ⟨-, before, after, hBefore, hEnds, hHeld⟩
  refine ⟨?_, before, after, hBefore, hEnds.1⟩
  have hSame := congrArg (Table.find? · scheduleId) (hEnds.1.schedules_eq h)
  exact (hHeld.trans hSame).trans hBefore

theorem writeLog_scheduleContract (level : LogLevel) (message : String) :
    (Program.writeLog level message).Fulfills (scheduleContract scheduleId clock)
      (fun _ _ _ => True) past store :=
  (ask_scheduleContract rfl).imp fun _ _ _ _ => trivial

/-- The row that was loaded is the row that is stored. -/
theorem loadDelivery_scheduleContract (userId : Nat) :
    (loadDelivery scheduleId userId).Fulfills (scheduleContract scheduleId clock)
      (fun _ result held => ∀ row project user, result = .ok (some (row, project, user)) →
        row.id = scheduleId ∧ held.schedules.find? scheduleId = some row) past store := by
  unfold loadDelivery
  refine (ask_scheduleContract rfl).andThen ?_
  rintro _ found held ⟨hHeld, before, after, hBefore, hOccurs⟩
  obtain rfl : found = .ok (before.schedules.find? scheduleId) := (congrArg Prod.fst hOccurs).symm
  cases hRow : before.schedules.find? scheduleId with
  | none => exact Program.fulfills_pure fun _ _ _ _ _ h => nomatch h
  | some row =>
      have hId : row.id = scheduleId :=
        ((before.schedules.find?_eq_some_iff scheduleId row).mp hRow).2
      have hStored : held.schedules.find? scheduleId = some row :=
        (hHeld.trans hBefore.symm).trans hRow
      refine (ask_scheduleContract rfl).andThen ?_
      rintro _ project held ⟨hHeld, -⟩
      replace hStored := hHeld.trans hStored
      match project with
      | .error _ | .ok none => exact Program.fulfills_pure fun _ _ _ _ _ h => nomatch h
      | .ok (some project) =>
          refine (ask_scheduleContract rfl).andThen ?_
          rintro _ user held ⟨hHeld, -⟩
          replace hStored := hHeld.trans hStored
          match user with
          | .error _ | .ok none => exact Program.fulfills_pure fun _ _ _ _ _ h => nomatch h
          | .ok (some user) =>
              refine Program.fulfills_pure fun later hLater => ?_
              rintro _ _ _ ⟨⟩
              exact ⟨hId, hLater.trans hStored⟩

theorem reportFailure_scheduleContract (message : String) :
    (reportFailure scheduleId message).Fulfills (scheduleContract scheduleId clock)
      (fun _ outcome held => held.Remembers scheduleId outcome) past store := by
  unfold reportFailure
  refine (ask_scheduleContract rfl).andThen fun _ _ _ _ => ?_
  refine (writeLog_scheduleContract _ _).andThen fun _ _ _ _ => ?_
  refine (ask_scheduleContract rfl).andThen fun _ _ _ _ => ?_
  exact Program.fulfills_pure fun _ _ _ h => nomatch h

/-- A creation has no dealings with schedules. -/
theorem createForRequest_scheduleContract (rules : PolicyRules) (settings : CancellationSettings)
    (request : CreationRequest) (hWindow : clock.subSeconds? settings.lookback ≠ none) :
    (createForRequest rules settings request).Fulfills (scheduleContract scheduleId clock)
      (fun _ _ held => held.schedules.find? scheduleId = store.schedules.find? scheduleId)
      past store := by
  have hTrace : (createForRequest rules settings request).Fulfills
      (creationTerms (· = clock) settings.lookback) _ [] store :=
    createForRequest_trace rules settings request
  have hEngine := hTrace.asking (createForRequest_engineWork rules settings request)
  -- Among the requests of the engine no row is ever written.
  have hSpares := hEngine.since
    ((sparingShare scheduleId).contract (Contract.alone clock).ends False) past
    (fun _ _ _ => trivial) (fun _ _ _ _ hEnds => hEnds.2)
    (fun _ _ _ hPermits => Request.sparesSchedules_of_isEngineWork hPermits.2)
    (fun _ ⟨_, hClock, hNone⟩ => hWindow (hClock ▸ hNone))
  have hKeeps := hSpares.carry (scheduleShare scheduleId).rely (scheduleShare scheduleId).refl
    (scheduleShare scheduleId).trans (fun _ _ => id)
    (fun _ _ _ _ _ hPermits hEnds =>
      congrArg (Table.find? · scheduleId) (hEnds.1.schedules_eq hPermits))
  have hWithin := hKeeps.mono (scheduleContract scheduleId clock) (fun _ _ => id)
    (fun _ _ _ _ => id) (fun _ _ _ => Or.inl) (fun _ => id)
  rw [List.append_nil] at hWithin
  exact hWithin.imp fun _ _ _ h => h.2

theorem fireSchedule_scheduleContract (context : DeliveryContext) {row : Schedule} (user : User)
    (hId : row.id = scheduleId) (hRow : store.schedules.find? scheduleId = some row)
    (hWindow : clock.subSeconds? context.settings.lookback ≠ none) :
    (fireSchedule context row user).Fulfills (scheduleContract scheduleId clock)
      (fun _ outcome held => held.Remembers scheduleId outcome) past store := by
  subst hId
  unfold fireSchedule
  refine (ask_scheduleContract rfl).andThen ?_
  rintro _ _ held ⟨hHeld, -⟩
  refine (createForRequest_scheduleContract context.rules _ _ hWindow).andThen ?_
  intro _ created held hCreated
  have hStored : held.schedules.find? row.id = some row := (hCreated.trans hHeld).trans hRow
  match created with
  | .error error => exact reportFailure_scheduleContract _
  | .ok response =>
      simp only
      split
      · rename_i pipeline hPipeline
        refine (Program.fulfills_ask (.store .schedules (.recordLastPipeline _ _))
          fun _ _ => Or.inr ⟨_, _, rfl⟩).andThen ?_
        rintro _ result held ⟨-, before, after, hBefore, ⟨hOccurs, -⟩, hHeld⟩
        -- The row is still there, so the pipeline is noted on it.
        have hFound : before.schedules.find? row.id = some row := hBefore.trans hStored
        have hCall : before.recordLastPipeline row.id pipeline.id = (result, after) := hOccurs
        rw [Store.recordLastPipeline_of_find? hFound] at hCall
        obtain ⟨rfl, rfl⟩ := Prod.mk.inj hCall
        refine Program.fulfills_pure fun later hLater => ?_
        rintro _ ⟨⟩
        have hNoted := Store.find?_withLastPipeline_self hFound pipeline.id
        exact ⟨_, (hLater.trans hHeld).trans hNoted, rfl⟩
      · refine (writeLog_scheduleContract _ _).andThen fun _ _ _ _ => ?_
        exact Program.fulfills_pure fun _ _ _ h => nomatch h

/-- Among others that leave its schedule alone, a delivery whose caller has advanced the next
run comes to an outcome, and the schedule remembers the pipeline that it names. -/
theorem deliver_scheduleContract (context : DeliveryContext) (userId : Nat)
    (hWindow : clock.subSeconds? context.settings.lookback ≠ none) :
    (deliver context scheduleId userId true).Fulfills (scheduleContract scheduleId clock)
      (fun _ outcome held => held.Remembers scheduleId outcome) past store := by
  unfold deliver
  refine (loadDelivery_scheduleContract userId).andThen ?_
  intro _ loaded held hLoaded
  match loaded with
  | .error error => exact reportFailure_scheduleContract _
  | .ok none =>
      refine (writeLog_scheduleContract _ _).andThen fun _ _ _ _ => ?_
      exact Program.fulfills_pure fun _ _ _ h => nomatch h
  | .ok (some (row, project, user)) =>
      obtain ⟨hId, hRow⟩ := hLoaded row project user rfl
      simp only [Bool.not_true, Bool.and_false, Bool.false_eq_true, if_false]
      exact fireSchedule_scheduleContract context user hId hRow hWindow

end Walk

/-! ## All of them -/

/-- What each of the deliveries relies on and requests.  Past the last one there is nobody. -/
def deliveryShares (claimed : List Schedule) (i : Nat) : Share :=
  match claimed[i]? with
  | some row => scheduleShare row.id
  | none => ⟨fun _ _ => True, fun _ => trivial, fun _ _ => trivial, fun _ _ => False⟩

/-- Nobody else writes, and the deliveries write only the rows of their schedules. -/
def sweepShare (claimed : List Schedule) : Share where
  rely before after := after = before
  refl _ := rfl
  trans := fun h hLater => hLater.trans h
  allows _ asked := ∃ row ∈ claimed, asked.WritesOnly row.id

/-- The entry at this place is that of the schedule at this place. -/
def EntryFits (claimed : List Schedule) (i : Nat) (entry : SweepEntry) (held : Store) : Prop :=
  ∀ row, claimed[i]? = some row →
    entry.scheduleId = row.id ∧ held.Remembers row.id entry.outcome

/-- What the deliveries write of schedules. -/
structure Store.Notes (claimed : List Schedule) (before after : Store) : Prop where
  others : ∀ id, (∀ row ∈ claimed, row.id ≠ id) →
    after.schedules.find? id = before.schedules.find? id
  kept : ∀ id row, before.schedules.find? id = some row →
    ∃ last, after.schedules.find? id = some { row with lastPipelineId := last }
  idle : claimed = [] → after = before

section Together

variable {claimed : List Schedule} {clock : Timestamp} {past : List Exchange} {store : Store}

/-- Schedules at different places are different. -/
theorem id_ne_of_getElem? (hApart : claimed.Pairwise (·.id < ·.id)) {i j : Nat}
    {row other : Schedule} (hRow : claimed[i]? = some row) (hOther : claimed[j]? = some other)
    (hNe : i ≠ j) : row.id ≠ other.id := by
  obtain ⟨hI, rfl⟩ := List.getElem?_eq_some_iff.mp hRow
  obtain ⟨hJ, rfl⟩ := List.getElem?_eq_some_iff.mp hOther
  rw [List.pairwise_iff_getElem] at hApart
  rcases Nat.lt_or_gt_of_ne hNe with hLt | hGt
  · exact Nat.ne_of_lt (hApart i j hI hJ hLt)
  · exact Nat.ne_of_gt (hApart j i hJ hI hGt)

/-- No delivery writes the row that another one relies on. -/
theorem deliveryShares_agree (hApart : claimed.Pairwise (·.id < ·.id)) :
    Program.Agree (deliveryShares claimed) (sweepShare claimed) (Contract.alone clock).ends where
  rely i before after h := by
    obtain rfl : after = before := h
    exact (deliveryShares claimed i).refl after
  allows i before asked h := by
    unfold deliveryShares at h
    split at h
    · rename_i row hRow
      exact ⟨row, List.mem_of_getElem? hRow, h⟩
    · exact h.elim
  apart i j hNe before asked answer after hAllows hEnds := by
    unfold deliveryShares at hAllows ⊢
    split at hAllows
    · rename_i other hOther
      split
      · rename_i row hRow
        exact hEnds.1.find?_eq_of_ne hAllows (id_ne_of_getElem? hApart hRow hOther hNe)
      · trivial
    · exact hAllows.elim

/-- Side by side the deliveries come to their entries, in the order of the schedules. -/
theorem sweepDeliveries_sweepShare (context : DeliveryContext) (order : List Nat)
    (hApart : claimed.Pairwise (·.id < ·.id))
    (hWindow : clock.subSeconds? context.settings.lookback ≠ none) :
    (Program.sideBySide order (sweepDeliveries context claimed)).Fulfills
      ((sweepShare claimed).contract (Contract.alone clock).ends False)
      (fun _ entries held => entries.map (·.scheduleId) = claimed.map (·.id) ∧
        ∀ entry ∈ entries, held.Remembers entry.scheduleId entry.outcome) past store := by
  have hEach (i : Nat) (program : Program SweepEntry)
      (hProgram : (sweepDeliveries context claimed)[i]? = some program) :
      program.Fulfills
        ((deliveryShares claimed i).contract (Contract.alone clock).ends False)
        (fun _ => EntryFits claimed i) [] store := by
    rw [sweepDeliveries, List.getElem?_map, Option.map_eq_some_iff] at hProgram
    obtain ⟨row, hRow, rfl⟩ := hProgram
    have hShare : deliveryShares claimed i = scheduleShare row.id := by rw [deliveryShares, hRow]
    rw [hShare]
    refine (deliver_scheduleContract context row.ownerId hWindow).lasting.andThen ?_
    intro _ outcome held hRemembers
    refine Program.fulfills_pure fun later hLater other hOther => ?_
    obtain rfl := Option.some.inj (hRow.symm.trans hOther)
    exact ⟨rfl, hRemembers later hLater⟩
  refine (Program.sideBySide_fulfills (deliveryShares_agree hApart) order hEach).imp ?_
  rintro _ entries held ⟨hLength, hEntries⟩
  rw [sweepDeliveries, List.length_map] at hLength
  have hFits (i : Nat) (entry : SweepEntry) (hEntry : entries[i]? = some entry) :
      ∃ row, claimed[i]? = some row ∧ entry.scheduleId = row.id ∧
        held.Remembers row.id entry.outcome := by
    have hBound : i < claimed.length := hLength ▸ (List.getElem?_eq_some_iff.mp hEntry).1
    have hRow := List.getElem?_eq_getElem hBound
    exact ⟨_, hRow, hEntries i entry hEntry _ hRow⟩
  refine ⟨List.ext_getElem? fun i => ?_, fun entry hEntry => ?_⟩
  · rw [List.getElem?_map, List.getElem?_map]
    cases hEntry : entries[i]? with
    | none =>
        rw [List.getElem?_eq_none_iff, hLength] at hEntry
        rw [List.getElem?_eq_none hEntry]
        rfl
    | some entry =>
        obtain ⟨row, hRow, hId, -⟩ := hFits i entry hEntry
        rw [hRow, Option.map_some, Option.map_some, hId]
  · obtain ⟨i, hI⟩ := List.mem_iff_getElem?.mp hEntry
    obtain ⟨row, -, hId, hRemembers⟩ := hFits i entry hI
    rw [hId]
    exact hRemembers

theorem Store.Notes.refl (store : Store) : store.Notes claimed store :=
  ⟨fun _ _ => rfl, fun _ row hRow => ⟨row.lastPipelineId, hRow⟩, fun _ => rfl⟩

theorem Store.Notes.trans {before middle after : Store} (h : before.Notes claimed middle)
    (hLater : middle.Notes claimed after) : before.Notes claimed after where
  others id hId := (hLater.others id hId).trans (h.others id hId)
  kept id row hRow := by
    obtain ⟨noted, hNoted⟩ := h.kept id row hRow
    obtain ⟨last, hLast⟩ := hLater.kept id _ hNoted
    exact ⟨last, hLast⟩
  idle hNone := (hLater.idle hNone).trans (h.idle hNone)

/-- A request of one of the deliveries. -/
theorem Request.Occurs.notes {asked : Request} {answer : asked.Answer} {before after : Store}
    (h : asked.Occurs before answer after) (hAllows : (sweepShare claimed).allows before asked) :
    before.Notes claimed after := by
  obtain ⟨row, hRow, hWrites⟩ := hAllows
  refine ⟨fun id hId => h.find?_eq_of_ne hWrites (Ne.symm (hId row hRow)), ?_, ?_⟩
  · intro id stored hStored
    rcases h.schedules_cases hWrites with hSame | ⟨pipelineId, hNoted⟩
    · rw [hSame]
      exact ⟨stored.lastPipelineId, hStored⟩
    · rw [hNoted, Store.find?_withLastPipeline, hStored, Option.map_some]
      split
      · exact ⟨some pipelineId, rfl⟩
      · exact ⟨stored.lastPipelineId, rfl⟩
  · rintro rfl
    cases hRow

/-- None of the deliveries asks for what may be refused. -/
theorem Request.WritesOnly.reply?_eq_none {asked : Request} {id : Nat}
    (h : asked.WritesOnly id) (refusals : Refusals) : refusals.reply? asked = none := by
  rcases h with hSpares | ⟨access, pipelineId, rfl⟩
  · cases asked with
    | store access call => cases call <;> first | rfl | cases hSpares
    | _ => rfl
  · rfl

/-- The deliveries of a sweep, whichever advances are refused. -/
theorem sweepDeliveries_aloneUnless (context : DeliveryContext) (order : List Nat)
    (refusals : Refusals) (hApart : claimed.Pairwise (·.id < ·.id))
    (hWindow : clock.subSeconds? context.settings.lookback ≠ none) :
    (Program.sideBySide order (sweepDeliveries context claimed)).Fulfills
      (.aloneUnless refusals clock)
      (fun _ entries held => entries.map (·.scheduleId) = claimed.map (·.id) ∧
        (∀ entry ∈ entries, held.Remembers entry.scheduleId entry.outcome) ∧
        store.Notes claimed held) past store := by
  have hShared : (Program.sideBySide order (sweepDeliveries context claimed)).Fulfills
      ((sweepShare claimed).contract (Contract.alone clock).ends False) _ past store :=
    sweepDeliveries_sweepShare context order hApart hWindow
  have hNotes := hShared.carry (Store.Notes claimed) Store.Notes.refl Store.Notes.trans
    (fun _ _ hSame => hSame ▸ .refl _) (fun _ _ _ _ _ hAllows hEnds => hEnds.1.notes hAllows)
  refine (hNotes.knowing (.aloneUnless refusals clock) (fun _ _ => True) trivial (fun _ _ => id)
    (fun _ _ _ _ => id) (fun _ _ _ _ _ => trivial)
    (fun _ before asked answer after _ hAllows hEnds => ?_) (fun _ _ _ => id)).imp ?_
  · obtain ⟨row, -, hWrites⟩ := hAllows
    simp only [Contract.aloneUnless, hWrites.reply?_eq_none refusals] at hEnds
    exact ⟨hEnds, trivial⟩
  · rintro _ entries held ⟨-, ⟨hIds, hRemembers⟩, hNotes⟩
    exact ⟨hIds, hRemembers, hNotes⟩

end Together

end PipelineUpkeep
