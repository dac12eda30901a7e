import PipelineUpkeep.Proofs.ShelteredPipelines
import PipelineUpkeep.Proofs.SweepEffect
/-!
# The pipelines of one sweep survive it

The deliveries of a sweep create pipelines side by side, also on one ref, and each of them
cancels what its own pipeline makes redundant.  Nobody moves a tip meanwhile, so every
pipeline of the sweep is sheltered from its insertion on: at the end of the sweep it stands as
it was inserted, and so do its builds, in whatever order the deliveries made their requests.
-/

namespace PipelineUpkeep

open Time

/-- A pipeline that the outcome names is sheltered, and it was not there at the start. -/
def Store.SheltersOutcome (start store : Store) (outcome : DeliveryOutcome) : Prop :=
  ∀ id, outcome = .created id → ∃ row, row.id = id ∧ start.SheltersNew store row

theorem Store.SheltersOutcome.later {start before after : Store} {outcome : DeliveryOutcome}
    (h : start.SheltersOutcome before outcome) (hKeeps : before.KeepsSheltered after) :
    start.SheltersOutcome after outcome := by
  intro id hCreated
  obtain ⟨row, hId, hNew⟩ := h id hCreated
  exact ⟨row, hId, hNew.later hKeeps⟩

section Walk

variable {times : Timestamp → Prop} {lookback : Int} {past : List Exchange} {start store : Store}

/-! ## One delivery -/

theorem reportFailure_shelters (scheduleId : Nat) (message : String) :
    (reportFailure scheduleId message).Fulfills (shelterContract times lookback)
      (fun _ outcome held => start.SheltersOutcome held outcome) past store := by
  unfold reportFailure
  refine (ask_shelters .countFailure fun _ _ => trivial).andThen fun _ _ _ _ => ?_
  refine (writeLog_shelters _ _).andThen fun _ _ _ _ => ?_
  refine (ask_shelters (.track _ _) fun _ _ => trivial).andThen fun _ _ _ _ => ?_
  exact Program.fulfills_pure fun _ _ _ h => nomatch h

theorem loadDelivery_shelters (scheduleId userId : Nat) :
    (loadDelivery scheduleId userId).Fulfills (shelterContract times lookback)
      (fun _ _ _ => True) past store := by
  unfold loadDelivery
  refine (ask_shelters (.store .schedules (.schedule _)) fun _ _ => trivial).andThen ?_
  intro _ schedule _ _
  match schedule with
  | .error _ | .ok none => exact Program.fulfills_pure fun _ _ => trivial
  | .ok (some schedule) =>
      refine (ask_shelters (.store .worker (.project _)) fun _ _ => trivial).andThen ?_
      intro _ project _ _
      match project with
      | .error _ | .ok none => exact Program.fulfills_pure fun _ _ => trivial
      | .ok (some project) =>
          refine (ask_shelters (.store .schedules (.user _)) fun _ _ => trivial).andThen ?_
          intro _ user _ _
          match user with
          | .error _ | .ok none => exact Program.fulfills_pure fun _ _ => trivial
          | .ok (some user) => exact Program.fulfills_pure fun _ _ => trivial

theorem fireSchedule_shelters (context : DeliveryContext) (schedule : Schedule) (user : User)
    (hStart : start.KeepsOrigins store) :
    (fireSchedule context schedule user).Fulfills
      (shelterContract times context.settings.lookback)
      (fun _ outcome held => start.SheltersOutcome held outcome) past store := by
  unfold fireSchedule
  refine (ask_shelters (.creation _) fun _ _ => trivial).keepsSheltered.andThen ?_
  rintro _ _ asked ⟨-, hAsked⟩
  refine (createForRequest_shelters context.rules context.settings rfl
    (hStart.trans hAsked.origins)).andThen ?_
  intro _ created held hCreated
  match created with
  | .error error => exact reportFailure_shelters _ _
  | .ok response =>
      simp only
      split
      · rename_i pipeline hPipeline
        have hNew := hCreated response pipeline rfl hPipeline
        refine (ask_shelters (.store .schedules (.recordLastPipeline _ _))
          fun _ _ => trivial).keepsSheltered.andThen ?_
        rintro _ noted held ⟨-, hNoted⟩
        have hShelters {later : Store} (hLater : held.KeepsSheltered later) :
            start.SheltersOutcome later (.created pipeline.id) := by
          rintro _ ⟨⟩
          exact ⟨pipeline, rfl, hNew.later (hNoted.trans hLater)⟩
        match noted with
        | .ok () => exact Program.fulfills_pure fun _ hLater => hShelters hLater
        | .error error =>
            refine (writeLog_shelters _ _).keepsSheltered.andThen ?_
            rintro _ _ logged ⟨-, hLogged⟩
            exact Program.fulfills_pure fun _ hLater => hShelters (hLogged.trans hLater)
      · refine (writeLog_shelters _ _).andThen fun _ _ _ _ => ?_
        exact Program.fulfills_pure fun _ _ _ h => nomatch h

theorem deliver_shelters (context : DeliveryContext) (scheduleId userId : Nat)
    (hStart : start.KeepsOrigins store) :
    (deliver context scheduleId userId true).Fulfills
      (shelterContract times context.settings.lookback)
      (fun _ outcome held => start.SheltersOutcome held outcome) past store := by
  unfold deliver
  refine (loadDelivery_shelters scheduleId userId).keepsSheltered.andThen ?_
  rintro _ loaded held ⟨-, hLoaded⟩
  match loaded with
  | .error error => exact reportFailure_shelters _ _
  | .ok none =>
      refine (writeLog_shelters _ _).andThen fun _ _ _ _ => ?_
      exact Program.fulfills_pure fun _ _ _ h => nomatch h
  | .ok (some (schedule, project, user)) =>
      simp only [Bool.not_true, Bool.and_false, Bool.false_eq_true, if_false]
      exact fireSchedule_shelters context schedule user (hStart.trans hLoaded.origins)

/-! ## All of them -/

theorem claimEach_shelters (now : Timestamp) (schedules : List Schedule) :
    (claimEach now schedules).Fulfills (shelterContract times lookback)
      (fun _ _ _ => True) past store := by
  induction schedules generalizing past store with
  | nil => exact Program.fulfills_pure fun _ _ => trivial
  | cons schedule rest ih =>
      have hClaim : (claimDue now schedule).Fulfills (shelterContract times lookback)
          (fun _ _ _ => True) past store := by
        unfold claimDue
        split
        · refine (writeLog_shelters _ _).andThen fun _ _ _ _ => ?_
          exact Program.fulfills_pure fun _ _ => trivial
        · refine (ask_shelters (.store .schedules (.advanceNextRun ..))
            fun _ _ => trivial).andThen fun _ won _ _ => ?_
          match won with
          | .ok true => exact Program.fulfills_pure fun _ _ => trivial
          | .ok false | .error _ =>
              refine (writeLog_shelters _ _).andThen fun _ _ _ _ => ?_
              exact Program.fulfills_pure fun _ _ => trivial
      unfold claimEach
      refine hClaim.andThen fun _ _ _ _ => ih.andThen fun _ _ _ _ => ?_
      exact Program.fulfills_pure fun _ _ => trivial

theorem claimAllDue_shelters (now : Timestamp) :
    (claimAllDue now).Fulfills (shelterContract times lookback) (fun _ _ _ => True) past store := by
  unfold claimAllDue
  refine (ask_shelters (.store .schedules (.dueSchedules _)) fun _ _ => trivial).andThen ?_
  intro _ due _ _
  match due with
  | .error _ => exact Program.fulfills_pure fun _ _ => trivial
  | .ok schedules =>
      refine (claimEach_shelters now schedules).andThen fun _ _ _ _ => ?_
      exact Program.fulfills_pure fun _ _ => trivial

/-- Deliveries spare what shelters the pipelines of each other. -/
theorem sweepDeliveries_shelters (context : DeliveryContext) (claimed : List Schedule)
    (order : List Nat) (hStart : start.KeepsOrigins store) :
    (Program.sideBySide order (sweepDeliveries context claimed)).Fulfills
      (shelterContract times context.settings.lookback)
      (fun _ entries held => ∀ entry ∈ entries, start.SheltersOutcome held entry.outcome)
      past store := by
  have hAgree : Program.Agree (fun _ => shelterShare) shelterShare
      (fun asked before answer after =>
        asked.Occurs before answer after ∧ asked.Shows times answer) :=
    ⟨fun _ _ _ => id, fun _ _ _ => id,
      fun _ _ _ _ _ _ _ hSpares hEnds => hEnds.1.keepsSheltered hSpares⟩
  have hAll : (Program.sideBySide order (sweepDeliveries context claimed)).Fulfills
      (shelterContract times context.settings.lookback)
      (fun _ => Program.AllAchieve (fun _ (entry : SweepEntry) held =>
        start.SheltersOutcome held entry.outcome) (sweepDeliveries context claimed).length)
      past store := by
    refine Program.sideBySide_fulfills hAgree order fun i program hProgram => ?_
    obtain ⟨schedule, -, rfl⟩ := List.mem_map.mp (List.mem_of_getElem? hProgram)
    refine (deliver_shelters context _ _ hStart).andThen fun _ outcome held hOutcome => ?_
    exact Program.fulfills_pure fun _ hLater => hOutcome.later hLater
  refine hAll.imp fun _ entries held hEntries entry hEntry => ?_
  obtain ⟨i, hI⟩ := List.mem_iff_getElem?.mp hEntry
  exact hEntries.2 i entry hI

/-- A sweep shelters the pipelines that its entries name. -/
theorem sweepInOrder_shelters (context : DeliveryContext) (now : Timestamp) (order : List Nat) :
    (sweepInOrder context now order).Fulfills (shelterContract times context.settings.lookback)
      (fun _ result held => ∀ entries, result = .ok entries → ∀ entry ∈ entries,
        store.SheltersOutcome held entry.outcome) past store := by
  unfold sweepInOrder
  refine (claimAllDue_shelters now).keepsSheltered.andThen ?_
  rintro _ claimed held ⟨-, hClaimed⟩
  match claimed with
  | .error error => exact Program.fulfills_pure fun _ _ _ h => nomatch h
  | .ok schedules =>
      refine (sweepDeliveries_shelters context schedules order hClaimed.origins).andThen ?_
      intro _ entries delivered hEntries
      have hClose {past : List Exchange} : (closeSweep entries).Fulfills
          (shelterContract times context.settings.lookback)
          (fun _ closed _ => closed = entries) past delivered := by
        unfold closeSweep
        split
        · refine (writeLog_shelters _ _).andThen fun _ _ _ _ => ?_
          exact Program.fulfills_pure fun _ _ => rfl
        · exact Program.fulfills_pure fun _ _ => rfl
      refine hClose.keepsSheltered.andThen ?_
      rintro _ _ closed ⟨rfl, hClosed⟩
      refine Program.fulfills_pure fun last hLast => ?_
      rintro _ ⟨⟩ entry hEntry
      exact (hEntries entry hEntry).later (hClosed.trans hLast)

end Walk

/-! ## Histories of a sweep -/

/-- A sweep that has the store for itself, before it has made a request. -/
def sweepSystem (context : DeliveryContext) (now : Timestamp) (order : List Nat) (store : Store) :
    System fun _ : Unit => Except UpkeepError (List SweepEntry) where
  store := store
  rest _ := sweepInOrder context now order

/-- What becomes of the pipelines that are inserted in a history. -/
structure CreationsStand {ι : Type} (start : Store) (history : List (Moment ι)) (final : Store) :
    Prop where
  /-- An inserted pipeline stays as it is, and so do its builds. -/
  stands : ∀ moment ∈ history, ∀ row ∈ moment.newPipelines,
    row.status = .created ∧ row.autoCanceledById = none ∧ row ∈ final.pipelines.rows ∧
      final.buildsOf row.id = moment.after.buildsOf row.id
  /-- No other pipeline is new. -/
  inserted : ∀ row ∈ Table.newRows start.pipelines final.pipelines, row ∈ insertedPipelines history

section Histories

variable {context : DeliveryContext} {now : Timestamp} {order : List Nat} {store : Store}
  {history : List (Moment Unit)}
  {final : System fun _ : Unit => Except UpkeepError (List SweepEntry)}

theorem Interleaved.sweep_spares
    (h : Interleaved (fun _ _ => False) (sweepSystem context now order store) history final) :
    ∀ moment ∈ history, moment.exchange.asked.Spares moment.before := by
  intro moment hMoment
  obtain ⟨earlier, later, rfl⟩ := List.append_of_mem hMoment
  have hSweep : (sweepInOrder context now order).Fulfills
      (shelterContract (fun _ => True) context.settings.lookback) _ [] store :=
    sweepInOrder_shelters context now order
  have hOccurs (other : Moment Unit) (hOther : other ∈ earlier) :=
    h.occurs other (List.mem_append_left _ hOther)
  exact h.permits rfl hSweep (fun _ _ => False.elim) (fun _ _ hOther => absurd rfl hOther)
    fun other hOther _ => ⟨hOccurs other hOther, other.exchange.asked.shows_any _⟩

theorem Interleaved.sweep_keepsSheltered
    (h : Interleaved (fun _ _ => False) (sweepSystem context now order store) history final) :
    ∀ moment ∈ history, moment.before.KeepsSheltered moment.after :=
  fun moment hMoment => (h.occurs moment hMoment).keepsSheltered (h.sweep_spares moment hMoment)

/-- Every pipeline that is there at the end was there at the start or was inserted. -/
theorem Interleaved.exists_newPipelines {ι : Type} [DecidableEq ι] {α : ι → Type}
    {start final : System α} {history : List (Moment ι)}
    (h : Interleaved (fun _ _ => False) start history final) {id : Nat}
    (hNew : start.store.pipelines.find? id = none) {last : Pipeline}
    (hLast : final.store.pipelines.find? id = some last) :
    ∃ moment ∈ history, ∃ row ∈ moment.newPipelines, row.id = id := by
  induction h generalizing last with
  | start =>
      rw [hNew] at hLast
      cases hLast
  | write _ hForeign => exact hForeign.elim
  | @move history system client asked resume answer after _ _ _ ih =>
      cases hBefore : system.store.pipelines.find? id with
      | some earlier =>
          obtain ⟨moment, hMoment, hRow⟩ := ih hBefore
          exact ⟨moment, List.mem_append_left _ hMoment, hRow⟩
      | none =>
          obtain ⟨hMem, hId⟩ := (after.pipelines.find?_eq_some_iff id last).mp hLast
          refine ⟨_, List.mem_append_right _ (List.mem_singleton_self _), last, ?_, hId⟩
          refine List.mem_filter.mpr ⟨hMem, ?_⟩
          rw [hId, hBefore]
          rfl

theorem Interleaved.sweep_creationsStand
    (h : Interleaved (fun _ _ => False) (sweepSystem context now order store) history final) :
    CreationsStand store history final.store := by
  have hStands : ∀ moment ∈ history, ∀ row ∈ moment.newPipelines,
      row.status = .created ∧ row.autoCanceledById = none ∧ row ∈ final.store.pipelines.rows ∧
        final.store.buildsOf row.id = moment.after.buildsOf row.id := by
    intro moment hMoment row hRow
    rcases (h.occurs moment hMoment).inserts_cases with hNone | ⟨access, new, hAsked, hAfter, hNew⟩
    · rw [Moment.newPipelines, hNone] at hRow
      cases hRow
    · rw [Moment.newPipelines, hNew, List.mem_singleton] at hRow
      have hSpares := h.sweep_spares moment hMoment
      rw [hAsked] at hSpares
      obtain ⟨hStatus, hParent, hTip⟩ := hSpares
      have hKeeps := (h.relates_moment Store.KeepsSheltered.refl Store.KeepsSheltered.trans
        (fun hForeign => hForeign.elim) h.sweep_keepsSheltered hMoment).2
      have hShelters : moment.after.Shelters row := by
        rw [hAfter, hRow]
        exact (Store.sheltersNew_createPipeline (.refl moment.before) hParent hTip).shelters
      refine ⟨?_, ?_, hKeeps.rows row hShelters, hKeeps.builds row hShelters⟩
      · rw [hRow]
        exact hStatus
      · rw [hRow]
        rfl
  refine ⟨hStands, fun row hRow => ?_⟩
  obtain ⟨hMem, hFree⟩ := List.mem_filter.mp hRow
  have hFound := final.store.pipelines.find?_key hMem
  obtain ⟨moment, hMoment, inserted, hInserted, hId⟩ :=
    h.exists_newPipelines (Option.isNone_iff_eq_none.mp hFree) hFound
  -- The inserted row is still there, under the same identifier.
  have hSame := final.store.pipelines.eq_of_key_eq (hStands moment hMoment inserted hInserted).2.2.1
    hMem hId
  rw [hSame] at hInserted
  exact List.mem_flatMap.mpr ⟨moment, hMoment, hInserted⟩

/-- Whatever is due, on however many refs, under either strategy, and in whatever order the
deliveries make their requests: the pipelines that a sweep has created stand at any time as
they were inserted, with their builds.  The entries of the sweep name such pipelines, and the
sweep comes to no fault but for a time whose window starts out of range. -/
theorem swept_pipelines_survive
    (h : Interleaved (fun _ _ => False) (sweepSystem context now order store) history final) :
    CreationsStand store history final.store ∧
      (∀ entries, final.rest () = .done (.ok entries) → ∀ entry ∈ entries, ∀ id,
        entry.outcome = .created id →
          ∃ row ∈ Table.newRows store.pipelines final.store.pipelines, row.id = id) ∧
      ∀ fault, final.rest () = .crash fault → ∃ clock, ⟨.clock, clock⟩ ∈ allExchanges history ∧
        clock.subSeconds? context.settings.lookback = none := by
  have hShown (moment : Moment Unit) (hMoment : moment ∈ history) :
      moment.exchange.asked.Shows (fun clock => ⟨.clock, clock⟩ ∈ allExchanges history)
        moment.exchange.answer := Exchange.shows_of_mem (List.mem_map_of_mem hMoment)
  have hEnd : (final.rest ()).Fulfills (shelterContract
      (fun clock => ⟨.clock, clock⟩ ∈ allExchanges history) context.settings.lookback) _
      (ownExchanges () history) final.store :=
    h.fulfills (sweepInOrder_shelters context now order) (fun _ _ => False.elim)
      (fun _ _ hOther => absurd rfl hOther)
      (fun moment hMoment _ => ⟨h.occurs moment hMoment, hShown moment hMoment⟩)
  refine ⟨h.sweep_creationsStand, fun entries hDone entry hEntry id hCreated => ?_, ?_⟩
  · rw [hDone] at hEnd
    obtain ⟨row, hId, hNew⟩ := hEnd final.store (.refl _) entries rfl entry hEntry id hCreated
    refine ⟨row, List.mem_filter.mpr ⟨hNew.shelters.stored, ?_⟩, hId⟩
    rw [(store.pipelines.find?_eq_none_iff row.id).mpr hNew.isNew]
    rfl
  · intro fault hCrash
    rw [hCrash] at hEnd
    exact hEnd

end Histories

/-- A ref with two schedules that are due and a running pipeline of an older commit. -/
def burstStore : Store :=
  Store.ofSnapshot { Snapshot.empty with
    projects := [⟨1, "group/app", true, none, [⟨"test", true⟩]⟩]
    users := [⟨1, "ada"⟩]
    refs := [⟨1, "main", "commit 1", "Fix a typo"⟩]
    pipelines := [pushedPipeline 2]
    schedules := [noonSchedule, { noonSchedule with id := 2 }] }

/-- The order in which its deliveries make their requests: they take turns. -/
def burstOrder : List Nat := (List.replicate 20 [0, 1]).flatten

/-- Its sweep, up to its end. -/
def burst : List (Moment Unit) × System fun _ : Unit => Except UpkeepError (List SweepEntry) :=
  (sweepSystem quietContext ⟨43200, 0⟩ burstOrder burstStore).play ⟨43200, 0⟩
    (List.replicate 43 ())

/-- The older pipeline is canceled; the two that have come to be side by side are not. -/
theorem swept_pipelines_survive_burst :
    canceledIds (allExchanges burst.1) = [2] ∧
      (Table.newRows burstStore.pipelines burst.2.store.pipelines).map (·.id) = [3, 4] ∧
      CreationsStand burstStore burst.1 burst.2.store :=
  have hBurst : Interleaved (fun _ _ => False)
      (sweepSystem quietContext ⟨43200, 0⟩ burstOrder burstStore) burst.1 burst.2 :=
    interleaved_play _ _ _ _
  ⟨by decide +kernel, by decide +kernel, (swept_pipelines_survive hBurst).1⟩

end PipelineUpkeep
