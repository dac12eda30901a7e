import PipelineUpkeep.Proofs.CreationAccount
import PipelineUpkeep.Proofs.RowReading
import PipelineUpkeep.Proofs.SnapshotLaws
import PipelineUpkeep.Store.StateFile
/-!
# Stored instants exist

A file is written with the instants of its rows as text, and text can only be read back for
instants that exist.  What a state file gives are such instants.  Afterwards the only
instants that come into a store are the times of new pipelines, which a clock has shown, and
next runs, which lie in the years of cron expressions.
-/

namespace PipelineUpkeep

open Data Time

/-! ## Next runs -/

theorem Time.Date.IsValid.inRange {date : Date} (hDate : date.IsValid)
    (hYear : -262143 < date.year ∧ date.year < 262142) {clock : Nat} (hClock : clock < 86400) :
    Timestamp.inRange (date.toDayNumber * 86400 + clock) = true := by
  have hFirst : (Date.mk (-262143) 1 1).toDayNumber < date.toDayNumber :=
    Date.Before.toDayNumber_lt (Or.inl hYear.1) (by decide) hDate
  have hLast : date.toDayNumber < (Date.mk 262142 12 31).toDayNumber :=
    Date.Before.toDayNumber_lt (Or.inl hYear.2) hDate (by decide)
  unfold Timestamp.inRange Timestamp.firstSecond Timestamp.lastSecond
  simp only [Bool.and_eq_true, decide_eq_true_eq]
  omega

/-- Whatever is found in a year of cron expressions exists. -/
theorem Cron.isValid_of_firstInYear? {fields : Cron.Fields} {year : Nat} {bounds : List Nat}
    {found : Timestamp} (h : Cron.firstInYear? fields year bounds = some found)
    (hMonthBound : 1 ≤ bounds.headD 1) (hDayBound : 1 ≤ bounds.tail.headD 1)
    (hYear : year ≤ 2100) : found.IsValid := by
  obtain ⟨month, day, hour, minute, second, rfl, hDate, hRange, -⟩ :=
    Cron.firstInYear?_spec h hMonthBound hDayBound
  refine ⟨?_, Or.inl (Nat.zero_lt_succ _)⟩
  rw [Cron.second_ofDateTime]
  exact hDate.inRange ⟨by simp only; omega, by simp only; omega⟩ (by omega)

theorem Schedule.isValid_of_nextRunAfter {schedule : Schedule} {now next : Timestamp}
    (h : schedule.nextRunAfter now = .ok next) : next.IsValid := by
  obtain ⟨text, fields, hFields, hNext⟩ := exists_of_nextRunAfter h
  obtain ⟨year, hYear, bounds, hMonthBound, hDayBound, hFound⟩ := fields.nextAfter?_cases hNext
  exact Cron.isValid_of_firstInYear? hFound hMonthBound hDayBound
    (Cron.Fields.mem_years_bounds hFields hYear).2

/-! ## Rows of files -/

/-- What the decoder gives has the property. -/
def Data.Decoder.Gives {α : Type} (decode : Decoder α) (holds : α → Prop) : Prop :=
  ∀ format value result, decode format value = some result → holds result

theorem exists_of_mapM_eq_some {α β : Type} {read? : α → Option β} {items : List α}
    {results : List β} (h : items.mapM read? = some results) {result : β}
    (hResult : result ∈ results) : ∃ item ∈ items, read? item = some result := by
  induction items generalizing results with
  | nil =>
      cases h
      cases hResult
  | cons item rest ih =>
      rw [List.mapM_cons] at h
      obtain ⟨first, hFirst, h⟩ := Option.bind_eq_some_iff.1 h
      obtain ⟨others, hOthers, h⟩ := Option.bind_eq_some_iff.1 h
      obtain rfl := Option.some.inj h
      rcases List.mem_cons.1 hResult with rfl | hRest
      · exact ⟨item, List.mem_cons_self, hFirst⟩
      · obtain ⟨other, hOther, hRead⟩ := ih hOthers hRest
        exact ⟨other, List.mem_cons_of_mem _ hOther, hRead⟩

namespace Data.Decoder.Gives

variable {α : Type} {decode : Decoder α} {holds : α → Prop} {format : Format}
  {field : Option Value}

theorem required (h : decode.Gives holds) {result : α}
    (hResult : Decode.required decode format field = some result) : holds result := by
  obtain ⟨value, -, hValue⟩ := Option.bind_eq_some_iff.1 hResult
  exact h format value result hValue

theorem list (h : decode.Gives holds) :
    (Decode.list decode).Gives fun items => ∀ item ∈ items, holds item := by
  intro format value items hItems item hItem
  unfold Decode.list at hItems
  split at hItems
  · rename_i values
    obtain ⟨other, -, hOther⟩ := exists_of_mapM_eq_some hItems hItem
    exact h format other item hOther
  · cases hItems
    cases hItem
  · cases hItems

theorem optional (h : decode.Gives holds) {default result : α} (hDefault : holds default)
    (hResult : Decode.optional default decode format field = some result) : holds result := by
  cases field with
  | none =>
      cases hResult
      exact hDefault
  | some value => exact h format value result hResult

end Data.Decoder.Gives

theorem decodeTimestamp_gives : decodeTimestamp.Gives Timestamp.IsValid := by
  intro format value result hResult
  obtain ⟨text, -, hText⟩ := Option.bind_eq_some_iff.1 hResult
  exact Timestamp.isValid_of_ofString? hText

theorem Pipeline.decode_gives : decode.Gives fun row : Pipeline => row.createdAt.IsValid := by
  intro format value row hRow
  obtain ⟨given, -, hRow⟩ := Option.bind_eq_some_iff.1 hRow
  split at hRow
  · obtain ⟨id, -, hRow⟩ := Option.bind_eq_some_iff.1 hRow
    obtain ⟨projectId, -, hRow⟩ := Option.bind_eq_some_iff.1 hRow
    obtain ⟨ref, -, hRow⟩ := Option.bind_eq_some_iff.1 hRow
    obtain ⟨sha, -, hRow⟩ := Option.bind_eq_some_iff.1 hRow
    obtain ⟨source, -, hRow⟩ := Option.bind_eq_some_iff.1 hRow
    obtain ⟨status, -, hRow⟩ := Option.bind_eq_some_iff.1 hRow
    obtain ⟨createdAt, hCreatedAt, hRow⟩ := Option.bind_eq_some_iff.1 hRow
    obtain ⟨parentId, -, hRow⟩ := Option.bind_eq_some_iff.1 hRow
    obtain ⟨autoCanceledById, -, hRow⟩ := Option.bind_eq_some_iff.1 hRow
    obtain ⟨lockVersion, -, hRow⟩ := Option.bind_eq_some_iff.1 hRow
    obtain rfl := Option.some.inj hRow
    exact decodeTimestamp_gives.required hCreatedAt
  · cases hRow

theorem Schedule.decode_gives : decode.Gives fun row : Schedule => row.nextRunAt.IsValid := by
  intro format value row hRow
  obtain ⟨given, -, hRow⟩ := Option.bind_eq_some_iff.1 hRow
  split at hRow
  · obtain ⟨id, -, hRow⟩ := Option.bind_eq_some_iff.1 hRow
    obtain ⟨projectId, -, hRow⟩ := Option.bind_eq_some_iff.1 hRow
    obtain ⟨ref, -, hRow⟩ := Option.bind_eq_some_iff.1 hRow
    obtain ⟨cron, -, hRow⟩ := Option.bind_eq_some_iff.1 hRow
    obtain ⟨ownerId, -, hRow⟩ := Option.bind_eq_some_iff.1 hRow
    obtain ⟨active, -, hRow⟩ := Option.bind_eq_some_iff.1 hRow
    obtain ⟨nextRunAt, hNextRunAt, hRow⟩ := Option.bind_eq_some_iff.1 hRow
    obtain ⟨lastPipelineId, -, hRow⟩ := Option.bind_eq_some_iff.1 hRow
    obtain ⟨description, -, hRow⟩ := Option.bind_eq_some_iff.1 hRow
    obtain rfl := Option.some.inj hRow
    exact decodeTimestamp_gives.required hNextRunAt
  · cases hRow

namespace Snapshot

theorem decode_gives :
    decode.Gives fun snapshot => (∀ row ∈ snapshot.pipelines, row.createdAt.IsValid) ∧
      ∀ row ∈ snapshot.schedules, row.nextRunAt.IsValid := by
  intro format value snapshot hSnapshot
  obtain ⟨given, -, hSnapshot⟩ := Option.bind_eq_some_iff.1 hSnapshot
  split at hSnapshot
  · obtain ⟨projects, -, hSnapshot⟩ := Option.bind_eq_some_iff.1 hSnapshot
    obtain ⟨users, -, hSnapshot⟩ := Option.bind_eq_some_iff.1 hSnapshot
    obtain ⟨refs, -, hSnapshot⟩ := Option.bind_eq_some_iff.1 hSnapshot
    obtain ⟨pipelines, hPipelines, hSnapshot⟩ := Option.bind_eq_some_iff.1 hSnapshot
    obtain ⟨builds, -, hSnapshot⟩ := Option.bind_eq_some_iff.1 hSnapshot
    obtain ⟨schedules, hSchedules, hSnapshot⟩ := Option.bind_eq_some_iff.1 hSnapshot
    obtain rfl := Option.some.inj hSnapshot
    exact ⟨Pipeline.decode_gives.list.optional (List.forall_mem_nil _) hPipelines,
      Schedule.decode_gives.list.optional (List.forall_mem_nil _) hSchedules⟩
  · cases hSnapshot

end Snapshot

/-! ## Rows of stores -/

/-- Every instant that the store holds exists. -/
structure Store.IsTimely (store : Store) : Prop where
  pipelines : ∀ row ∈ store.pipelines.rows, row.createdAt.IsValid
  schedules : ∀ row ∈ store.schedules.rows, row.nextRunAt.IsValid

namespace Store

variable {store : Store}

/-- Numbers apart, a store that holds such instants can be written and read back. -/
theorem IsTimely.isStorable (h : store.IsTimely)
    (hNumbers : ∀ number ∈ store.snapshot.numbers, number < idBound) :
    store.snapshot.IsStorable where
  numbers := hNumbers
  instants := List.forall_mem_append.2
    ⟨List.forall_mem_map.2 h.pipelines, List.forall_mem_map.2 h.schedules⟩

theorem isTimely_empty : (ofSnapshot .empty).IsTimely :=
  ⟨List.forall_mem_nil _, List.forall_mem_nil _⟩

/-- The store of a loaded snapshot holds instants that exist. -/
theorem isTimely_of_load {codec : Codec} {directory : Directory} {path : String}
    {snapshot : Snapshot} (h : Snapshot.load codec directory path = .ok snapshot) :
    (ofSnapshot snapshot).IsTimely := by
  unfold Snapshot.load at h
  split at h
  · unfold Snapshot.loadFrom at h
    split at h
    · cases h
    · split at h
      · rename_i read hRead
        obtain rfl := Except.ok.inj h
        obtain ⟨value, -, hValue⟩ := Option.bind_eq_some_iff.1 hRead
        obtain ⟨hPipelines, hSchedules⟩ := Snapshot.decode_gives _ _ _ hValue
        exact ⟨fun row hRow => hPipelines row (Table.mem_of_mem_ofList hRow),
          fun row hRow => hSchedules row (Table.mem_of_mem_ofList hRow)⟩
      · cases h
  · cases h
    exact isTimely_empty

theorem IsTimely.cancelRunning (h : store.IsTimely) (row : Pipeline) (request : CancelRequest) :
    (store.cancelRunning row request).2.IsTimely := by
  have hCanceled (ids : List Nat) : (store.cancelRows ids request.canceledById).IsTimely := by
    refine ⟨List.forall_mem_map.2 fun stored hStored => ?_, h.schedules⟩
    have hSame : (store.cancelChange ids request.canceledById stored).createdAt =
        stored.createdAt :=
      store.cancelChange_field ids request.canceledById (·.createdAt) (fun _ => rfl) stored
    exact hSame ▸ h.pipelines stored hStored
  unfold Store.cancelRunning
  split
  · exact h
  · split
    · exact h
    · split
      · exact h
      · exact hCanceled _

theorem IsTimely.createPipeline (h : store.IsTimely) {new : NewPipeline}
    (hCreatedAt : new.createdAt.IsValid) : (store.createPipeline new).2.IsTimely := by
  refine ⟨?_, h.schedules⟩
  rw [rows_pipelines_createPipeline]
  exact List.forall_mem_append.2 ⟨h.pipelines, List.forall_mem_singleton.2 hCreatedAt⟩

theorem IsTimely.advanceNextRun (h : store.IsTimely) {next : Timestamp} (hNext : next.IsValid)
    (id : Nat) (observed : Timestamp) : (store.advanceNextRun id observed next).2.IsTimely := by
  unfold Store.advanceNextRun
  split
  · exact h
  · split
    · exact h
    · refine ⟨h.pipelines, List.forall_mem_map.2 fun stored hStored => ?_⟩
      split
      · exact hNext
      · exact h.schedules stored hStored

theorem IsTimely.recordLastPipeline (h : store.IsTimely) (id pipelineId : Nat) :
    (store.recordLastPipeline id pipelineId).2.IsTimely := by
  unfold Store.recordLastPipeline
  split
  · exact h
  · refine ⟨h.pipelines, List.forall_mem_map.2 fun stored hStored => ?_⟩
    split <;> exact h.schedules stored hStored

theorem IsTimely.touchPipeline (h : store.IsTimely) (id : Nat) (status : Option Status) :
    (store.touchPipeline id status).IsTimely := by
  refine ⟨List.forall_mem_map.2 fun stored hStored => ?_, h.schedules⟩
  split <;> exact h.pipelines stored hStored

end Store

/-! ## Requests -/

/-- The call brings no instant into the store that does not exist. -/
def StoreCall.IsTimely : StoreCall → Prop
  | .createPipeline new => new.createdAt.IsValid
  | .advanceNextRun _ _ next => next.IsValid
  | _ => True

def Request.IsTimely : Request → Prop
  | .store _ call => call.IsTimely
  | _ => True

theorem Store.IsTimely.perform {store : Store} (h : store.IsTimely) {call : StoreCall}
    (hCall : call.IsTimely) : (call.perform store).2.IsTimely := by
  cases call with
  | createPipeline new => exact h.createPipeline hCall
  | cancelRunning row request => exact h.cancelRunning row request
  | advanceNextRun id observed next => exact h.advanceNextRun hCall id observed
  | recordLastPipeline id pipelineId => exact h.recordLastPipeline id pipelineId
  | setRefHead head => exact ⟨h.pipelines, h.schedules⟩
  | _ =>
      exact h

/-- Another process may write a pipeline, but not its time. -/
theorem Store.IsTimely.performDisturbed {store : Store} (h : store.IsTimely)
    (disturbance : Disturbance) (access : Access) {call : StoreCall} (hCall : call.IsTimely) :
    (disturbance.perform access call store).2.2.IsTimely := by
  unfold Disturbance.perform
  split
  · exact h
  · cases call with
    | cancelRunning row request =>
        cases hWrite : disturbance.takeWrite row.id with
        | none =>
            simp only [Disturbance.performUnfailing, hWrite]
            exact h.cancelRunning row request
        | some found =>
            simp only [Disturbance.performUnfailing, hWrite]
            exact (h.touchPipeline _ _).cancelRunning row request
    | schedule | dueSchedules => exact h
    | _ => exact h.perform hCall

theorem World.store_logCall (world : World) (call : StoreCall)
    (result : Except StoreError call.Answer) : (world.logCall call result).store = world.store := by
  unfold logCall
  split <;> rfl

/-- A world of such instants stays one under such requests, whatever disturbs it. -/
theorem World.isTimely_answer {world : World} (h : world.store.IsTimely) {asked : Request}
    (hAsked : asked.IsTimely) : (world.answer asked).2.store.IsTimely := by
  match asked with
  | .store access call =>
      simp only [answer, callStore, store_logCall]
      exact h.performDisturbed world.disturbance access hAsked
  | .audit entry =>
      unfold answer
      cases hTrail : world.trail <;> exact h
  | .clock | .log _ | .sleep _ | .countFailure | .track .. | .creation _ => exact h

end PipelineUpkeep
