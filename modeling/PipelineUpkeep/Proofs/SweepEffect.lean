import PipelineUpkeep.Proofs.DeliveryEffect
import PipelineUpkeep.Proofs.SweepDeliveries
/-!
# Sweeps without other writers

A sweep has one entry for every due schedule whose expression has a further instant and whose
advance is not refused, in the order of the identifiers, whatever becomes of the others.
These schedules have moved on past the time of the sweep, and all other schedules are as they
were.  A sweep that follows it at the same or an earlier time fires only schedules that the
first one could not claim for want of a further instant: after the same time there is none
either, so then nothing is fired twice.  Of the search for further instants it is only used
that they are later than the time they are asked for.
-/

namespace PipelineUpkeep

open Time

/-- A sweep, some of whose advances are refused and whose deliveries make their requests in
some order, comes to this result. -/
def Sweeps (refusals : Refusals) (context : DeliveryContext) (now : Timestamp) (world : World)
    (result : Except Fault (Except UpkeepError (List SweepEntry)) × World) : Prop :=
  ∃ order, (sweepInOrder context now order).runWith (World.answerUnless refusals) world = result

/-- What a sweep returns, and what it leaves of the schedules. -/
structure Swept (refusals : Refusals) (now : Timestamp) (before : Store)
    (entries : List SweepEntry) (after : Store) : Prop where
  /-- Every due schedule is decided by its own row. -/
  fires : ∀ id, (∃ entry ∈ entries, entry.scheduleId = id) ↔
    ∃ row next, before.schedules.find? id = some row ∧ row.active = true ∧ row.nextRunAt ≤ now ∧
      refusals.answer? id = none ∧ row.nextRunAfter now = .ok next
  /-- No schedule has two entries. -/
  increasing : entries.Pairwise (·.scheduleId < ·.scheduleId)
  advanced : ∀ entry ∈ entries, ∃ row next last,
    before.schedules.find? entry.scheduleId = some row ∧ row.nextRunAfter now = .ok next ∧
      now < next ∧ after.schedules.find? entry.scheduleId =
        some { row with nextRunAt := next, lastPipelineId := last }
  /-- A pipeline that has been created is the last one of its schedule. -/
  created : ∀ entry ∈ entries, after.Remembers entry.scheduleId entry.outcome
  others : ∀ id, (∀ entry ∈ entries, entry.scheduleId ≠ id) →
    after.schedules.find? id = before.schedules.find? id
  idle : entries = [] → after = before

section Effect

variable {refusals : Refusals} {now earlier clock : Timestamp} {before after final : Store}
  {entries following : List SweepEntry}

theorem Schedule.isDue_iff {row : Schedule} :
    row.isDue now = true ↔ row.active = true ∧ row.nextRunAt ≤ now := by
  rw [isDue, Bool.and_eq_true, decide_eq_true_eq]

/-- What the claims and the deliveries of a sweep come to together. -/
theorem Store.Notes.swept
    (hNotes : (before.afterClaims now (before.claimable refusals now)).Notes
      (before.claimable refusals now) after)
    (hIds : entries.map (·.scheduleId) = (before.claimable refusals now).map (·.id))
    (hRemembers : ∀ entry ∈ entries, after.Remembers entry.scheduleId entry.outcome) :
    Swept refusals now before entries after := by
  have hMem (id : Nat) : (∃ entry ∈ entries, entry.scheduleId = id) ↔
      ∃ row ∈ before.claimable refusals now, row.id = id := by
    rw [← List.mem_map, hIds, List.mem_map]
  have hApart := before.pairwise_claimable refusals now
  constructor
  · intro id
    rw [hMem]
    constructor
    · rintro ⟨row, hRow, rfl⟩
      obtain ⟨hStored, hDue, hAllowed, next, hNext⟩ := Store.mem_claimable_iff.mp hRow
      obtain ⟨hActive, hTime⟩ := Schedule.isDue_iff.mp hDue
      exact ⟨row, next, hStored, hActive, hTime, hAllowed, hNext⟩
    · rintro ⟨row, next, hStored, hActive, hTime, hAllowed, hNext⟩
      obtain rfl : row.id = id := ((before.schedules.find?_eq_some_iff id row).mp hStored).2
      have hDue := Schedule.isDue_iff.mpr ⟨hActive, hTime⟩
      exact ⟨row, Store.mem_claimable_iff.mpr ⟨hStored, hDue, hAllowed, next, hNext⟩, rfl⟩
  · have hSorted : (entries.map (·.scheduleId)).Pairwise (· < ·) := by
      rw [hIds, List.pairwise_map]
      exact hApart
    exact List.pairwise_map.mp hSorted
  · intro entry hEntry
    obtain ⟨row, hRow, hId⟩ := (hMem entry.scheduleId).mp ⟨entry, hEntry, rfl⟩
    obtain ⟨hStored, -, -, next, hNext⟩ := Store.mem_claimable_iff.mp hRow
    have hClaimed := Store.find?_afterClaims_of_mem hApart hStored hRow hNext
    obtain ⟨last, hLast⟩ := hNotes.kept row.id _ hClaimed
    rw [← hId]
    exact ⟨row, next, last, hStored, hNext, Schedule.lt_of_nextRunAfter hNext, hLast⟩
  · exact hRemembers
  · intro id hNone
    have hOther : ∀ row ∈ before.claimable refusals now, row.id ≠ id := fun row hRow hId => by
      obtain ⟨entry, hEntry, hSame⟩ := (hMem id).mpr ⟨row, hRow, hId⟩
      exact hNone entry hEntry hSame
    exact (hNotes.others id hOther).trans (Store.find?_afterClaims_of_ne hOther)
  · rintro rfl
    have hNone : before.claimable refusals now = [] := List.map_eq_nil_iff.mp hIds.symm
    rw [hNotes.idle hNone, hNone]
    rfl

/-- Which schedules a following sweep fires at the same or an earlier time. -/
theorem Swept.following_eq_nil_iff (h : Swept .none now before entries after)
    (hFollowing : Swept .none earlier after following final) (hEarlier : earlier ≤ now) :
    following = [] ↔ ∀ row ∈ before.schedules.rows, row.active = true →
      row.nextRunAt ≤ earlier → (∃ error, row.nextRunAfter now = .error error) →
        ∃ error, row.nextRunAfter earlier = .error error := by
  constructor
  · rintro rfl row hRow hActive hTime ⟨error, hError⟩
    have hStored := before.schedules.find?_key hRow
    -- The first sweep has left the row as it was.
    have hLeft : after.schedules.find? row.id = some row := by
      refine (h.others row.id fun entry hEntry hId => ?_).trans hStored
      obtain ⟨other, next, hOther, -, -, -, hNext⟩ := (h.fires row.id).mp ⟨entry, hEntry, hId⟩
      obtain rfl := Option.some.inj (hStored.symm.trans hOther)
      cases hError.symm.trans hNext
    cases hNext : row.nextRunAfter earlier with
    | error other => exact ⟨other, rfl⟩
    | ok next =>
        obtain ⟨entry, hEntry, -⟩ := (hFollowing.fires row.id).mpr
          ⟨row, next, hLeft, hActive, hTime, rfl, hNext⟩
        cases hEntry
  · intro hNever
    refine List.eq_nil_iff_forall_not_mem.mpr fun entry hEntry => ?_
    obtain ⟨row, next, hRow, hActive, hTime, -, hNext⟩ :=
      (hFollowing.fires entry.scheduleId).mp ⟨entry, hEntry, rfl⟩
    by_cases hFired : ∃ first ∈ entries, first.scheduleId = entry.scheduleId
    · -- A schedule that was fired has moved on past both times.
      obtain ⟨first, hFirst, hId⟩ := hFired
      obtain ⟨_, moved, last, -, -, hLater, hMoved⟩ := h.advanced first hFirst
      rw [hId, hRow] at hMoved
      obtain rfl := Option.some.inj hMoved
      exact hTime (Timestamp.lt_of_le_of_lt hEarlier hLater)
    · have hLeft := h.others entry.scheduleId fun first hFirst hId => hFired ⟨first, hFirst, hId⟩
      rw [hRow] at hLeft
      have hMem := ((before.schedules.find?_eq_some_iff _ _).mp hLeft.symm).1
      have hBarren : ∃ error, row.nextRunAfter now = .error error := by
        cases hFirst : row.nextRunAfter now with
        | error error => exact ⟨error, rfl⟩
        | ok other =>
            have hDue := Timestamp.le_trans hTime hEarlier
            exact absurd ((h.fires entry.scheduleId).mpr
              ⟨row, other, hLeft.symm, hActive, hDue, rfl, hFirst⟩) hFired
      obtain ⟨error, hError⟩ := hNever row hMem hActive hTime hBarren
      cases hError.symm.trans hNext

theorem closeSweep_aloneUnless {past : List Exchange} (entries : List SweepEntry) :
    (closeSweep entries).Fulfills (.aloneUnless refusals clock)
      (fun _ result held => result = entries ∧ held = before) past before := by
  unfold closeSweep
  split
  · refine (writeLog_aloneUnless _ _).andThen ?_
    rintro _ _ _ rfl
    exact pure_aloneUnless ⟨rfl, rfl⟩
  · exact pure_aloneUnless ⟨rfl, rfl⟩

/-- In every order of the requests a sweep has its effect. -/
theorem sweepInOrder_aloneUnless {past : List Exchange} (context : DeliveryContext)
    (order : List Nat) (hWindow : clock.subSeconds? context.settings.lookback ≠ none) :
    (sweepInOrder context now order).Fulfills (.aloneUnless refusals clock)
      (fun _ result held => ∃ entries, result = .ok entries ∧
        Swept refusals now before entries held) past before := by
  unfold sweepInOrder
  refine claimAllDue_aloneUnless.andThen ?_
  rintro _ _ _ ⟨rfl, rfl⟩
  have hApart := before.pairwise_claimable refusals now
  refine (sweepDeliveries_aloneUnless context order refusals hApart hWindow).andThen ?_
  rintro _ entries held ⟨hIds, hRemembers, hNotes⟩
  refine (closeSweep_aloneUnless entries).andThen ?_
  rintro _ _ _ ⟨rfl, rfl⟩
  exact pure_aloneUnless ⟨_, rfl, hNotes.swept hIds hRemembers⟩

end Effect

theorem Sweeps.swept {refusals : Refusals} {context : DeliveryContext} {now : Timestamp}
    {world : World} {result : Except Fault (Except UpkeepError (List SweepEntry)) × World}
    (h : Sweeps refusals context now world result) (hQuiet : world.disturbance = .none)
    (hWindow : world.clock.subSeconds? context.settings.lookback ≠ none) :
    ∃ entries, result.1 = .ok (.ok entries) ∧
      Swept refusals now world.store entries result.2.store := by
  obtain ⟨order, rfl⟩ := h
  have hAlone : (sweepInOrder context now order).Fulfills (.aloneUnless refusals world.clock)
      _ [] world.store := sweepInOrder_aloneUnless context order hWindow
  obtain ⟨_, -, hValue, entries, rfl, hSwept⟩ := hAlone.run_aloneUnless hQuiet
  exact ⟨entries, hValue, hSwept⟩

/-- The sweep that runs is one of those. -/
theorem sweeps_sweep (context : DeliveryContext) (now : Timestamp) (world : World) :
    Sweeps .none context now world (sweep context now world) := by
  obtain ⟨order, hOrder⟩ := exists_run_sweepInOrder_eq context now world
  have hAnswer : World.answerUnless .none = fun asked world => world.answer asked :=
    funext fun asked => funext (World.answerUnless_none asked)
  refine ⟨order, ?_⟩
  rw [hAnswer, ← Program.run_eq_runWith]
  exact hOrder

/-- Without other writers a sweep is complete, and its schedules do not get in each other's way,
whichever advances are refused and in whatever order the deliveries make their requests.  If
none is refused, then of two sweeps the second one, at the same or an earlier time, is idle
unless a due schedule has a next run from its time on but had none from that of the first. -/
theorem sweep_is_complete_and_isolated (context : DeliveryContext) (now : Timestamp)
    (world : World) (hQuiet : world.disturbance = .none)
    (hWindow : world.clock.subSeconds? context.settings.lookback ≠ none) :
    Sweeps .none context now world (sweep context now world) ∧
      (∀ refusals result, Sweeps refusals context now world result →
        ∃ entries, result.1 = .ok (.ok entries) ∧
          Swept refusals now world.store entries result.2.store) ∧
      ∀ result, Sweeps .none context now world result →
        ∀ earlier, earlier ≤ now → ∀ later : World, later.disturbance = .none →
          later.clock.subSeconds? context.settings.lookback ≠ none →
          later.store = result.2.store →
          ∀ following, Sweeps .none context earlier later following →
            ∃ entries, following.1 = .ok (.ok entries) ∧
              (entries = [] ↔ ∀ row ∈ world.store.schedules.rows, row.active = true →
                row.nextRunAt ≤ earlier → (∃ error, row.nextRunAfter now = .error error) →
                  ∃ error, row.nextRunAfter earlier = .error error) ∧
              (entries = [] → following.2.store = result.2.store) := by
  refine ⟨sweeps_sweep context now world, fun _ _ h => h.swept hQuiet hWindow, ?_⟩
  intro result hResult earlier hEarlier later hLaterQuiet hLaterWindow hStore following hFollowing
  obtain ⟨fired, -, hSwept⟩ := hResult.swept hQuiet hWindow
  obtain ⟨entries, hEntries, hAgain⟩ := hFollowing.swept hLaterQuiet hLaterWindow
  rw [hStore] at hAgain
  exact ⟨entries, hEntries, hSwept.following_eq_nil_iff hAgain hEarlier, hAgain.idle⟩

theorem World.store_start (store : Store) (clock : Timestamp) :
    (start store clock).store = store := rfl

/-- The entries of a sweep that has come to its end. -/
def entries? : Except Fault (Except UpkeepError (List SweepEntry)) → Option (List SweepEntry)
  | .ok (.ok entries) => some entries
  | _ => none

/-- Schedules of every noon, one of them for a ref that is gone, and one that is never due
again. -/
def crowdedStore : Store :=
  Store.ofSnapshot { Snapshot.empty with
    projects := [⟨1, "group/app", true, none, []⟩]
    users := [⟨1, "ada"⟩]
    refs := [⟨1, "main", "commit 1", "Fix a typo"⟩]
    schedules := [noonSchedule, { noonSchedule with id := 2 },
      { noonSchedule with id := 3, cron := "0 0 12 * * * 1969" },
      { noonSchedule with id := 4, ref := "gone" }] }

def crowdedWorld : World := World.start crowdedStore ⟨43200, 0⟩

/-- The advance of the second schedule is refused. -/
def secondRefused : Refusals where
  answer? id := if id = 2 then some (.ok false) else none
  lost id := by split <;> nofun

theorem sweep_is_complete_and_isolated_noon :
    entries? ((sweepInOrder quietContext ⟨43200, 0⟩ [1, 0, 1]).runWith
        (World.answerUnless secondRefused) crowdedWorld).1 =
      some [⟨1, .created 1⟩, ⟨4, .creationFailed "Reference not found"⟩] ∧
    (∃ entries, ((sweepInOrder quietContext ⟨43200, 0⟩ [1, 0, 1]).runWith
          (World.answerUnless secondRefused) crowdedWorld).1 = .ok (.ok entries) ∧
      Swept secondRefused ⟨43200, 0⟩ crowdedWorld.store entries
        ((sweepInOrder quietContext ⟨43200, 0⟩ [1, 0, 1]).runWith
          (World.answerUnless secondRefused) crowdedWorld).2.store) ∧
    entries? (sweep quietContext ⟨43200, 0⟩
      (World.start (sweep quietContext ⟨43200, 0⟩ crowdedWorld).2.store ⟨43200, 0⟩)).1 =
        some [] := by
  obtain ⟨hSweep, hSwept, hFollowing⟩ :=
    sweep_is_complete_and_isolated quietContext ⟨43200, 0⟩ crowdedWorld rfl (by decide)
  obtain ⟨entries, hEntries, hIdle, -⟩ := hFollowing _ hSweep ⟨43200, 0⟩
    (Timestamp.lt_irrefl _)
    (World.start (sweep quietContext ⟨43200, 0⟩ crowdedWorld).2.store ⟨43200, 0⟩)
    rfl (by decide) (World.store_start _ _) _ (sweeps_sweep _ _ _)
  obtain rfl := hIdle.mpr fun _ _ _ _ hNever => hNever
  refine ⟨by decide +kernel, hSwept secondRefused _ ⟨[1, 0, 1], rfl⟩, ?_⟩
  rw [hEntries]
  rfl

/-- A schedule of all days of one year, not yet fired. -/
def oneYearStore : Store :=
  Store.ofSnapshot { Snapshot.empty with
    projects := [⟨1, "group/app", true, none, []⟩]
    users := [⟨1, "ada"⟩]
    refs := [⟨1, "main", "commit 1", "Fix a typo"⟩]
    schedules := [{ noonSchedule with
      cron := "0 0 0 * * * 2030", nextRunAt := ⟨1893456000, 0⟩ }] }

/-- When that year is over the schedule has no further instant, but a sweep in the middle of the
year still fires it. -/
theorem following_sweep_may_fire :
    ¬ ∀ (context : DeliveryContext) (now earlier : Timestamp) (world : World),
      world.disturbance = .none → world.clock.subSeconds? context.settings.lookback ≠ none →
        earlier ≤ now →
          entries? (sweep context earlier (sweep context now world).2).1 = some [] := by
  intro h
  have hIdle := h quietContext ⟨1924992000, 0⟩ ⟨1906545600, 0⟩
    (World.start oneYearStore ⟨1924992000, 0⟩) rfl (by decide) (by decide)
  have hFires : entries? (sweep quietContext ⟨1906545600, 0⟩ (sweep quietContext ⟨1924992000, 0⟩
      (World.start oneYearStore ⟨1924992000, 0⟩)).2).1 = some [⟨1, .created 1⟩] := by
    decide +kernel
  cases hFires.symm.trans hIdle

end PipelineUpkeep
