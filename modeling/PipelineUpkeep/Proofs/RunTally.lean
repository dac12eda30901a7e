import PipelineUpkeep.Proofs.CandidatePages
import PipelineUpkeep.Proofs.PassSorting
import PipelineUpkeep.Proofs.RunOutline
/-!
# The tally of a cancellation run

A conflict may strike after any prefix of a batch, and the pass starts over on a store that
others have changed.  The summary counts the canceled pipelines over all passes, and those
left alone over the last one only.  Even so nothing is lost and nothing is counted twice:
however a run ends, its canceled pipelines are those that have one audit record each, and if
it completes, it has listed everything that its last pass has read at one place.
-/

namespace PipelineUpkeep

open Time

/-- A run over selected candidates, which shows its summary however it ends. -/
def talliedRun (settings : CancellationSettings) (context : PassContext) (candidates : Query)
    (strategy : Strategy) :
    Program (CancellationSummary × Except UpkeepError CancellationReport) := do
  let run ← cancelCandidates settings context candidates
  let report ← reportRun context.initiator strategy run
  return (run.2, report)

/-- What a run does with its candidates, apart from showing the summary. -/
theorem runSelected_eq_talliedRun (settings : CancellationSettings) (pipeline : Pipeline)
    (project : Project) (strategy : Strategy) (windowStart : Timestamp)
    (headSha : Option String) :
    runSelected settings pipeline project strategy windowStart headSha =
      talliedRun settings
          { initiator := pipeline
            links := settings.webBaseUrl.map (PipelineLinks.ofAddress · project.path)
            batchSize := settings.batchSize }
          (candidateQuery strategy pipeline windowStart headSha) strategy >>=
        fun ending => pure ending.2 := by
  simp only [talliedRun, runSelected, Program.bind_assoc']
  congr 1
  funext run
  exact (Program.bind_done _).symm

/-- The queries that a run may be given: nothing at all, or the candidates of a strategy. -/
def Query.IsSelection (candidates : Query) : Prop :=
  candidates = .empty ∨ ∃ strategy pipeline windowStart headSha,
    candidates = candidateQuery strategy pipeline windowStart headSha

/-- A selected query finds only pipelines that may be canceled. -/
theorem Query.IsSelection.isCancelable {candidates : Query} (h : candidates.IsSelection)
    {store : Store} {row : Pipeline} (hRow : row ∈ store.evaluate candidates) :
    row.status.isCancelable = true := by
  rcases h with rfl | ⟨strategy, pipeline, windowStart, headSha, rfl⟩
  · exact absurd hRow List.not_mem_nil
  · exact ((mem_evaluate_candidateQuery_iff_qualifies strategy headSha row).mp hRow).1

theorem Query.IsSelection.limit_eq_none {candidates : Query} (h : candidates.IsSelection) :
    candidates.limit = none := by
  rcases h with rfl | ⟨strategy, pipeline, windowStart, headSha, rfl⟩
  · rfl
  · exact limit_candidateQuery strategy pipeline windowStart headSha

section Requests

variable {past : List Exchange} {store : Store}

theorem ask_ensures_sameTally {asked : Request}
    (hPlain : ∀ answer, Exchange.IsPlain ⟨asked, answer⟩) :
    (Program.ask asked).Ensures
      (fun later _ held => SameTally past later ∧ store.KeepsSettled held) past store := by
  refine (Program.ensures_ask asked).imp ?_
  rintro later answer held ⟨rfl, before, after, hBefore, hEnds, hHeld⟩
  exact ⟨(hPlain answer).sameTally past, hBefore.trans (hEnds.keepsSettled.trans hHeld)⟩

theorem writeLog_ensures (level : LogLevel) (message : String) :
    (Program.writeLog level message).Ensures
      (fun later _ held => SameTally past later ∧ store.KeepsSettled held) past store :=
  ask_ensures_sameTally fun _ => ⟨rfl, rfl, rfl, rfl⟩

theorem readClock_ensures :
    Program.readClock.Ensures
      (fun later _ held => SameTally past later ∧ store.KeepsSettled held) past store :=
  ask_ensures_sameTally fun _ => ⟨rfl, rfl, rfl, rfl⟩

/-- A pause is followed by another pass, which has read nothing yet. -/
theorem sleep_ensures (span : Span) :
    (Program.sleep span).Ensures
      (fun later _ held => SameAccount past later ∧ idsRead later = [] ∧
        store.KeepsSettled held) past store := by
  refine (Program.ensures_ask (.sleep span)).imp ?_
  rintro later answer held ⟨rfl, before, after, hBefore, hEnds, hHeld⟩
  refine ⟨sameAccount_append rfl rfl, ?_, hBefore.trans (hEnds.keepsSettled.trans hHeld)⟩
  rw [idsRead_append_singleton]
  rfl

/-- A read that succeeds gives what some store on the way holds. -/
theorem pipelines_ensures (query : Query) :
    (Program.pipelines query).Ensures
      (fun later result held => SameAccount past later ∧ store.KeepsSettled held ∧
        (∀ error, result = .error error → idsRead later = idsRead past) ∧
        ∀ rows, result = .ok rows →
          idsRead later =
            idsRead past ++ (if query.limit.isSome then rows.map (·.id) else []) ∧
          ∃ before, store.KeepsSettled before ∧ rows = before.evaluate query) past store := by
  refine (Program.ensures_ask (.store .engine (.pipelines query))).imp ?_
  rintro later answer held ⟨rfl, before, after, hBefore, hEnds, hHeld⟩
  refine ⟨sameAccount_append rfl rfl, hBefore.trans (hEnds.keepsSettled.trans hHeld), ?_, ?_⟩
  · rintro error rfl
    rw [idsRead_append_singleton]
    exact List.append_nil _
  · rintro rows rfl
    refine ⟨?_, before, hBefore, ?_⟩
    · rw [idsRead_append_singleton]
      rfl
    · rcases hEnds with hOccurs | ⟨⟨error, hError⟩, -⟩
      · exact (Except.ok.inj (congrArg Prod.fst hOccurs)).symm
      · cases hError

/-- A pipeline that is canceled was not canceled before, and has settled now. -/
theorem cancelRunning_ensures {row : Pipeline} {request : CancelRequest}
    (hSingle : request.cascade = false) (hForGood : CanceledForGood past store) :
    (Program.cancelRunning row request).Ensures
      (fun later result held => store.KeepsSettled held ∧
        auditRecords later = auditRecords past ∧ idsRead later = idsRead past ∧
        CanceledForGood later held ∧
        (result = .ok .canceled → canceledIds later = canceledIds past ++ [row.id]) ∧
        (result ≠ .ok .canceled → canceledIds later = canceledIds past)) past store := by
  obtain ⟨canceledById, cascade⟩ := request
  obtain rfl : cascade = false := hSingle
  refine (Program.ensures_ask (.store .engine (.cancelRunning row ⟨canceledById, false⟩))).imp ?_
  rintro later answer held ⟨hLater, before, after, hBefore, hEnds, hHeld⟩
  have hKeeps := hBefore.trans (hEnds.keepsSettled.trans hHeld)
  have hRecords : auditRecords later = auditRecords past := by
    rw [hLater, auditRecords_append]
    exact List.append_nil _
  have hRead : idsRead later = idsRead past := by
    rw [hLater, idsRead_append_singleton]
    exact List.append_nil _
  by_cases hCanceled : answer = .ok .canceled
  · subst hCanceled
    have hIds : canceledIds later = canceledIds past ++ [row.id] := by
      rw [hLater, canceledIds_append]
      rfl
    -- What was canceled before has settled, so it is not this pipeline.
    obtain ⟨hOpen, hSettled⟩ := hEnds.settles
    have hNew : row.id ∉ canceledIds past := fun hOld =>
      hOpen (hBefore _ (hForGood.settled _ hOld))
    exact ⟨hKeeps, hRecords, hRead,
      hForGood.addCanceled hIds hKeeps hNew (hHeld _ hSettled), fun _ => hIds,
      fun h => absurd rfl h⟩
  · have hIds : canceledIds later = canceledIds past := by
      rw [hLater, canceledIds_append]
      match answer, hCanceled with
      | .ok .canceled, hOther => exact absurd rfl hOther
      | .ok (.alreadyResolved _), _ => exact List.append_nil _
      | .error _, _ => exact List.append_nil _
    exact ⟨hKeeps, hRecords, hRead, hForGood.later hIds hKeeps, fun h => absurd h hCanceled,
      fun _ => hIds⟩

theorem emit_ensures (entry : AuditRecord) :
    (Program.emit entry).Ensures
      (fun later _ held => store.KeepsSettled held ∧ canceledIds later = canceledIds past ∧
        auditRecords later = auditRecords past ++ [entry] ∧ idsRead later = idsRead past)
      past store := by
  unfold Program.emit
  refine (Program.ensures_ask (.audit entry)).andThen ?_
  rintro handed failure held ⟨hHanded, before, after, hBefore, hEnds, hHeld⟩
  have hKeeps := hBefore.trans (hEnds.keepsSettled.trans hHeld)
  have hCanceled : canceledIds handed = canceledIds past := by
    rw [hHanded, canceledIds_append]
    exact List.append_nil _
  have hRecords : auditRecords handed = auditRecords past ++ [entry] := by
    rw [hHanded, auditRecords_append]
    rfl
  have hRead : idsRead handed = idsRead past := by
    rw [hHanded, idsRead_append_singleton]
    exact List.append_nil _
  cases failure with
  | none =>
      exact Program.fulfills_pure fun last hLast => ⟨hKeeps.trans hLast, hCanceled, hRecords, hRead⟩
  | some reason =>
      refine (writeLog_ensures _ _).imp ?_
      rintro later _ last ⟨hSame, hLast⟩
      exact ⟨hKeeps.trans hLast, hSame.canceledIds_eq.trans hCanceled,
        hSame.auditRecords_eq.trans hRecords, hSame.idsRead_eq.trans hRead⟩

end Requests

section Passes

variable {context : PassContext} {limit attempt : Nat} {past : List Exchange} {store : Store}
  {summary : CancellationSummary}

theorem cancelOne_ensures (row : Pipeline) (hAudited : Audited past)
    (hForGood : CanceledForGood past store) :
    (context.cancelOne row).Ensures
      (fun later result held => Audited later ∧ CanceledForGood later held ∧
        idsRead later = idsRead past ∧
        (result = .ok .canceled → canceledIds later = canceledIds past ++ [row.id]) ∧
        (result ≠ .ok .canceled → canceledIds later = canceledIds past)) past store := by
  unfold PassContext.cancelOne
  refine (cancelRunning_ensures rfl hForGood).andThen ?_
  rintro called result held ⟨-, hRecords, hRead, hCalled, hCanceled, hKept⟩
  match result with
  | .error error =>
      have hSame : SameAccount past called := ⟨hKept nofun, hRecords⟩
      exact Program.fulfills_pure fun last hLast => ⟨hAudited.of_sameAccount hSame,
        hCalled.later rfl hLast, hRead, nofun, fun _ => hSame.canceledIds_eq⟩
  | .ok (.alreadyResolved status) =>
      have hSame : SameAccount past called := ⟨hKept nofun, hRecords⟩
      refine (writeLog_ensures _ _).andThen ?_
      rintro logged _ logHeld ⟨hLogged, hLogHeld⟩
      have hAll := hSame.trans hLogged.toSameAccount
      exact Program.fulfills_pure fun last hLast => ⟨hAudited.of_sameAccount hAll,
        hCalled.later hLogged.canceledIds_eq (hLogHeld.trans hLast),
        hLogged.idsRead_eq.trans hRead, nofun, fun _ => hAll.canceledIds_eq⟩
  | .ok .canceled =>
      refine (writeLog_ensures _ _).andThen ?_
      rintro logged _ logHeld ⟨hLogged, hLogHeld⟩
      refine readClock_ensures.andThen ?_
      rintro timed now timeHeld ⟨hTimed, hTimeHeld⟩
      have hSame := hLogged.trans hTimed
      refine (emit_ensures _).andThen ?_
      rintro emitted _ emitHeld ⟨hEmitHeld, hSameIds, hRecord, hSameRead⟩
      have hIds : canceledIds emitted = canceledIds past ++ [row.id] :=
        hSameIds.trans (hSame.canceledIds_eq.trans (hCanceled rfl))
      have hKeeps := hLogHeld.trans (hTimeHeld.trans hEmitHeld)
      refine Program.fulfills_pure fun last hLast => ⟨?_,
        hCalled.later (hSameIds.trans hSame.canceledIds_eq) (hKeeps.trans hLast),
        hSameRead.trans (hSame.idsRead_eq.trans hRead), fun _ => hIds, fun h => absurd rfl h⟩
      unfold Audited
      rw [hIds, hRecord, hSame.auditRecords_eq, hRecords, List.map_append, hAudited]
      rfl

/-- How a pass ends, or a part of one: it has kept the tally, and unless it failed, it has
sorted everything that was pending. -/
def PassEnds (limit attempt : Nat) (later : List Exchange)
    (result : Except StoreError Unit × CancellationSummary) (held : Store) : Prop :=
  Tallied limit attempt later result.2 held ∧ (result.1 = .ok () → Sorted later result.2 [])

/-- The pending pipelines of a batch are sorted one after the other. -/
theorem cancelEach_ensures {rows : List Pipeline}
    (hTallied : Tallied limit attempt past summary store)
    (hSorted : Sorted past summary (rows.map (·.id))) :
    (context.cancelEach rows summary).Ensures
      (fun later result held => idsRead later = idsRead past ∧
        PassEnds limit attempt later result held) past store := by
  induction rows generalizing past store summary with
  | nil =>
      exact Program.fulfills_pure fun last hLast =>
        ⟨rfl, hTallied.later (.refl past) hLast, fun _ => hSorted⟩
  | cons row rest ih =>
      refine (cancelOne_ensures row hTallied.accounted.audited hTallied.forGood).andThen ?_
      rintro later result held ⟨hAudited, hForGood, hRead, hCanceled, hKept⟩
      have hSame (h : result ≠ .ok .canceled) : Tallied limit attempt later summary held := by
        refine ⟨⟨hAudited, fun id => ?_⟩, hForGood, hTallied.largestBatch, hTallied.attempts⟩
        rw [hKept h]
        exact hTallied.accounted.mem_canceled_iff id
      match result with
      | .error error =>
          exact Program.fulfills_pure fun last hLast =>
            ⟨hRead, (hSame nofun).later (.refl later) hLast, nofun⟩
      | .ok .canceled =>
          have hNext : Tallied limit attempt later (summary.addCanceled row.id) held :=
            ⟨hTallied.accounted.addCanceled hAudited (hCanceled rfl), hForGood,
              hTallied.largestBatch, hTallied.attempts⟩
          refine (ih hNext (hSorted.addCanceled.later hRead)).imp ?_
          exact fun _ _ _ ⟨hLast, hEnds⟩ => ⟨hLast.trans hRead, hEnds⟩
      | .ok (.alreadyResolved status) =>
          have hNext : Tallied limit attempt later (summary.addAlreadyResolved row.id) held :=
            (hSame nofun).of_canceled_eq rfl hTallied.largestBatch hTallied.attempts
          refine (ih hNext (hSorted.addAlreadyResolved.later hRead)).imp ?_
          exact fun _ _ _ ⟨hLast, hEnds⟩ => ⟨hLast.trans hRead, hEnds⟩

/-- The second query finds some of the identifiers, each at most once. -/
theorem filterInterruptible_ensures (ids : List Nat) :
    (filterInterruptible ids).Ensures
      (fun later result held => SameTally past later ∧ store.KeepsSettled held ∧
        ∀ eligible, result = .ok eligible →
          (eligible.map (·.id)).Nodup ∧ ∀ row ∈ eligible, row.id ∈ ids) past store := by
  unfold filterInterruptible
  split
  · refine Program.fulfills_pure fun last hLast => ⟨.refl past, hLast, ?_⟩
    rintro _ ⟨⟩
    exact ⟨List.nodup_nil, fun _ hRow => absurd hRow List.not_mem_nil⟩
  · refine (pipelines_ensures (interruptibleQuery ids)).imp ?_
    rintro later result held ⟨hSame, hKeeps, hError, hOk⟩
    refine ⟨⟨hSame, ?_⟩, hKeeps, ?_⟩
    · match result with
      | .error error => exact hError error rfl
      | .ok rows => exact (hOk rows rfl).1.trans (List.append_nil _)
    · rintro eligible rfl
      obtain ⟨-, before, -, rfl⟩ := hOk eligible rfl
      refine ⟨?_, fun row hRow => ?_⟩
      · exact (List.pairwise_map.mpr (before.evaluate_pairwise_lt _)).imp fun h => Nat.ne_of_lt h
      · exact (before.mem_evaluate_interruptibleQuery_iff.mp hRow).2.1

theorem cancelBatch_ensures {ids : List Nat}
    (hTallied : Tallied limit attempt past summary store) (hSorted : Sorted past summary ids) :
    (context.cancelBatch ids summary).Ensures
      (fun later result held => idsRead later = idsRead past ∧
        PassEnds limit attempt later result held) past store := by
  unfold PassContext.cancelBatch
  refine (filterInterruptible_ensures ids).andThen ?_
  rintro later result held ⟨hSame, hHeld, hEligible⟩
  have hNow := hTallied.later hSame.toSameAccount hHeld
  match result with
  | .error error =>
      exact Program.fulfills_pure fun last hLast =>
        ⟨hSame.idsRead_eq, hNow.later (.refl later) hLast, nofun⟩
  | .ok eligible =>
      obtain ⟨hNodup, hIds⟩ := hEligible eligible rfl
      have hLeft (id : Nat) : id ∈ ids.filter (fun id => !eligible.any (·.id == id)) ↔
          id ∈ ids ∧ id ∉ eligible.map (·.id) := by
        simp [List.mem_filter]
      have hRest : Sorted past
          (summary.addNotInterruptible (ids.filter fun id => !eligible.any (·.id == id)))
          (eligible.map (·.id)) := by
        refine hSorted.addNotInterruptible (fun id => ?_) (fun id hKept h => ?_) hNodup
        · rw [hLeft]
          constructor
          · intro hId
            by_cases hFound : id ∈ eligible.map (·.id)
            · exact Or.inl hFound
            · exact Or.inr ⟨hId, hFound⟩
          · rintro (hFound | ⟨hId, -⟩)
            · obtain ⟨row, hRow, rfl⟩ := List.mem_map.mp hFound
              exact hIds row hRow
            · exact hId
        · exact ((hLeft id).mp h).2 hKept
      have hNoted : Tallied limit attempt later
          (summary.addNotInterruptible (ids.filter fun id => !eligible.any (·.id == id))) held :=
        hNow.of_canceled_eq rfl hNow.largestBatch hNow.attempts
      refine (cancelEach_ensures hNoted (hRest.later hSame.idsRead_eq)).imp ?_
      exact fun _ _ _ ⟨hLast, hEnds⟩ => ⟨hLast.trans hSame.idsRead_eq, hEnds⟩

/-- In increasing order the last identifier is the greatest. -/
theorem le_of_getLast?_eq_some {ids : List Nat} (hSorted : ids.Pairwise (· < ·)) {last : Nat}
    (hLast : ids.getLast? = some last) : ∀ id ∈ ids, id ≤ last := by
  obtain ⟨front, rfl⟩ := List.getLast?_eq_some_iff.mp hLast
  intro id hId
  rcases List.mem_append.mp hId with hFront | hSame
  · have hAcross := (List.pairwise_append.mp hSorted).2.2
    exact Nat.le_of_lt (hAcross id hFront last (List.mem_singleton_self last))
  · exact Nat.le_of_eq (List.mem_singleton.mp hSame)

/-- A batch starts past everything that was read and holds nothing that was canceled. -/
theorem batch_is_new {candidates : Query} (hSelection : candidates.IsSelection)
    {after : Option Nat} {before : Store} {rows : List Pipeline}
    (hRows : rows = before.evaluate (context.batchQuery candidates after)) :
    (rows.map (·.id)).Pairwise (· < ·) ∧ rows.length ≤ context.batchLimit ∧
      (∀ id ∈ rows.map (·.id), ∀ last, after = some last → last < id) ∧
      ∀ id ∈ rows.map (·.id), ¬ before.IsSettled id := by
  have hSorted : rows.Pairwise (·.id < ·.id) := by
    rw [hRows]
    exact before.evaluate_pairwise_lt _
  rw [context.evaluate_batchQuery hSelection.limit_eq_none] at hRows
  have hPast : ∀ row ∈ rows, row ∈ before.evaluate candidates ∧
      after.all (fun id => decide (id < row.id)) = true := by
    intro row hRow
    rw [hRows] at hRow
    exact List.mem_filter.mp (List.mem_of_mem_take hRow)
  refine ⟨List.pairwise_map.mpr hSorted, ?_, ?_, ?_⟩
  · rw [hRows]
    exact List.length_take_le _ _
  · rintro id hId last rfl
    obtain ⟨row, hRow, rfl⟩ := List.mem_map.mp hId
    exact of_decide_eq_true (hPast row hRow).2
  · intro id hId hSettled
    obtain ⟨row, hRow, rfl⟩ := List.mem_map.mp hId
    have hFound := (hPast row hRow).1
    have hStatus := hSelection.isCancelable hFound
    rw [hSettled.not_isCancelable ((before.evaluate_sublist _).subset hFound)] at hStatus
    cases hStatus

/-- Batch after batch, everything up to the last identifier is sorted. -/
theorem runBatches_ensures {candidates : Query} (hSelection : candidates.IsSelection)
    {count : Nat} {after : Option Nat}
    (hTallied : Tallied context.batchLimit attempt past summary store)
    (hSorted : Sorted past summary [])
    (hBound : ∀ id ∈ idsRead past, ∃ last, after = some last ∧ id ≤ last) :
    (context.runBatches candidates count after summary).Ensures
      (PassEnds context.batchLimit attempt) past store := by
  induction count generalizing past store after summary with
  | zero =>
      exact Program.fulfills_pure fun last hLast =>
        ⟨hTallied.later (.refl past) hLast, fun _ => hSorted⟩
  | succ count ih =>
      refine (pipelines_ensures _).andThen ?_
      rintro read result held ⟨hSame, hHeld, hError, hOk⟩
      have hNow := hTallied.later hSame hHeld
      match result with
      | .error error =>
          exact Program.fulfills_pure fun last hLast =>
            ⟨hNow.later (.refl read) hLast, nofun⟩
      | .ok rows =>
          obtain ⟨hRead, before, hBefore, hRows⟩ := hOk rows rfl
          obtain ⟨hOrder, hSize, hPast, hOpen⟩ := batch_is_new hSelection hRows
          rw [if_pos (by cases after <;> rfl)] at hRead
          have hBatch : Sorted read summary (rows.map (·.id)) := by
            refine hSorted.readBatch hRead (hOrder.imp fun h => Nat.ne_of_lt h)
              (fun id hId hOld => ?_) fun id hId hCanceled => ?_
            · obtain ⟨last, hLast, hLe⟩ := hBound id hOld
              have hLt := hPast id hId last hLast
              omega
            · have hOld := (hTallied.accounted.mem_canceled_iff id).mp hCanceled
              exact hOpen id hId (hBefore id (hTallied.forGood.settled id hOld))
          simp only
          split
          · rename_i hNone
            rw [List.getLast?_eq_none_iff.mp hNone] at hBatch
            exact Program.fulfills_pure fun last hLast =>
              ⟨hNow.later (.refl read) hLast, fun _ => hBatch⟩
          · rename_i final hFinal
            refine (writeLog_ensures _ _).andThen ?_
            rintro logged _ logHeld ⟨hLogged, hLogHeld⟩
            have hSizes : (rows.map (·.id)).length ≤ context.batchLimit := by
              rw [List.length_map]
              exact hSize
            have hLog : Tallied context.batchLimit attempt logged
                (summary.recordBatch (rows.map (·.id)).length) logHeld :=
              (hNow.later hLogged.toSameAccount hLogHeld).of_canceled_eq rfl
                (Nat.max_le.mpr ⟨hTallied.largestBatch, hSizes⟩) hTallied.attempts
            refine (cancelBatch_ensures hLog
              ((hBatch.recordBatch _).later hLogged.idsRead_eq)).andThen ?_
            rintro later ⟨outcome, total⟩ last ⟨hLater, hTotal, hDone⟩
            match outcome with
            | .error error =>
                exact Program.fulfills_pure fun held hEnd =>
                  ⟨hTotal.later (.refl later) hEnd, nofun⟩
            | .ok () =>
                simp only
                split
                · exact Program.fulfills_pure fun held hEnd =>
                    ⟨hTotal.later (.refl later) hEnd, fun _ => hDone rfl⟩
                · refine ih hTotal (hDone rfl) fun id hId => ⟨final, rfl, ?_⟩
                  rw [hLater, hLogged.idsRead_eq, hRead] at hId
                  rcases List.mem_append.mp hId with hOld | hNew
                  · obtain ⟨last, hLast, hLe⟩ := hBound id hOld
                    have hLt := hPast final (List.mem_of_getLast? hFinal) last hLast
                    omega
                  · exact le_of_getLast?_eq_some hOrder hFinal id hNew

/-- One pass sorts everything that it reads. -/
theorem runPass_ensures {candidates : Query} (hSelection : candidates.IsSelection)
    {earlier : Nat} (hTallied : Tallied context.batchLimit earlier past summary store)
    (hRead : idsRead past = []) (attempt : Nat) :
    (context.runPass candidates (summary.startPass attempt)).Ensures
      (PassEnds context.batchLimit attempt) past store := by
  have hStart : Tallied context.batchLimit attempt past (summary.startPass attempt) store :=
    hTallied.of_canceled_eq rfl hTallied.largestBatch rfl
  refine runBatches_ensures hSelection hStart (.startPass hRead attempt) ?_
  rw [hRead]
  exact fun id hId => absurd hId List.not_mem_nil

end Passes

section Attempts

/-- How a run ends, after at most so many attempts. -/
structure RunEnds (limit maxAttempts : Nat) {α : Type} (later : List Exchange)
    (result : Except UpkeepError α × CancellationSummary) : Prop where
  accounted : Accounted later result.2
  once : (canceledIds later).Nodup
  largestBatch : result.2.largestBatch ≤ limit
  attempts : result.2.attempts ≤ maxAttempts
  sorted : ∀ value, result.1 = .ok value → Sorted later result.2 []
  exhausted : ∀ name count, result.1 = .error (.lockRetriesExhausted name count) →
    count = result.2.attempts ∧ count = maxAttempts

variable {limit maxAttempts : Nat} {past : List Exchange} {store : Store}

theorem RunEnds.later {α : Type} {later : List Exchange}
    {result : Except UpkeepError α × CancellationSummary}
    (h : RunEnds limit maxAttempts past result) (hSame : SameTally past later) :
    RunEnds limit maxAttempts later result where
  accounted := h.accounted.of_sameAccount hSame.toSameAccount
  once := by
    rw [hSame.canceledIds_eq]
    exact h.once
  largestBatch := h.largestBatch
  attempts := h.attempts
  sorted value hValue := (h.sorted value hValue).later hSame.idsRead_eq
  exhausted := h.exhausted

/-- The tally goes on from one attempt to the next; what was left alone is sorted anew. -/
theorem retryFrom_ensures (lock : OptimisticLock)
    {operation : Nat → CancellationSummary →
      Program (Except StoreError Unit × CancellationSummary)}
    (hOperation : ∀ {earlier summary past store}, Tallied limit earlier past summary store →
      idsRead past = [] → ∀ attempt,
        (operation attempt summary).Ensures (PassEnds limit attempt) past store)
    {remaining attempt earlier : Nat} {summary : CancellationSummary}
    (hCount : attempt + remaining = lock.attemptLimit)
    (hTallied : Tallied limit earlier past summary store) (hRead : idsRead past = []) :
    (lock.retryFrom operation remaining attempt summary).Ensures
      (fun later result _ => RunEnds limit lock.attemptLimit later result) past store := by
  induction remaining using Nat.strongRecOn generalizing attempt earlier summary past store with
  | ind remaining ih =>
      unfold OptimisticLock.retryFrom
      refine (hOperation hTallied hRead attempt).andThen ?_
      rintro later ⟨result, total⟩ held ⟨hTotal, hSorted⟩
      have hAttempts : total.attempts ≤ lock.attemptLimit := by
        have hSame := hTotal.attempts
        simp only at hSame
        omega
      cases result with
      | ok value =>
          have hEnds : RunEnds limit lock.attemptLimit later
              ((.ok (value, attempt) : Except UpkeepError (Unit × Nat)), total) :=
            ⟨hTotal.accounted, hTotal.forGood.once, hTotal.largestBatch, hAttempts,
              fun _ _ => hSorted rfl, fun _ _ hError => by cases hError⟩
          simp only
          split
          · refine (writeLog_ensures _ _).andThen ?_
            rintro logged _ _ ⟨hLogged, -⟩
            exact Program.fulfills_pure fun _ _ => hEnds.later hLogged
          · exact Program.fulfills_pure fun _ _ => hEnds
      | error error =>
          simp only
          split
          · cases remaining with
            | zero =>
                refine Program.fulfills_pure fun _ _ => ⟨hTotal.accounted, hTotal.forGood.once,
                  hTotal.largestBatch, hAttempts, fun _ hOk => (by cases hOk), ?_⟩
                rintro name count ⟨⟩
                exact ⟨hTotal.attempts.symm, hCount⟩
            | succ remaining =>
                refine (writeLog_ensures _ _).andThen ?_
                rintro logged _ logHeld ⟨hLogged, hLogHeld⟩
                refine (sleep_ensures _).andThen ?_
                rintro slept _ sleepHeld ⟨hSlept, hNothing, hSleepHeld⟩
                have hNext := hTotal.later (hLogged.toSameAccount.trans hSlept)
                  (hLogHeld.trans hSleepHeld)
                exact ih remaining (Nat.lt_succ_self _) (by omega) hNext hNothing
          · exact Program.fulfills_pure fun _ _ => ⟨hTotal.accounted, hTotal.forGood.once,
              hTotal.largestBatch, hAttempts, fun _ hOk => (by cases hOk),
              fun _ _ hError => by cases hError⟩

/-- A run starts with nothing counted. -/
theorem cancelCandidates_ensures (settings : CancellationSettings) (context : PassContext)
    {candidates : Query} (hSelection : candidates.IsSelection) (hPast : SameTally [] past) :
    (cancelCandidates settings context candidates).Ensures
      (fun later result _ => RunEnds context.batchLimit settings.lock.attemptLimit later result)
      past store := by
  have hNew : Tallied context.batchLimit 0 [] .empty store :=
    ⟨.empty rfl rfl, ⟨List.nodup_nil, fun _ h => absurd h List.not_mem_nil⟩, Nat.zero_le _, rfl⟩
  have hStart := hNew.later hPast.toSameAccount (.refl store)
  unfold cancelCandidates
  split
  · have hNothing : Sorted past (CancellationSummary.empty.startPass 0) [] :=
      .startPass hPast.idsRead_eq 0
    exact Program.fulfills_pure fun _ _ => ⟨hStart.accounted, hStart.forGood.once, Nat.zero_le _,
      Nat.zero_le _, fun _ _ => hNothing, nofun⟩
  · have hLimit : 1 + (settings.lock.attemptLimit - 1) = settings.lock.attemptLimit := by
      have hPos : 1 ≤ settings.lock.attemptLimit := Nat.le_max_left _ _
      omega
    refine (retryFrom_ensures settings.lock (fun hTallied hRead attempt =>
      runPass_ensures hSelection hTallied hRead attempt) hLimit hStart
      hPast.idsRead_eq).andThen ?_
    rintro later ⟨result, total⟩ held hEnds
    refine Program.fulfills_pure fun _ _ => ⟨hEnds.accounted, hEnds.once, hEnds.largestBatch,
      hEnds.attempts, ?_, ?_⟩
    · cases result with
      | ok value => exact fun _ _ => hEnds.sorted value rfl
      | error error => exact nofun
    · cases result with
      | ok value => exact nofun
      | error error =>
          rintro name count ⟨⟩
          exact hEnds.exhausted name count rfl

/-- A report shows the summary; it tells of completion after a pass without error, and of
abandonment after the last attempt. -/
theorem reportRun_ensures (pipeline : Pipeline) (strategy : Strategy)
    (run : Except UpkeepError Unit × CancellationSummary) :
    (reportRun pipeline strategy run).Ensures
      (fun later report _ => SameTally past later ∧ ∀ result, report = .ok result →
        result.summary = run.2 ∧ (result.outcome = .completed → run.1 = .ok ()) ∧
          ∀ count, result.outcome = .abandoned count →
            ∃ name, run.1 = .error (.lockRetriesExhausted name count)) past store := by
  obtain ⟨ending, summary⟩ := run
  -- The last lines of the program, for either outcome.
  have hFinish (outcome : CancellationOutcome) {later : List Exchange} {held : Store}
      (hSame : SameTally past later) :
      (do
        let count := summary.canceled.toList.length
        if count > 0 then
          Program.info
            s!"Pipeline {pipeline.id} canceled {count} redundant pipeline(s) on {pipeline.ref}"
        return (.ok ⟨pipeline.id, outcome, some strategy, summary⟩ :
          Except UpkeepError CancellationReport)).Ensures
        (fun last report _ => SameTally past last ∧
          report = (.ok ⟨pipeline.id, outcome, some strategy, summary⟩ :
            Except UpkeepError CancellationReport)) later held := by
    simp only
    split
    · refine (writeLog_ensures _ _).andThen ?_
      rintro logged _ _ ⟨hLogged, -⟩
      exact Program.fulfills_pure fun _ _ => ⟨hSame.trans hLogged, rfl⟩
    · exact Program.fulfills_pure fun _ _ => ⟨hSame, rfl⟩
  unfold reportRun
  split
  · rename_i hEnding
    refine (hFinish .completed (.refl past)).imp ?_
    rintro later _ _ ⟨hSame, rfl⟩
    refine ⟨hSame, ?_⟩
    rintro _ ⟨⟩
    exact ⟨rfl, fun _ => hEnding, nofun⟩
  · rename_i name count hEnding
    refine (writeLog_ensures _ _).andThen ?_
    rintro warned _ _ ⟨hWarned, -⟩
    refine (hFinish (.abandoned count) hWarned).imp ?_
    rintro later _ _ ⟨hSame, rfl⟩
    refine ⟨hSame, ?_⟩
    rintro _ ⟨⟩
    refine ⟨rfl, nofun, ?_⟩
    rintro _ ⟨⟩
    exact ⟨name, hEnding⟩
  · exact Program.fulfills_pure fun _ _ => ⟨.refl past, nofun⟩

end Attempts

/-! ## The tally at the end -/

/-- What the summary of a run that has ended tells about its exchanges. -/
structure CancellationSummary.Tallies (summary : CancellationSummary) (limit maxAttempts : Nat)
    (past : List Exchange) (report : Except UpkeepError CancellationReport) : Prop where
  recorded_once : ((auditRecords past).map (·.canceledPipelineId)).Nodup
  mem_recorded_iff : ∀ id, id ∈ (auditRecords past).map (·.canceledPipelineId) ↔
    id ∈ summary.canceled.toList
  mem_canceledIds_iff : ∀ id, id ∈ canceledIds past ↔ id ∈ summary.canceled.toList
  largestBatch : summary.largestBatch ≤ limit
  attempts : summary.attempts ≤ maxAttempts
  reported : ∀ result, report = .ok result → result.summary = summary
  apart : ∀ result, report = .ok result → result.outcome = .completed →
    summary.canceled.toList.Disjoint summary.notInterruptible.toList ∧
      summary.canceled.toList.Disjoint summary.alreadyResolved.toList ∧
      summary.notInterruptible.toList.Disjoint summary.alreadyResolved.toList
  covers : ∀ result, report = .ok result → result.outcome = .completed →
    ∀ id ∈ idsRead past, id ∈ summary.canceled.toList ∨ id ∈ summary.notInterruptible.toList ∨
      id ∈ summary.alreadyResolved.toList
  abandoned : ∀ result count, report = .ok result → result.outcome = .abandoned count →
    count = summary.attempts ∧ count = maxAttempts

/-- The places of a sorted summary have nothing in common. -/
theorem Sorted.disjoint {past : List Exchange} {summary : CancellationSummary}
    {pending : List Nat} (h : Sorted past summary pending) (place other : Place)
    (hOther : place ≠ other) : (summary.idsAt place).Disjoint (summary.idsAt other) :=
  fun id hFirst hSecond => hOther (h.once id place other hFirst hSecond)

theorem talliedRun_ensures (settings : CancellationSettings) (context : PassContext)
    {candidates : Query} (hSelection : candidates.IsSelection) (strategy : Strategy)
    {past : List Exchange} (hPast : SameTally [] past) {store : Store} :
    (talliedRun settings context candidates strategy).Ensures
      (fun later ending _ => ending.1.Tallies (max 1 context.batchSize)
        (max 1 settings.maxLockAttempts) later ending.2) past store := by
  unfold talliedRun
  refine (cancelCandidates_ensures settings context hSelection hPast).andThen ?_
  rintro canceled run held hEnds
  refine (reportRun_ensures context.initiator strategy run).andThen ?_
  rintro later report last ⟨hSame, hReport⟩
  have hLater := hEnds.later hSame
  have hSorted {result : CancellationReport} (hOk : report = .ok result)
      (hOutcome : result.outcome = .completed) : Sorted later run.2 [] :=
    hLater.sorted () ((hReport result hOk).2.1 hOutcome)
  refine Program.fulfills_pure fun _ _ => ⟨?_, fun id => ?_, fun id => ?_, hLater.largestBatch,
    hLater.attempts, fun result hOk => (hReport result hOk).1, ?_, ?_, ?_⟩
  · rw [hLater.accounted.audited]
    exact hLater.once
  · rw [hLater.accounted.audited]
    exact (hLater.accounted.mem_canceled_iff id).symm
  · exact (hLater.accounted.mem_canceled_iff id).symm
  · intro result hOk hOutcome
    have hDone := hSorted hOk hOutcome
    exact ⟨hDone.disjoint .canceled .notInterruptible nofun,
      hDone.disjoint .canceled .alreadyResolved nofun,
      hDone.disjoint .notInterruptible .alreadyResolved nofun⟩
  · intro result hOk hOutcome id hId
    rcases (hSorted hOk hOutcome).covered id hId with hNone | ⟨place, hPlace⟩
    · exact absurd hNone List.not_mem_nil
    · cases place with
      | canceled => exact Or.inl hPlace
      | notInterruptible => exact Or.inr (Or.inl hPlace)
      | alreadyResolved => exact Or.inr (Or.inr hPlace)
  · intro result count hOk hOutcome
    obtain ⟨name, hError⟩ := (hReport result hOk).2.2 count hOutcome
    exact hLater.exhausted name count hError

/-- Whatever the others write, whichever calls fail and whatever becomes of the audit
records: the summary of a run that has ended tallies with what the run has done. -/
theorem summary_tallies_at_end {settings : CancellationSettings} {context : PassContext}
    {candidates : Query} {strategy : Strategy} {store held : Store} {past : List Exchange}
    {summary : CancellationSummary} {report : Except UpkeepError CancellationReport}
    (hSelection : candidates.IsSelection)
    (hRun : Unfolds store (talliedRun settings context candidates strategy) past held
      (.done (summary, report))) :
    summary.Tallies (max 1 context.batchSize) (max 1 settings.maxLockAttempts) past report :=
  hRun.ensures (talliedRun_ensures settings context hSelection strategy (.refl [])) held
    (.refl held)

/-- A run that is skipped has nothing to count. -/
theorem CancellationReport.tallies_ofSkip {past : List Exchange} (hPast : SameTally [] past)
    (limit maxAttempts id : Nat) (reason : SkipReason) :
    (ofSkip id reason).summary.Tallies limit maxAttempts past (.ok (ofSkip id reason)) where
  recorded_once := by
    rw [hPast.auditRecords_eq]
    exact List.nodup_nil
  mem_recorded_iff id := by
    rw [hPast.auditRecords_eq]
    exact Iff.rfl
  mem_canceledIds_iff id := by
    rw [hPast.canceledIds_eq]
    exact Iff.rfl
  largestBatch := Nat.zero_le limit
  attempts := Nat.zero_le maxAttempts
  reported := by
    rintro _ ⟨⟩
    rfl
  apart := by
    rintro _ ⟨⟩ ⟨⟩
  covers := by
    rintro _ ⟨⟩ ⟨⟩
  abandoned := by
    rintro _ count ⟨⟩ ⟨⟩

theorem Exchange.isPlain_of_isLookup {exchange : Exchange}
    (h : exchange.asked.isLookup = true) : exchange.IsPlain := by
  obtain ⟨asked, answer⟩ := exchange
  cases asked with
  | store access call =>
      cases access <;> cases call <;> first | exact ⟨rfl, rfl, rfl, rfl⟩ | cases h
  | clock | log => exact ⟨rfl, rfl, rfl, rfl⟩
  | _ => cases h

/-- Lookups are not counted. -/
theorem OnlyLookups.sameTally {past later : List Exchange} (h : OnlyLookups past later) :
    SameTally past later := by
  obtain ⟨added, rfl, hAdded⟩ := h
  induction added generalizing past with
  | nil =>
      rw [List.append_nil]
      exact .refl past
  | cons exchange rest ih =>
      have hPlain := Exchange.isPlain_of_isLookup (hAdded exchange List.mem_cons_self)
      rw [List.append_cons]
      exact (hPlain.sameTally past).trans
        (ih fun other hOther => hAdded other (List.mem_cons_of_mem _ hOther))

theorem Contract.unreliable_allowsLookups : Contract.unreliable.AllowsLookups where
  permits _ _ _ _ := trivial
  others _ _ _ _ _ hEnds := hEnds.keepsSettled

theorem cancelRedundant_ensures (rules : PolicyRules) (settings : CancellationSettings)
    (pipeline : Pipeline) {store : Store} :
    (cancelRedundant rules settings pipeline).Ensures
      (fun later result _ => ∀ report, result = .ok report →
        report.summary.Tallies (max 1 settings.batchSize) (max 1 settings.maxLockAttempts)
          later result) [] store := by
  have hOutline : RunOutline .unreliable rules settings pipeline
      (fun later result _ => ∀ report, result = .ok report →
        report.summary.Tallies (max 1 settings.batchSize) (max 1 settings.maxLockAttempts)
          later result) [] store := {
    lookups := Contract.unreliable_allowsLookups
    skip := by
      rintro later held reason hLooked - _ ⟨⟩
      exact CancellationReport.tallies_ofSkip hLooked.sameTally _ _ _ _
    missing := fun _ _ _ => nofun
    failed := fun _ _ _ _ _ => nofun
    fault := fun _ _ _ => trivial
    selected := by
      intro _ later _ _ held project windowStart head _ hLooked _ _ _
      rw [runSelected_eq_talliedRun]
      refine (talliedRun_ensures settings _ (Or.inr ⟨_, _, _, _, rfl⟩) _
        hLooked.sameTally).andThen ?_
      rintro ended ⟨summary, report⟩ _ hTallies
      refine Program.fulfills_pure fun _ _ result hResult => ?_
      rw [hTallies.reported result hResult]
      exact hTallies }
  exact hOutline.fulfills

/-- The report of a run tallies with what the run has done, whatever the others write,
whichever calls fail and whatever becomes of the audit records. -/
theorem report_tallies_at_end {rules : PolicyRules} {settings : CancellationSettings}
    {pipeline : Pipeline} {store held : Store} {past : List Exchange}
    {report : CancellationReport}
    (hRun : Unfolds store (cancelRedundant rules settings pipeline) past held
      (.done (.ok report))) :
    report.summary.Tallies (max 1 settings.batchSize) (max 1 settings.maxLockAttempts) past
      (.ok report) :=
  hRun.ensures (cancelRedundant_ensures rules settings pipeline) held (.refl held) report rfl

/-- Before the eighth request the others write the third pipeline. -/
def writeThird (turn : Nat) (store : Store) : Store :=
  if turn = 7 then store.touchPipeline 3 none else store

theorem keepsSettled_writeThird (turn : Nat) (store : Store) :
    store.KeepsSettled (writeThird turn store) := by
  unfold writeThird
  split
  · rintro id ⟨row, hRow, hId, hStatus⟩
    refine ⟨_, List.mem_map_of_mem hRow, ?_, ?_⟩
    · split <;> exact hId
    · split <;> exact hStatus
  · exact .refl store

/-- The run of a fourth pipeline on the crowded ref.  It has canceled the first pipeline
when it meets a conflict at the third one. -/
def restartedRun :
    List Exchange × Store ×
      Program (CancellationSummary × Except UpkeepError CancellationReport) :=
  Program.playAmong ⟨604800, 0⟩ writeThird 30 [] crowdedRef
    (talliedRun .standard ⟨pushedPipeline 4, none, 25⟩
      (candidateQuery .flat (pushedPipeline 4) ⟨0, 0⟩ none) .flat)

/-- Its second pass reads the second and the third pipeline only; the summary lists what
both passes have canceled. -/
theorem summary_tallies_at_end_restartedRun :
    ∃ summary report, restartedRun.2.2 = .done (summary, report) ∧ summary.attempts = 2 ∧
      summary.canceled.toList = [1, 3] ∧ idsRead restartedRun.1 = [2, 3] ∧
      summary.Tallies 25 5 restartedRun.1 report := by
  have hValue : (restartedRun.2.2.value?.map fun ending =>
      (ending.1.attempts, ending.1.canceled.toList)) = some (2, [1, 3]) := by decide +kernel
  obtain ⟨⟨summary, report⟩, hEnding, hSummary⟩ := Option.map_eq_some_iff.mp hValue
  obtain ⟨hAttempts, hCanceled⟩ := Prod.mk.inj hSummary
  have hDone := Program.eq_done_of_value? hEnding
  have hRun := unfolds_playAmong ⟨604800, 0⟩ keepsSettled_writeThird 30
    (.start : Unfolds crowdedRef (talliedRun .standard ⟨pushedPipeline 4, none, 25⟩
      (candidateQuery .flat (pushedPipeline 4) ⟨0, 0⟩ none) .flat) [] crowdedRef _)
  change Unfolds _ _ restartedRun.1 restartedRun.2.1 restartedRun.2.2 at hRun
  rw [hDone] at hRun
  exact ⟨summary, report, hDone, hAttempts, hCanceled, by decide +kernel,
    summary_tallies_at_end (Or.inr ⟨_, _, _, _, rfl⟩) hRun⟩

end PipelineUpkeep
