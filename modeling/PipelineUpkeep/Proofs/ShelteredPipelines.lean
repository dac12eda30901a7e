import PipelineUpkeep.Proofs.CreationAccount
import PipelineUpkeep.Proofs.SharedContracts
import PipelineUpkeep.Proofs.TipRaces
/-!
# Sheltered pipelines

A stored pipeline that has no parent and is of the commit at the tip of its ref is sheltered:
while the tip stands, no run selects it, under either strategy.  The flat strategy leaves out
the commit at the tip; the hierarchy strategy finds a row without a parent only as a root, and
roots are not of that commit either.  A creation inserts a sheltered pipeline.  So programs
that only create pipelines and cancel on their behalf keep all sheltered pipelines, their own
and those of each other.
-/

namespace PipelineUpkeep

open Time

namespace Store

/-- The pipeline is stored, has no parent, and is of the commit at the tip of its ref. -/
structure Shelters (store : Store) (row : Pipeline) : Prop where
  stored : row ∈ store.pipelines.rows
  parentId : row.parentId = none
  atTip : headSha? store row = some row.sha

/-- Sheltered pipelines stand with their builds, and so do the tips that shelter them. -/
structure KeepsSheltered (before after : Store) : Prop where
  origins : before.KeepsOrigins after
  refs : after.refs = before.refs
  rows : ∀ row, before.Shelters row → row ∈ after.pipelines.rows
  builds : ∀ row, before.Shelters row → after.buildsOf row.id = before.buildsOf row.id

variable {before middle after : Store}

theorem KeepsSheltered.shelters (h : before.KeepsSheltered after) {row : Pipeline}
    (hRow : before.Shelters row) : after.Shelters row where
  stored := h.rows row hRow
  parentId := hRow.parentId
  atTip := by
    rw [headSha?, h.refs]
    exact hRow.atTip

theorem KeepsSheltered.refl (store : Store) : store.KeepsSheltered store :=
  ⟨.refl store, rfl, fun _ hRow => hRow.stored, fun _ _ => rfl⟩

theorem KeepsSheltered.trans (h : before.KeepsSheltered middle)
    (hLater : middle.KeepsSheltered after) : before.KeepsSheltered after where
  origins := h.origins.trans hLater.origins
  refs := hLater.refs.trans h.refs
  rows row hRow := hLater.rows row (h.shelters hRow)
  builds row hRow := (hLater.builds row (h.shelters hRow)).trans (h.builds row hRow)

theorem keepsSheltered_withSchedules (store : Store) (schedules : Table Schedule Schedule.id) :
    store.KeepsSheltered { store with schedules := schedules } :=
  ⟨⟨rfl, fun row hRow => ⟨row, hRow, .refl row⟩⟩, rfl, fun _ hRow => hRow.stored, fun _ _ => rfl⟩

/-- Other rows are canceled. -/
theorem keepsSheltered_cancelRunning (store : Store) (row : Pipeline) (canceledById : Nat)
    (hOther : ∀ sheltered, store.Shelters sheltered → sheltered.id ≠ row.id) :
    store.KeepsSheltered (store.cancelRunning row ⟨canceledById, false⟩).2 := by
  have hOrigins := store.keepsOrigins_perform (.cancelRunning row ⟨canceledById, false⟩)
  change store.KeepsOrigins (store.cancelRunning row ⟨canceledById, false⟩).2 at hOrigins
  rcases store.cancelRunning_cases row canceledById with ⟨-, hSame⟩ | hCancels
  · rw [hSame]
    exact .refl store
  · obtain ⟨current, -, hId, -, -, hResult⟩ := hCancels
    rw [hResult] at hOrigins ⊢
    have hFree {sheltered : Pipeline} (hSheltered : store.Shelters sheltered) :
        sheltered.id ∉ [current.id] := by
      rw [hId]
      exact fun hMem => hOther sheltered hSheltered (List.mem_singleton.mp hMem)
    exact ⟨hOrigins, rfl,
      fun _ hRow => (mem_pipelines_cancelRows_iff_of_not_mem (hFree hRow)).mpr hRow.stored,
      fun _ hRow => buildsOf_cancelRows_of_not_mem (hFree hRow)⟩

theorem buildsOf_createPipeline_of_mem (store : Store) (new : NewPipeline) {row : Pipeline}
    (hRow : row ∈ store.pipelines.rows) :
    (store.createPipeline new).2.buildsOf row.id = store.buildsOf row.id := by
  have hOlder : row.id < (store.createPipeline new).1.id := store.pipelines.key_lt_nextKey hRow
  unfold buildsOf
  rw [rows_builds_createPipeline, List.filter_append, List.append_right_eq_self,
    List.filter_eq_nil_iff]
  intro build hBuild hOwn
  rw [mem_buildRows hBuild] at hOwn
  exact Nat.ne_of_gt hOlder (beq_iff_eq.mp hOwn)

theorem keepsSheltered_createPipeline (store : Store) (new : NewPipeline) :
    store.KeepsSheltered (store.createPipeline new).2 where
  origins := store.keepsOrigins_perform (.createPipeline new)
  refs := rfl
  rows row hRow := by
    rw [rows_pipelines_createPipeline]
    exact List.mem_append_left _ hRow.stored
  builds row hRow := store.buildsOf_createPipeline_of_mem new hRow.stored

/-- The pipeline is sheltered, and it was not there at the start. -/
structure SheltersNew (start store : Store) (row : Pipeline) : Prop where
  shelters : store.Shelters row
  isNew : ∀ old ∈ start.pipelines.rows, old.id ≠ row.id

theorem SheltersNew.later {start : Store} {row : Pipeline} (h : start.SheltersNew before row)
    (hKeeps : before.KeepsSheltered after) : start.SheltersNew after row :=
  ⟨hKeeps.shelters h.shelters, h.isNew⟩

theorem sheltersNew_createPipeline {start store : Store} {new : NewPipeline}
    (hStart : start.KeepsOrigins store) (hParent : new.parentId = none)
    (hTip : (store.refs.find? new.projectId new.ref).map (·.sha) = some new.sha) :
    start.SheltersNew (store.createPipeline new).2 (store.createPipeline new).1 := by
  refine ⟨⟨store.mem_createPipeline new, hParent, hTip⟩, fun old hOld => ?_⟩
  obtain ⟨later, hLater, hSame⟩ := hStart.pipelines old hOld
  rw [← hSame.id]
  exact Nat.ne_of_lt (store.pipelines.key_lt_nextKey hLater)

end Store

/-! ## Selected rows are not sheltered -/

theorem Qualifies.fitsRef {rows : List Pipeline} {strategy : Strategy} {pipeline row : Pipeline}
    {windowStart : Timestamp} {headSha : Option String}
    (h : Qualifies rows strategy pipeline windowStart headSha row) (hParent : row.parentId = none) :
    FitsRef pipeline windowStart headSha row := by
  cases strategy with
  | flat => exact h.2.1
  | hierarchy => exact (Descends.isRoot_of_parentId h hParent).1

/-- The tips that were read last are the tips of the store. -/
def KnowsTips (past : List Exchange) (store : Store) : Prop :=
  ∀ projectId ref head, lastTip? projectId ref past = some head →
    store.refs.find? projectId ref = head

theorem knowsTips_nil (store : Store) : KnowsTips [] store := nofun

theorem KnowsTips.later {past : List Exchange} {before after : Store} (h : KnowsTips past before)
    (hRefs : after.refs = before.refs) : KnowsTips past after := by
  intro projectId ref head hLast
  rw [hRefs]
  exact h projectId ref head hLast

/-- A tip that is read now is that of the store. -/
theorem KnowsTips.add {past : List Exchange} {before after : Store} {asked : Request}
    {answer : asked.Answer} (h : KnowsTips past before) (hOccurs : asked.Occurs before answer after)
    (hRefs : after.refs = before.refs) : KnowsTips (past ++ [⟨asked, answer⟩]) after := by
  refine @KnowsTips.later _ before _ (fun projectId ref head hLast => ?_) hRefs
  rw [lastTip?_append_singleton] at hLast
  cases hTip : Exchange.tip? projectId ref ⟨asked, answer⟩ with
  | none =>
      rw [hTip] at hLast
      exact h projectId ref head hLast
  | some found =>
      rw [hTip] at hLast
      rw [← Option.some.inj hLast]
      exact hOccurs.refs_of_tip? hTip

theorem IsSelected.id_ne {rules : PolicyRules} {pipeline row : Pipeline} {past : List Exchange}
    {store : Store} {id : Nat} (h : IsSelected rules pipeline past store id)
    (hTips : KnowsTips past store) (hRow : store.Shelters row) : row.id ≠ id := by
  rintro rfl
  obtain ⟨project, head, windowStart, -, hLast, stored, hStored, hId, hQualifies⟩ := h
  obtain rfl := store.pipelines.eq_of_key_eq hStored hRow.stored hId
  have hFits := hQualifies.fitsRef hRow.parentId
  refine hFits.notHead ?_
  rw [← hTips _ _ _ hLast, ← hFits.project, ← hFits.ref]
  exact hRow.atTip

/-! ## Requests that spare sheltered pipelines -/

namespace Request

/-- What a request writes: schedules at most, unless it is one of three calls. -/
inductive Writes (before : Store) : Request → Store → Prop where
  | schedules {asked : Request} (schedules : Table Schedule Schedule.id) :
      Writes before asked { before with schedules := schedules }
  | tip (access : Access) (head : RefHead) :
      Writes before (.store access (.setRefHead head)) (before.setRefHead head)
  | cancellation (access : Access) (row : Pipeline) (request : CancelRequest) :
      Writes before (.store access (.cancelRunning row request))
        (before.cancelRunning row request).2
  | insertion (access : Access) (new : NewPipeline) :
      Writes before (.store access (.createPipeline new)) (before.createPipeline new).2

/-- Tips stand, no sheltered pipeline is canceled, and what is inserted is sheltered. -/
def Spares (store : Store) : Request → Prop
  | .store _ (.setRefHead _) => False
  | .store _ (.cancelRunning row request) =>
      request.cascade = false ∧ ∀ sheltered, store.Shelters sheltered → sheltered.id ≠ row.id
  | .store _ (.createPipeline new) =>
      new.status = .created ∧ new.parentId = none ∧
        (store.refs.find? new.projectId new.ref).map (·.sha) = some new.sha
  | _ => True

variable {asked : Request} {answer : asked.Answer} {before after : Store}

theorem Occurs.writes (h : asked.Occurs before answer after) : asked.Writes before after := by
  cases asked with
  | store access call =>
      obtain rfl : (call.perform before).2 = after := congrArg Prod.snd h
      cases call with
      | setRefHead head => exact .tip access head
      | cancelRunning row request => exact .cancellation access row request
      | createPipeline new => exact .insertion access new
      | advanceNextRun id observed next =>
          simp only [StoreCall.perform, Store.advanceNextRun]
          repeat' split
          all_goals exact .schedules _
      | recordLastPipeline id pipelineId =>
          simp only [StoreCall.perform, Store.recordLastPipeline]
          split <;> exact .schedules _
      | _ =>
          exact .schedules before.schedules
  | _ =>
      obtain rfl : after = before := h
      exact .schedules after.schedules

theorem Occurs.keepsSheltered (h : asked.Occurs before answer after)
    (hSpares : asked.Spares before) : before.KeepsSheltered after := by
  cases h.writes with
  | schedules schedules => exact before.keepsSheltered_withSchedules schedules
  | tip access head => exact hSpares.elim
  | cancellation access row request =>
      obtain ⟨canceledById, cascade⟩ := request
      obtain ⟨rfl, hOther⟩ := hSpares
      exact before.keepsSheltered_cancelRunning row canceledById hOther
  | insertion access new => exact before.keepsSheltered_createPipeline new

/-- Tips stand unless they are moved. -/
theorem Occurs.refs_eq (h : asked.Occurs before answer after)
    (hOther : ∀ access head, asked ≠ .store access (.setRefHead head)) :
    after.refs = before.refs := by
  cases h.writes with
  | schedules schedules => rfl
  | tip access head => exact absurd rfl (hOther access head)
  | cancellation access row request =>
      unfold Store.cancelRunning
      repeat' split
      all_goals rfl
  | insertion access new => rfl

/-- Nothing is inserted, or one pipeline is. -/
theorem Occurs.inserts_cases (h : asked.Occurs before answer after) :
    Table.newRows before.pipelines after.pipelines = [] ∨
      ∃ access new, asked = .store access (.createPipeline new) ∧
        after = (before.createPipeline new).2 ∧
        Table.newRows before.pipelines after.pipelines = [(before.createPipeline new).1] := by
  cases h.writes with
  | schedules _ | tip _ _ =>
      exact Or.inl (Table.newRows_eq_nil fun row hRow => ⟨row, hRow, rfl⟩)
  | cancellation access row request =>
      refine Or.inl (Table.newRows_eq_nil fun later hLater => ?_)
      unfold Store.cancelRunning at hLater
      repeat' split at hLater
      case h_2.isFalse.isFalse =>
        obtain ⟨old, hOld, rfl⟩ := List.mem_map.mp hLater
        exact ⟨old, hOld, (Store.cancelChange_id _ _ _ old).symm⟩
      all_goals exact ⟨later, hLater, rfl⟩
  | insertion access new =>
      refine Or.inr ⟨access, new, rfl, rfl, Table.newRows_append ?_⟩
      exact before.rows_pipelines_createPipeline new

end Request

/-! ## Creations shelter each other's pipelines -/

/-- The share of a program that spares sheltered pipelines. -/
def shelterShare : Share where
  rely := Store.KeepsSheltered
  refl := Store.KeepsSheltered.refl
  trans := Store.KeepsSheltered.trans
  allows := Request.Spares

/-- A fault needs a time whose window starts out of range. -/
abbrev shelterContract (times : Timestamp → Prop) (lookback : Int) : Contract :=
  shelterShare.contract
    (fun asked before answer after => asked.Occurs before answer after ∧ asked.Shows times answer)
    (∃ now, times now ∧ now.subSeconds? lookback = none)

section Walk

variable {times : Timestamp → Prop} {lookback : Int} {past : List Exchange} {store : Store}

theorem ask_shelters (asked : Request)
    (hSpares : ∀ before, store.KeepsSheltered before → asked.Spares before) :
    (Program.ask asked).Fulfills (shelterContract times lookback)
      (fun _ answer held => ∃ before after, store.KeepsSheltered before ∧
        asked.Occurs before answer after ∧ before.KeepsSheltered after ∧
        after.KeepsSheltered held) past store := by
  refine (Program.fulfills_ask asked hSpares).imp ?_
  rintro _ answer held ⟨-, before, after, hBefore, ⟨hOccurs, -⟩, hHeld⟩
  exact ⟨before, after, hBefore, hOccurs, hOccurs.keepsSheltered (hSpares before hBefore), hHeld⟩

theorem writeLog_shelters (level : LogLevel) (message : String) :
    (Program.writeLog level message).Fulfills (shelterContract times lookback)
      (fun _ _ _ => True) past store :=
  (ask_shelters (.log ⟨level, false, message⟩) fun _ _ => trivial).imp fun _ _ _ _ => trivial

/-- What was sheltered at the start is so at the end. -/
theorem Program.Fulfills.keepsSheltered {α : Type} {program : Program α}
    {post : List Exchange → α → Store → Prop}
    (h : program.Fulfills (shelterContract times lookback) post past store) :
    program.Fulfills (shelterContract times lookback)
      (fun exchanges value held => post exchanges value held ∧ store.KeepsSheltered held)
      past store :=
  h.carry Store.KeepsSheltered Store.KeepsSheltered.refl Store.KeepsSheltered.trans
    (fun _ _ => id) fun _ _ _ _ _ hSpares hEnds => hEnds.1.keepsSheltered hSpares

/-- No request of the engine moves a tip. -/
theorem KnowsTips.add_of_isEngineWork {past : List Exchange} {before after : Store}
    {asked : Request} {answer : asked.Answer} (h : KnowsTips past before)
    (hOccurs : asked.Occurs before answer after) (hWork : asked.isEngineWork = true) :
    KnowsTips (past ++ [⟨asked, answer⟩]) after := by
  refine h.add hOccurs (hOccurs.refs_eq ?_)
  rintro access head rfl
  cases access <;> cases hWork

theorem spares_of_selective {rules : PolicyRules} {pipeline : Pipeline} {past : List Exchange}
    {before : Store} {asked : Request} (hTips : KnowsTips past before)
    (h : (Discipline.selective rules pipeline).permits past before asked) :
    asked.Spares before := by
  obtain ⟨hOnly, hSelected⟩ := h
  cases asked with
  | store access call =>
      cases call with
      | cancelRunning row request =>
          obtain rfl : request = ⟨pipeline.id, false⟩ := hOnly
          refine ⟨rfl, fun sheltered hSheltered => ?_⟩
          exact (hSelected access row _ rfl).id_ne hTips hSheltered
      | createPipeline | setRefHead => cases hOnly
      | _ => trivial
  | _ => trivial

/-- A run cancels only what it has selected, and so nothing that is sheltered. -/
theorem cancelRedundant_shelters (rules : PolicyRules) (settings : CancellationSettings)
    (pipeline : Pipeline) :
    (cancelRedundant rules settings pipeline).Fulfills (shelterContract times settings.lookback)
      (fun _ _ _ => True) past store := by
  have hSelective : (cancelRedundant rules settings pipeline).Follows
      (.selective rules pipeline) (fun _ _ _ => True) [] store :=
    cancelRedundant_selective rules settings pipeline (.refl [])
  have hWork := hSelective.asking (cancelRedundant_engineWork rules settings pipeline)
  have hSparing := hWork.knowing (shelterShare.contract Request.Occurs True) KnowsTips
    (knowsTips_nil store) (fun _ _ hKeeps => hKeeps.origins)
    (fun _ _ _ hKeeps hTips => hTips.later hKeeps.refs)
    (fun _ _ _ hTips hPermits => spares_of_selective hTips hPermits.1)
    (fun _ _ _ _ _ hTips hPermits hOccurs =>
      ⟨hOccurs, hTips.add_of_isEngineWork hOccurs hPermits.2⟩) (fun _ _ _ _ => trivial)
  have hTerms : (cancelRedundant rules settings pipeline).Fulfills
      (runTerms times settings.lookback pipeline.id) _ [] store :=
    cancelRedundant_keepsTerms rules settings pipeline
  have hBoth := hSparing.both hTerms
    (shelterContract times settings.lookback) (fun _ _ hKeeps => ⟨hKeeps, trivial⟩)
    (fun _ _ _ hSpares _ => hSpares) (fun _ _ _ _ _ _ _ hEnds => hEnds)
    (fun _ _ hFault => hFault.2)
  exact (hBoth.imp fun _ _ _ _ => trivial).anytime past

theorem cancelAfterCreation_shelters (rules : PolicyRules) (settings : CancellationSettings)
    (pipeline : Pipeline) :
    (cancelAfterCreation rules settings pipeline).Fulfills
      (shelterContract times settings.lookback) (fun _ _ _ => True) past store := by
  unfold cancelAfterCreation
  refine (cancelRedundant_shelters rules settings pipeline).andThen fun _ result _ _ => ?_
  match result with
  | .ok report => exact Program.fulfills_pure fun _ _ => trivial
  | .error error =>
      refine (writeLog_shelters _ _).andThen fun _ _ _ _ => ?_
      exact Program.fulfills_pure fun _ _ => trivial

/-- A row that is not saved when it is turned down leaves a line in the log only. -/
theorem rejectCreation_shelters {request : CreationRequest} (hSave : request.saveOnErrors = false)
    (project : Project) (head : RefHead) (status : Status) (message : String) :
    (rejectCreation request project head status message).Fulfills (shelterContract times lookback)
      (fun _ result _ => result = .ok ⟨some message, none, none⟩) past store := by
  unfold rejectCreation
  simp only [hSave, Bool.false_eq_true, if_false]
  refine (writeLog_shelters _ _).andThen fun _ _ _ _ => ?_
  exact Program.fulfills_pure fun _ _ => rfl

/-- The pipeline of a creation is sheltered when the creation is done. -/
theorem createForRequest_shelters {start : Store} (rules : PolicyRules)
    (settings : CancellationSettings) {request : CreationRequest}
    (hSave : request.saveOnErrors = false) (hStart : start.KeepsOrigins store) :
    (createForRequest rules settings request).Fulfills (shelterContract times settings.lookback)
      (fun _ result held => ∀ response row, result = .ok response → response.pipeline = some row →
        start.SheltersNew held row) past store := by
  unfold createForRequest
  refine (ask_shelters (.store .engine (.project _)) fun _ _ => trivial).andThen ?_
  rintro _ found held ⟨before, after, hBefore, hFound, hAfter, hHeld⟩
  have hSince := (hBefore.trans hAfter).trans hHeld
  match found with
  | .error _ | .ok none => exact Program.fulfills_pure fun _ _ _ _ h => nomatch h
  | .ok (some project) =>
      have hProject : project.id = request.projectId :=
        ((before.projects.find?_eq_some_iff _ _).mp (Except.ok.inj (congrArg Prod.fst hFound))).2
      refine (ask_shelters (.store .engine (.refHead _ _)) fun _ _ => trivial).andThen ?_
      rintro _ tip held ⟨reading, after, hReading, hTip, hAfter, hHeld⟩
      replace hSince := hSince.trans hReading
      match tip with
      | .error _ => exact Program.fulfills_pure fun _ _ _ _ h => nomatch h
      | .ok none =>
          refine Program.fulfills_pure fun _ _ => ?_
          rintro _ _ ⟨⟩ ⟨⟩
      | .ok (some head) =>
          have hHead : reading.refs.find? request.projectId request.ref = some head :=
            hProject ▸ Except.ok.inj (congrArg Prod.fst hTip)
          have hRejects (status : Status) (message : String) {past : List Exchange} :
              (rejectCreation request project head status message).Fulfills
                (shelterContract times settings.lookback) (fun _ result held =>
                  ∀ response row, result = .ok response → response.pipeline = some row →
                    start.SheltersNew held row) past held := by
            refine (rejectCreation_shelters hSave project head status message).imp ?_
            rintro _ _ _ rfl _ _ ⟨⟩ ⟨⟩
          simp only
          split
          · exact hRejects _ _
          · split
            · exact hRejects _ _
            · refine (ask_shelters .clock fun _ _ => trivial).andThen ?_
              rintro _ now timed ⟨_, _, hShown, -, hClock, hTimed⟩
              have hStands := (hAfter.trans hHeld).trans ((hShown.trans hClock).trans hTimed)
              -- Nobody has moved the tip since it was read.
              have hAtTip {later : Store} (hLater : timed.KeepsSheltered later) :
                  (later.refs.find? request.projectId request.ref).map (·.sha) =
                    some head.sha := by
                rw [(hStands.trans hLater).refs, hHead]
                rfl
              refine (ask_shelters (.store .engine (.createPipeline _))
                fun _ hLater => ⟨rfl, rfl, hAtTip hLater⟩).andThen ?_
              rintro _ created held ⟨inserting, after, hInserting, hCreated, -, hHeld⟩
              match created with
              | .error _ => exact Program.fulfills_pure fun _ _ _ _ h => nomatch h
              | .ok pipeline =>
                  obtain ⟨hRow, rfl⟩ := Prod.mk.inj hCreated
                  obtain rfl := Except.ok.inj hRow
                  have hOrigins := hStart.trans ((hSince.trans hStands).trans hInserting).origins
                  have hNew := (Store.sheltersNew_createPipeline hOrigins rfl
                    (hAtTip hInserting)).later hHeld
                  refine (writeLog_shelters _ _).keepsSheltered.andThen ?_
                  rintro _ _ logged ⟨-, hLogged⟩
                  refine (cancelAfterCreation_shelters _ _ _).keepsSheltered.andThen ?_
                  rintro _ report done ⟨-, hDone⟩
                  refine Program.fulfills_pure fun last hLast => ?_
                  rintro _ _ ⟨⟩ ⟨⟩
                  exact hNew.later ((hLogged.trans hDone).trans hLast)

end Walk

end PipelineUpkeep
