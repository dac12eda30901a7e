import PipelineUpkeep.Proofs.Discipline
/-!
# The outline of a cancellation run

A run begins by looking things up: the project of its initiator, the time, and the tip of
the ref.  It ends there with a skip, an error or a fault, or it goes on with the candidates
of one strategy, one window and the tip that it has just read, and looks nothing up any
more.  `RunOutline` says what a contract needs of each of these endings;
`RunOutline.fulfills` walks through the program once for all contracts.
-/

namespace PipelineUpkeep

open Time

/-! ## Lookups -/

/-- A request by which a run finds out what it has to cancel. -/
def Request.isLookup : Request → Bool
  | .store .engine (.project _) | .store .engine (.refHead ..) | .clock | .log _ => true
  | _ => false

theorem Request.Occurs.eq_of_isLookup {asked : Request} {before after : Store}
    {answer : asked.Answer} (h : asked.Occurs before answer after)
    (hLookup : asked.isLookup = true) : after = before := by
  cases asked with
  | store access call =>
      have hRead : call.isWrite = false := by
        cases access <;> cases call <;> first | rfl | cases hLookup
      exact (congrArg Prod.snd h).symm.trans (StoreCall.perform_snd_of_not_isWrite hRead before)
  | clock | log => exact h
  | _ => cases hLookup

/-- Only lookups came in between. -/
def OnlyLookups (past later : List Exchange) : Prop :=
  ∃ added, later = past ++ added ∧ ∀ exchange ∈ added, exchange.asked.isLookup = true

theorem OnlyLookups.refl (past : List Exchange) : OnlyLookups past past :=
  ⟨[], (List.append_nil past).symm, fun _ h => absurd h List.not_mem_nil⟩

theorem OnlyLookups.add {past later : List Exchange} (h : OnlyLookups past later)
    (asked : Request) (answer : asked.Answer) (hLookup : asked.isLookup = true) :
    OnlyLookups past (later ++ [⟨asked, answer⟩]) := by
  obtain ⟨added, rfl, hAdded⟩ := h
  refine ⟨added ++ [⟨asked, answer⟩], List.append_assoc _ _ _, fun exchange hExchange => ?_⟩
  rcases List.mem_append.mp hExchange with hOld | hNew
  · exact hAdded exchange hOld
  · rw [List.mem_singleton.mp hNew]
    exact hLookup

/-- Under the contract lookups may be made at any time, and they change the store no further
than the others do. -/
structure Contract.AllowsLookups (contract : Contract) : Prop where
  permits : ∀ past before asked, asked.isLookup = true → contract.permits past before asked
  others : ∀ asked before answer after, asked.isLookup = true →
    contract.ends asked before answer after → contract.others before after

theorem Discipline.allowsLookups {discipline : Discipline}
    (hPermits : ∀ past before asked, asked.isLookup = true →
      discipline.permits past before asked) : discipline.contract.AllowsLookups where
  permits := hPermits
  others := by
    intro asked before answer after hLookup hOccurs
    obtain rfl := Request.Occurs.eq_of_isLookup hOccurs hLookup
    exact discipline.refl after

theorem lookup_fulfills {contract : Contract} {past : List Exchange} {store : Store}
    (hAllows : contract.AllowsLookups) (asked : Request) (hLookup : asked.isLookup = true) :
    (Program.ask asked).Fulfills contract
      (fun later answer held => later = past ++ [⟨asked, answer⟩] ∧
        ∃ before after, contract.others store before ∧ contract.ends asked before answer after ∧
          contract.others before after ∧ contract.others after held) past store := by
  refine (Program.fulfills_ask asked fun before _ => hAllows.permits past before asked hLookup).imp
    ?_
  rintro later answer held ⟨hLater, before, after, hBefore, hEnds, hHeld⟩
  exact ⟨hLater, before, after, hBefore, hEnds,
    hAllows.others asked before answer after hLookup hEnds, hHeld⟩

/-! ## The walk through a run -/

/-- What is left of a run once its candidates are selected. -/
def runSelected (settings : CancellationSettings) (pipeline : Pipeline) (project : Project)
    (strategy : Strategy) (windowStart : Timestamp) (headSha : Option String) :
    Program (Except UpkeepError CancellationReport) := do
  let context : PassContext := {
    initiator := pipeline
    links := settings.webBaseUrl.map (PipelineLinks.ofAddress · project.path)
    batchSize := settings.batchSize }
  let run ← cancelCandidates settings context
    (candidateQuery strategy pipeline windowStart headSha)
  reportRun pipeline strategy run

theorem runSelected_passWork (settings : CancellationSettings) (pipeline : Pipeline)
    (project : Project) (strategy : Strategy) (windowStart : Timestamp)
    (headSha : Option String) :
    (runSelected settings pipeline project strategy windowStart headSha).OnlyAsks
      Request.isPassWork :=
  (cancelCandidates_passWork settings _).bind fun run => reportRun_passWork pipeline strategy run

/-- What a contract needs of the ways in which a run can end its lookups. -/
structure RunOutline (contract : Contract) (rules : PolicyRules)
    (settings : CancellationSettings) (pipeline : Pipeline)
    (post : List Exchange → Except UpkeepError CancellationReport → Store → Prop)
    (past : List Exchange) (store : Store) : Prop where
  lookups : contract.AllowsLookups
  skip : ∀ {later held} reason, OnlyLookups past later → contract.others store held →
    post later (.ok (.ofSkip pipeline.id reason)) held
  missing : ∀ {later held}, OnlyLookups past later → contract.others store held →
    ⟨.store .engine (.project pipeline.projectId), .ok none⟩ ∈ later →
    post later (.error (.store (.notFound .project pipeline.projectId))) held
  failed : ∀ {later held} call error, OnlyLookups past later → contract.others store held →
    ⟨.store .engine call, .error error⟩ ∈ later → post later (.error (.store error)) held
  fault : ∀ {later before now after}, OnlyLookups past later →
    contract.ends .clock before now after → now.subSeconds? settings.lookback = none →
    contract.mayFault later
  /-- The project was read on the way, and the tip of the ref last of all. -/
  selected : ∀ {earlier later reading read held} project windowStart head,
    later = earlier ++
      [⟨.store .engine (.refHead pipeline.projectId pipeline.ref), .ok head⟩] →
    OnlyLookups past later → contract.others store reading →
    contract.ends (.store .engine (.project pipeline.projectId)) reading (.ok (some project))
      read →
    contract.others read held →
    (runSelected settings pipeline project (Strategy.ofPolicy (rules.resolve project))
      windowStart (Option.map RefHead.sha head)).Fulfills contract post later held

theorem RunOutline.fulfills {contract : Contract} {rules : PolicyRules}
    {settings : CancellationSettings} {pipeline : Pipeline}
    {post : List Exchange → Except UpkeepError CancellationReport → Store → Prop}
    {past : List Exchange} {store : Store}
    (h : RunOutline contract rules settings pipeline post past store) :
    (cancelRedundant rules settings pipeline).Fulfills contract post past store := by
  unfold cancelRedundant
  split
  · exact Program.fulfills_pure fun _ hLast => h.skip _ (.refl past) hLast
  · rename_i hParent
    refine (lookup_fulfills h.lookups (.store .engine (.project _)) rfl).andThen ?_
    rintro _ found held ⟨rfl, reading, read, hReading, hFound, hRead, hHeld⟩
    have hAsked := (OnlyLookups.refl past).add (.store .engine (.project _)) found rfl
    have hTold := List.mem_append_right past
      (List.mem_singleton_self (⟨.store .engine (.project _), found⟩ : Exchange))
    have hSince := contract.trans hReading (contract.trans hRead hHeld)
    match found with
    | .error error =>
        exact Program.fulfills_pure fun _ hLast =>
          h.failed _ error hAsked (contract.trans hSince hLast) hTold
    | .ok none =>
        exact Program.fulfills_pure fun _ hLast =>
          h.missing hAsked (contract.trans hSince hLast) hTold
    | .ok (some project) =>
        simp only
        split
        · exact Program.fulfills_pure fun _ hLast => h.skip _ hAsked (contract.trans hSince hLast)
        · rename_i hAuto
          refine (lookup_fulfills h.lookups .clock rfl).andThen ?_
          rintro _ now timeHeld ⟨rfl, before, after, hBefore, hShown, hShow, hTimeHeld⟩
          have hTimed := hAsked.add .clock now rfl
          have hSinceTime := contract.trans hHeld
            (contract.trans hBefore (contract.trans hShow hTimeHeld))
          unfold selectCandidates
          rw [if_neg hParent, if_neg hAuto, Program.bind_assoc']
          refine (lookup_fulfills h.lookups (.store .engine (.refHead _ _)) rfl).andThen ?_
          rintro _ head headHeld ⟨rfl, first, last, hFirst, -, hTip, hHeadHeld⟩
          have hLooked := hTimed.add (.store .engine (.refHead _ _)) head rfl
          have hSinceTip := contract.trans hSinceTime
            (contract.trans hFirst (contract.trans hTip hHeadHeld))
          match head with
          | .error error =>
              have hAll := contract.trans hReading (contract.trans hRead hSinceTip)
              exact Program.fulfills_pure fun _ hLast =>
                h.failed _ error hLooked (contract.trans hAll hLast)
                  (List.mem_append_right _ (List.mem_singleton_self _))
          | .ok head =>
              simp only
              cases hWindow : now.subSeconds? settings.lookback with
              | none => exact h.fault hLooked hShown hWindow
              | some windowStart =>
                  exact h.selected project windowStart head rfl hLooked hReading hFound hSinceTip

end PipelineUpkeep
