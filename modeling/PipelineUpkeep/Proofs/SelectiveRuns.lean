import PipelineUpkeep.Proofs.PipelineOrigins
/-!
# What a run selects

Whatever happens between two calls of a run, the rows that it cancels were selected by it:
for its initiator, for the strategy of the stored project, and for the tip of the ref as
the run itself has read it last.  Everything but the tip still holds of the row when it is
canceled, since none of it is ever written; the tip may have been moved.
-/

namespace PipelineUpkeep

open Time

/-! ## The tip that was read last -/

/-- The tip of a ref, if the exchange has read it; a ref may be unknown. -/
def Exchange.tip? (projectId : Nat) (ref : String) : Exchange → Option (Option RefHead)
  | ⟨.store _ (.refHead asked name), .ok head⟩ =>
      if asked = projectId ∧ name = ref then some head else none
  | _ => none

/-- The tip of a ref as it was read last. -/
def lastTip? (projectId : Nat) (ref : String) (past : List Exchange) : Option (Option RefHead) :=
  past.reverse.findSome? (Exchange.tip? projectId ref)

section Tips

variable {projectId : Nat} {ref : String}

theorem lastTip?_append_singleton (past : List Exchange) (exchange : Exchange) :
    lastTip? projectId ref (past ++ [exchange]) =
      (exchange.tip? projectId ref).or (lastTip? projectId ref past) := by
  simp only [lastTip?, List.reverse_append, List.reverse_singleton, List.singleton_append,
    List.findSome?_cons]
  cases exchange.tip? projectId ref <;> rfl

theorem Exchange.tip?_refHead (access : Access) (head : Option RefHead) :
    Exchange.tip? projectId ref ⟨.store access (.refHead projectId ref), .ok head⟩ = some head :=
  if_pos ⟨rfl, rfl⟩

theorem Exchange.tip?_of_isPassWork {asked : Request} (answer : asked.Answer)
    (h : asked.isPassWork = true) : Exchange.tip? projectId ref ⟨asked, answer⟩ = none := by
  cases asked with
  | store access call =>
      cases call <;> first | rfl | (cases access <;> cases h)
  | _ => rfl

/-- A tip that was read is the one that the store held. -/
theorem Request.Occurs.refs_of_tip? {asked : Request} {answer : asked.Answer}
    {before after : Store} (h : asked.Occurs before answer after) {head : Option RefHead}
    (hTip : Exchange.tip? projectId ref ⟨asked, answer⟩ = some head) :
    before.refs.find? projectId ref = head := by
  unfold Exchange.tip? at hTip
  split at hTip
  · rename_i access askedId name found hExchange
    cases hExchange
    split at hTip
    · rename_i hSame
      obtain ⟨rfl, rfl⟩ := hSame
      rw [← Option.some.inj hTip]
      exact Except.ok.inj (congrArg Prod.fst h)
    · cases hTip
  · cases hTip

end Tips

/-! ## Selected rows -/

/-- Under the identifier a row is stored that `pipeline` makes redundant, for the tip that
was read last. -/
def IsSelected (rules : PolicyRules) (pipeline : Pipeline) (past : List Exchange)
    (store : Store) (id : Nat) : Prop :=
  ∃ project head windowStart, store.projects.find? pipeline.projectId = some project ∧
    lastTip? pipeline.projectId pipeline.ref past = some head ∧
    ∃ row ∈ store.pipelines.rows, row.id = id ∧
      Qualifies store.pipelines.rows (Strategy.ofPolicy (rules.resolve project)) pipeline
        windowStart (head.map (·.sha)) row

/-- Nothing is written but cancellations of selected rows. -/
def Discipline.selective (rules : PolicyRules) (pipeline : Pipeline) : Discipline where
  others := Store.KeepsOrigins
  refl := Store.KeepsOrigins.refl
  trans := Store.KeepsOrigins.trans
  permits past before asked := asked.OnlyCancels pipeline.id ∧
    ∀ access row request, asked = .store access (.cancelRunning row request) →
      IsSelected rules pipeline past before row.id
  mayFault _ := True

section Scope

variable {strategy : Strategy} {pipeline : Pipeline} {windowStart : Timestamp}
  {headSha : Option String}

/-- The rows that qualify for a tip, and go on to do so. -/
def selectedScope (strategy : Strategy) (pipeline : Pipeline) (windowStart : Timestamp)
    (headSha : Option String) : RunScope where
  others := Store.KeepsOrigins
  refl := Store.KeepsOrigins.refl
  trans := Store.KeepsOrigins.trans
  admits store row := ∃ stored ∈ store.pipelines.rows, stored.id = row.id ∧
    Qualifies store.pipelines.rows strategy pipeline windowStart headSha stored
  admits_later := by
    rintro before after row hKeeps ⟨stored, hStored, hId, hQualifies⟩
    obtain ⟨later, hLater, hSame⟩ := hKeeps.pipelines stored hStored
    exact ⟨later, hLater, hSame.id.trans hId, hKeeps.qualifies hQualifies hLater hSame⟩
  fails _ := True
  fails_of_admits _ _ := trivial
  cancels store row request := store.keepsOrigins_perform (.cancelRunning row request)

theorem finds_selectedScope :
    (selectedScope strategy pipeline windowStart headSha).Finds
      (candidateQuery strategy pipeline windowStart headSha) := by
  intro first second row found hKeeps hRow hFound hId _
  obtain ⟨-, hQualifies⟩ :=
    (mem_evaluate_candidateQuery_iff_qualifies strategy headSha row).mp hRow
  have hSame := hKeeps.sameOrigin hQualifies.mem hFound hId
  exact ⟨found, hFound, rfl, hKeeps.qualifies hQualifies hFound hSame⟩

end Scope

section Runs

variable {rules : PolicyRules} {pipeline : Pipeline} {past : List Exchange} {store : Store}

theorem Discipline.selective_allowsLookups (rules : PolicyRules) (pipeline : Pipeline) :
    (selective rules pipeline).contract.AllowsLookups := by
  refine allowsLookups fun past before asked hLookup =>
    ⟨Request.onlyCancels_of_isLookup hLookup, ?_⟩
  rintro access row request rfl
  cases access <;> cases hLookup

/-- What the run has looked up stays known to it: projects are not written, and no tip is
read any more. -/
theorem runSelected_selective (settings : CancellationSettings) {project : Project}
    (hProject : store.projects.find? pipeline.projectId = some project) {head : Option RefHead}
    (hTip : lastTip? pipeline.projectId pipeline.ref past = some head)
    (windowStart : Timestamp) (hPast : SameAccount [] past) :
    (runSelected settings pipeline project (Strategy.ofPolicy (rules.resolve project))
      windowStart (head.map (·.sha))).Follows (.selective rules pipeline) (fun _ _ _ => True)
      past store := by
  have hScope : (runSelected settings pipeline project (Strategy.ofPolicy (rules.resolve project))
      windowStart (head.map (·.sha))).Follows (RunScope.discipline (selectedScope _ pipeline _ _)
        pipeline) (fun _ _ _ => True) past store :=
    (runSelected_follows project finds_selectedScope hPast).imp fun _ _ _ _ => trivial
  have hWork := hScope.asking (runSelected_passWork _ _ _ _ _ _)
  refine (hWork.knowing (Discipline.selective rules pipeline).contract
    (fun past store => store.projects.find? pipeline.projectId = some project ∧
      lastTip? pipeline.projectId pipeline.ref past = some head)
    ⟨hProject, hTip⟩ (fun _ _ => id) ?_ ?_ ?_ (fun _ _ _ _ => trivial)).imp
    fun _ _ _ _ => trivial
  · rintro _ before after hKeeps ⟨hFound, hLast⟩
    rw [Store.KeepsOrigins.projects hKeeps]
    exact ⟨hFound, hLast⟩
  · rintro exchanges before asked ⟨hFound, hLast⟩ ⟨hPermits, -⟩
    refine ⟨RunScope.onlyCancels hPermits, ?_⟩
    rintro access row request rfl
    obtain ⟨-, ⟨stored, hStored, hId, hQualifies⟩, -⟩ := hPermits
    exact ⟨project, head, windowStart, hFound, hLast, stored, hStored, hId, hQualifies⟩
  · rintro exchanges before asked answer after ⟨hFound, hLast⟩ ⟨-, hAllowed⟩ hOccurs
    refine ⟨hOccurs, ?_⟩
    rw [Request.Occurs.keepsOrigins hOccurs |>.projects, lastTip?_append_singleton,
      Exchange.tip?_of_isPassWork answer hAllowed]
    exact ⟨hFound, hLast⟩

/-- A cancellation run cancels only what it has selected. -/
theorem cancelRedundant_selective (rules : PolicyRules) (settings : CancellationSettings)
    (pipeline : Pipeline) (hPast : SameAccount [] past) :
    (cancelRedundant rules settings pipeline).Follows (.selective rules pipeline)
      (fun _ _ _ => True) past store := by
  have hOutline : RunOutline (Discipline.selective rules pipeline).contract rules settings
      pipeline (fun _ _ _ => True) past store := {
    lookups := Discipline.selective_allowsLookups rules pipeline
    skip := fun _ _ _ => trivial
    missing := fun _ _ _ => trivial
    failed := fun _ _ _ _ _ => trivial
    fault := fun _ _ _ => trivial
    selected := by
      rintro earlier _ reading read held project windowStart head rfl hLooked - hFound hHeld
      have hRead : (Request.store .engine (.project pipeline.projectId)).Occurs reading
        (.ok (some project)) read := hFound
      obtain rfl := hRead.eq_of_isLookup rfl
      have hProject : read.projects.find? pipeline.projectId = some project :=
        Except.ok.inj (congrArg Prod.fst hRead)
      refine runSelected_selective settings ?_ ?_ windowStart (hPast.trans hLooked.sameAccount)
      · rw [Store.KeepsOrigins.projects hHeld]
        exact hProject
      · rw [lastTip?_append_singleton, Exchange.tip?_refHead]
        rfl }
  exact hOutline.fulfills

end Runs

/-! ## Runs among others -/

section Histories

variable {κ : Type} [DecidableEq κ] {runs : κ → CancellationRun} {store : Store}
  {history : List (Moment κ)}
  {final : System fun _ : κ => Except UpkeepError CancellationReport}

/-- A moment of a run leaves the store alone, or cancels one row that the run has
selected. -/
theorem Interleaved.run_selects
    (h : Interleaved Store.Calls (CancellationRun.system store runs) history final)
    {earlier later : List (Moment κ)} {moment : Moment κ}
    (hSplit : history = earlier ++ moment :: later) :
    moment.after = moment.before ∨
      ∃ current ∈ moment.before.pipelines.rows, current.status.isCancelable = true ∧
        moment.after =
          moment.before.cancelRows [current.id] (runs moment.client).initiator.id ∧
        IsSelected (runs moment.client).rules (runs moment.client).initiator
          (ownExchanges moment.client earlier) moment.before current.id := by
  subst hSplit
  have hOccurs := h.occurs moment (List.mem_append_right _ List.mem_cons_self)
  have hPermits := h.permits_among_calls (cancelRedundant_selective _ _ _ (.refl []))
    (fun _ _ hCall => hCall.keepsOrigins) (fun _ _ _ _ => id)
  obtain ⟨hOnly, hSelected⟩ := hPermits
  rcases hOccurs.cancels_cases hOnly with hSame | hCancels
  · exact Or.inl hSame.1
  · obtain ⟨access, row, hAsked, current, hCurrent, hId, hStatus, -, hAfter⟩ := hCancels
    have hRow := hSelected access row _ hAsked
    rw [hId] at hRow
    exact Or.inr ⟨current, hCurrent, hStatus, hAfter, hRow⟩

end Histories

end PipelineUpkeep
