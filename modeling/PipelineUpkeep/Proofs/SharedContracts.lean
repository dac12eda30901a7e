import PipelineUpkeep.Proofs.ContractRuns
import PipelineUpkeep.Proofs.SideBySide
/-!
# Programs that share a store

Each of several programs that run side by side has a share: what it relies on, and what it
requests.  If no request of one program breaks what another one relies on, the programs
keep to their shares in every order of their requests, and each of them achieves what it
achieves among others in general.
-/

namespace PipelineUpkeep

/-- What a program relies on, and what it requests, at any time. -/
structure Share where
  rely : Store → Store → Prop
  refl : ∀ store, rely store store
  trans : ∀ {a b c}, rely a b → rely b c → rely a c
  allows : Store → Request → Prop

/-- The contract of a program with this share. -/
def Share.contract (share : Share) (ends : (asked : Request) → Store → asked.Answer → Store → Prop)
    (mayFault : Prop) : Contract where
  others := share.rely
  refl := share.refl
  trans := share.trans
  ends := ends
  permits _ := share.allows
  mayFault _ := mayFault

/-- Among fewer others, the same requests. -/
def Share.within (share whole : Share) : Share := { whole with allows := share.allows }

namespace Program

variable {α : Type} {ends : (asked : Request) → Store → asked.Answer → Store → Prop}
  {mayFault : Prop}

/-- A share does not depend on what was exchanged before. -/
theorem Fulfills.anytime {share : Share} {post : α → Store → Prop} {program : Program α}
    {past : List Exchange} {store : Store}
    (h : program.Fulfills (share.contract ends mayFault) (fun _ => post) past store)
    (other : List Exchange) :
    program.Fulfills (share.contract ends mayFault) (fun _ => post) other store := by
  induction program generalizing past other store with
  | done value => exact h
  | crash fault => exact h
  | request asked resume ih =>
      intro before hBefore
      obtain ⟨hAllows, hResume⟩ := h before hBefore
      exact ⟨hAllows, fun answer after hEnds => ih answer (hResume answer after hEnds) _⟩

/-- The shares go together: the whole covers them, and no request of one of them breaks what
another one relies on. -/
structure Agree (shares : Nat → Share) (whole : Share)
    (ends : (asked : Request) → Store → asked.Answer → Store → Prop) : Prop where
  rely : ∀ i {before after}, whole.rely before after → (shares i).rely before after
  allows : ∀ i {before asked}, (shares i).allows before asked → whole.allows before asked
  apart : ∀ i j, i ≠ j → ∀ {before asked answer after}, (shares j).allows before asked →
    ends asked before answer after → (shares i).rely before after

variable {shares : Nat → Share} {whole : Share} {posts : Nat → α → Store → Prop}

/-- Without the first one. -/
theorem Agree.tail (h : Agree shares whole ends) :
    Agree (fun i => shares (i + 1))
      { whole with allows := fun before asked => ∃ i, (shares (i + 1)).allows before asked }
      ends where
  rely i _ _ hOthers := h.rely (i + 1) hOthers
  allows i _ _ hAllows := ⟨i, hAllows⟩
  apart i j hNe _ _ _ _ hAllows hEnds :=
    h.apart (i + 1) (j + 1) (fun hSame => hNe (Nat.succ.inj hSame)) hAllows hEnds

/-- Each program has come to what it is to achieve. -/
def AllAchieve (posts : Nat → α → Store → Prop) (count : Nat) (values : List α) (held : Store) :
    Prop :=
  values.length = count ∧ ∀ i value, values[i]? = some value → posts i value held

/-- One program after the other. -/
theorem inTurn_fulfills (hAgree : Agree shares whole ends) {programs : List (Program α)}
    {past : List Exchange} {store : Store}
    (h : ∀ i (program : Program α), programs[i]? = some program →
      program.Fulfills ((shares i).contract ends mayFault) (fun _ => posts i) [] store) :
    (inTurn programs).Fulfills (whole.contract ends mayFault)
      (fun _ => AllAchieve posts programs.length) past store := by
  induction programs generalizing shares whole posts past store with
  | nil => exact fulfills_pure fun _ _ => ⟨rfl, nofun⟩
  | cons program rest ih =>
      -- What the first program achieves lasts, and it leaves the rest what that relies on.
      have hFirst : program.Fulfills (whole.contract ends mayFault)
          (fun _ value held => (∀ later, (shares 0).rely held later → posts 0 value later) ∧
            ∀ i, (shares (i + 1)).rely store held) past store := by
        have hOwn := ((h 0 program rfl).anytime past).lasting
        have hWithin := hOwn.mono (((shares 0).within whole).contract ends mayFault)
          (fun _ _ => hAgree.rely 0) (fun _ _ _ _ => id) (fun _ _ _ => id) (fun _ => id)
        have hCarries := hWithin.carry (fun before after => ∀ i, (shares (i + 1)).rely before after)
          (fun held i => (shares (i + 1)).refl held)
          (fun hOne hTwo i => (shares (i + 1)).trans (hOne i) (hTwo i))
          (fun _ _ hOthers i => hAgree.rely (i + 1) hOthers)
          (fun _ _ _ _ _ hAllows hEnds i =>
            hAgree.apart (i + 1) 0 (Nat.succ_ne_zero i) hAllows hEnds)
        exact hCarries.mono _ (fun _ _ => id) (fun _ _ _ _ => id)
          (fun _ _ _ hAllows => hAgree.allows 0 hAllows) (fun _ => id)
      refine hFirst.andThen ?_
      rintro later value held ⟨hValue, hRest⟩
      have hTail : (inTurn rest).Fulfills (Share.contract _ ends mayFault)
          (fun _ => AllAchieve (fun i => posts (i + 1)) rest.length) later held :=
        ih hAgree.tail fun i other hOther => (h (i + 1) other hOther).after (hRest i)
      have hKeeps := hTail.carry (shares 0).rely (shares 0).refl (shares 0).trans
        (fun _ _ => hAgree.rely 0)
        (fun _ _ _ _ _ ⟨i, hAllows⟩ hEnds =>
          hAgree.apart 0 (i + 1) (Nat.succ_ne_zero i).symm hAllows hEnds)
      have hWhole := hKeeps.mono (whole.contract ends mayFault) (fun _ _ => id)
        (fun _ _ _ _ => id) (fun _ _ _ ⟨i, hAllows⟩ => hAgree.allows (i + 1) hAllows) (fun _ => id)
      refine hWhole.lasting.andThen ?_
      rintro _ values final hAll
      refine fulfills_pure fun last hLast => ?_
      obtain ⟨⟨hLength, hValues⟩, hFinal⟩ := hAll last hLast
      refine ⟨congrArg Nat.succ hLength, fun i found hFound => ?_⟩
      cases i with
      | zero =>
          obtain rfl : value = found := Option.some.inj hFound
          exact hValue last hFinal
      | succ i => exact hValues i found hFound

/-- Programs that keep to shares that agree keep to them side by side, in whatever order they
make their requests. -/
theorem sideBySide_fulfills (hAgree : Agree shares whole ends) (order : List Nat)
    {programs : List (Program α)} {past : List Exchange} {store : Store}
    (h : ∀ i (program : Program α), programs[i]? = some program →
      program.Fulfills ((shares i).contract ends mayFault) (fun _ => posts i) [] store) :
    (sideBySide order programs).Fulfills (whole.contract ends mayFault)
      (fun _ => AllAchieve posts programs.length) past store := by
  induction order generalizing programs past store with
  | nil => exact inTurn_fulfills hAgree h
  | cons next order ih =>
      match hNext : programs[next]? with
      | none =>
          rw [sideBySide, hNext]
          exact ih h
      | some (done value) =>
          rw [sideBySide, hNext]
          exact ih h
      | some (crash fault) =>
          rw [sideBySide, hNext]
          exact h next _ hNext
      | some (request asked resume) =>
          rw [sideBySide, hNext]
          intro before hBefore
          obtain ⟨hAllows, hResume⟩ := h next _ hNext before (hAgree.rely next hBefore)
          refine ⟨hAgree.allows next hAllows, fun answer after hEnds => ?_⟩
          have hCount : (programs.set next (resume answer)).length = programs.length :=
            List.length_set
          rw [← hCount]
          refine ih fun i program hProgram => ?_
          by_cases hSame : i = next
          · subst hSame
            have hLength : i < programs.length := (List.getElem?_eq_some_iff.mp hNext).1
            rw [List.getElem?_set_self hLength] at hProgram
            obtain rfl := Option.some.inj hProgram
            exact (hResume answer after hEnds).anytime []
          · rw [List.getElem?_set_ne (Ne.symm hSame)] at hProgram
            have hBetween := (shares i).trans (hAgree.rely i hBefore)
              (hAgree.apart i next hSame hAllows hEnds)
            exact (h i program hProgram).after hBetween

end Program

end PipelineUpkeep
