import PipelineUpkeep.Proofs.Contracts
/-!
# Disciplines of programs

A discipline is what is asked of one client among others that work on the same store, all of
whose calls are performed.  It says how the store may change between two requests of the
client, what the client may request, and when it may end in a fault; how requests end is no
matter of choice.  So a discipline is a contract, and following it is fulfilling this contract.
-/

namespace PipelineUpkeep

structure Discipline where
  /-- How the store may change between two requests. -/
  others : Store → Store → Prop
  refl : ∀ store, others store store
  trans : ∀ {a b c}, others a b → others b c → others a c
  /-- What may be requested after some exchanges, of the store of the moment. -/
  permits : List Exchange → Store → Request → Prop
  /-- After which exchanges the program may end in a fault. -/
  mayFault : List Exchange → Prop

/-- Every request is performed. -/
abbrev Discipline.contract (discipline : Discipline) : Contract where
  others := discipline.others
  refl := discipline.refl
  trans := discipline.trans
  ends := Request.Occurs
  permits := discipline.permits
  mayFault := discipline.mayFault

/-- From these exchanges and this store on, the program requests only what the discipline
permits, whatever the answers and the others do, and `post` holds of its value once it is
done. -/
abbrev Program.Follows {α : Type} (discipline : Discipline)
    (post : List Exchange → α → Store → Prop) (program : Program α) (past : List Exchange)
    (store : Store) : Prop :=
  program.Fulfills discipline.contract post past store

/-- A client that follows its discipline from the start follows it at every moment. -/
theorem Interleaved.follows {ι : Type} [DecidableEq ι] {α : ι → Type}
    {foreign : Store → Store → Prop} {start final : System α} {history : List (Moment ι)}
    {client : ι} {discipline : Discipline} {post : List Exchange → α client → Store → Prop}
    (h : Interleaved foreign start history final)
    (hStart : (start.rest client).Follows discipline post [] start.store)
    (hForeign : ∀ before after, foreign before after → discipline.others before after)
    (hOthers : ∀ moment ∈ history, moment.client ≠ client →
      discipline.others moment.before moment.after) :
    (final.rest client).Follows discipline post (ownExchanges client history) final.store :=
  h.fulfills hStart hForeign hOthers fun moment hMoment _ => h.occurs moment hMoment

end PipelineUpkeep
