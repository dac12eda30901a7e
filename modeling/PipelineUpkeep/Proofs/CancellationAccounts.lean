import PipelineUpkeep.Cancellation.Run
import PipelineUpkeep.Proofs.Discipline
import PipelineUpkeep.Proofs.TableLaws
/-!
# What a run has canceled and recorded

The exchanges of a run tell which pipelines it has canceled and which audit records it
has handed over.  A summary is *accounted for* when it lists exactly the pipelines that
were canceled, and each of them has its record.
-/

namespace PipelineUpkeep

namespace Exchange

/-- The pipeline that the exchange has canceled. -/
def canceledId? : Exchange → Option Nat
  | ⟨.store _ (.cancelRunning row _), .ok .canceled⟩ => some row.id
  | _ => none

/-- The audit record that the exchange has handed over. -/
def auditRecord? : Exchange → Option AuditRecord
  | ⟨.audit entry, _⟩ => some entry
  | _ => none

theorem asked_eq_of_auditRecord? {exchange : Exchange} {entry : AuditRecord}
    (h : exchange.auditRecord? = some entry) : exchange.asked = .audit entry := by
  unfold auditRecord? at h
  split at h
  · rw [Option.some.inj h]
  · cases h

end Exchange

/-- The pipelines that were canceled, in order. -/
def canceledIds (past : List Exchange) : List Nat :=
  past.filterMap Exchange.canceledId?

/-- The audit records that were handed over, in order. -/
def auditRecords (past : List Exchange) : List AuditRecord :=
  past.filterMap Exchange.auditRecord?

theorem canceledIds_append (past later : List Exchange) :
    canceledIds (past ++ later) = canceledIds past ++ canceledIds later :=
  List.filterMap_append

theorem auditRecords_append (past later : List Exchange) :
    auditRecords (past ++ later) = auditRecords past ++ auditRecords later :=
  List.filterMap_append

/-- No pipeline was canceled and no record handed over in between. -/
structure SameAccount (past later : List Exchange) : Prop where
  canceledIds_eq : canceledIds later = canceledIds past
  auditRecords_eq : auditRecords later = auditRecords past

theorem SameAccount.refl (past : List Exchange) : SameAccount past past := ⟨rfl, rfl⟩

theorem SameAccount.trans {past middle later : List Exchange} (h : SameAccount past middle)
    (hLater : SameAccount middle later) : SameAccount past later :=
  ⟨hLater.canceledIds_eq.trans h.canceledIds_eq, hLater.auditRecords_eq.trans h.auditRecords_eq⟩

theorem sameAccount_append {past : List Exchange} {exchange : Exchange}
    (hCanceled : exchange.canceledId? = none) (hRecord : exchange.auditRecord? = none) :
    SameAccount past (past ++ [exchange]) := by
  constructor
  · simp [canceledIds, hCanceled]
  · simp [auditRecords, hRecord]

/-- Every canceled pipeline has its record. -/
def Audited (past : List Exchange) : Prop :=
  (auditRecords past).map (·.canceledPipelineId) = canceledIds past

theorem Audited.of_sameAccount {past later : List Exchange} (h : Audited past)
    (hSame : SameAccount past later) : Audited later := by
  unfold Audited
  rw [hSame.canceledIds_eq, hSame.auditRecords_eq]
  exact h

/-- The summary lists the canceled pipelines, and each has its record. -/
structure Accounted (past : List Exchange) (summary : CancellationSummary) : Prop where
  audited : Audited past
  mem_canceled_iff : ∀ id, id ∈ summary.canceled.toList ↔ id ∈ canceledIds past

namespace Accounted

variable {past later : List Exchange} {summary : CancellationSummary}

theorem empty (h : canceledIds past = []) (hAudited : Audited past) :
    Accounted past CancellationSummary.empty where
  audited := hAudited
  mem_canceled_iff id := by
    rw [h]
    exact Iff.rfl

theorem of_sameAccount (h : Accounted past summary) (hSame : SameAccount past later) :
    Accounted later summary where
  audited := h.audited.of_sameAccount hSame
  mem_canceled_iff id := by
    rw [hSame.canceledIds_eq]
    exact h.mem_canceled_iff id

/-- Only the canceled pipelines of a summary count. -/
theorem of_canceled_eq {other : CancellationSummary} (h : Accounted past summary)
    (hCanceled : other.canceled = summary.canceled) : Accounted past other where
  audited := h.audited
  mem_canceled_iff id := by
    rw [hCanceled]
    exact h.mem_canceled_iff id

theorem addCanceled {id : Nat} (h : Accounted past summary) (hAudited : Audited later)
    (hCanceled : canceledIds later = canceledIds past ++ [id]) :
    Accounted later (summary.addCanceled id) where
  audited := hAudited
  mem_canceled_iff other := by
    rw [hCanceled, List.mem_append, List.mem_singleton, ← h.mem_canceled_iff, or_comm]
    exact IdSet.mem_toList_insert_iff _ _ _

end Accounted

end PipelineUpkeep
