import RefundEngine.AuditTrail
import RefundEngine.Discrepancies

/-!
# When the worst class raises a false alarm

A line counts as one of no refund when no settled row has its reference.  In a reachable state
a row with a reference is submitted, settled or failed, so a line is reported though its refund
is known exactly when that refund is submitted, its webhook still being on the way, or failed.
-/

namespace RefundEngine

open Interleaving (CallId)

/-- No line is reported as one of no refund while some row has its reference. -/
def NoFalseAlarm (rows : List Refund) (result : ReconResult) : Prop :=
  ∀ gatewayRef ∈ result.lineWithNoRefund, ∀ row ∈ rows, row.gatewayRef ≠ some gatewayRef

/-- The file has a line for a refund that has a reference but is not settled. -/
def NamesUnsettled (rows : List Refund) (settlementFile : List SettlementLine) : Prop :=
  ∃ line ∈ settlementFile, ∃ row ∈ rows, row.gatewayRef = some line.gatewayRef ∧
    (row.status = .submitted ∨ row.status = .failed)

instance (rows : List Refund) (settlementFile : List SettlementLine) :
    Decidable (NamesUnsettled rows settlementFile) :=
  inferInstanceAs (Decidable (∃ line ∈ settlementFile, ∃ row ∈ rows, _))

theorem mem_settledRefs {rows : List Refund} {gatewayRef : String} :
    gatewayRef ∈ settledRefs (settledRows rows) ↔
      ∃ row ∈ rows, row.gatewayRef = some gatewayRef ∧ row.status = .settled := by
  simp only [settledRefs, settledRows, List.mem_map, List.mem_filterMap]
  constructor
  · intro listed
    rcases listed with ⟨entry, ⟨row, rowIn, selected⟩, rfl⟩
    split at selected
    · rename_i name recorded
      split at selected
      · rename_i settled
        cases selected
        exact ⟨row, rowIn, recorded, settled⟩
      · cases selected
    · cases selected
  · intro found
    rcases found with ⟨row, rowIn, recorded, settled⟩
    exact ⟨(row.id, gatewayRef, row.amountCents), ⟨row, rowIn, by simp [recorded, settled]⟩, rfl⟩

/-- A reference is on submitted, settled and failed rows only. -/
theorem EngineRun.status_of_ref {hmac : Hmac} {trace : List EngineEvent} {state : EngineState}
    (run : EngineRun hmac trace state) {row : Refund} (member : row ∈ state.world.rows)
    {gatewayRef : String} (recorded : row.gatewayRef = some gatewayRef) :
    row.status = .submitted ∨ row.status = .settled ∨ row.status = .failed := by
  have past := (run.worldOk.row row member).past_of_ref recorded
  have live := run.not_canceled row member
  cases status : row.status with
  | requested | pendingReview =>
      rw [status] at past
      revert past
      decide
  | submitted => exact .inl rfl
  | settled => exact .inr (.inl rfl)
  | failed => exact .inr (.inr rfl)
  | canceled => exact (live status).elim

/-- For every state of every run and every file: a line is reported as one of no refund only
when no row has its reference, exactly when the file has no line for a refund that is submitted
or failed. -/
theorem no_false_alarm_iff {hmac : Hmac} {trace : List EngineEvent} {state : EngineState}
    (run : EngineRun hmac trace state) (call : CallId) (settlementFile : List SettlementLine) :
    ∃ result, (reconcile settlementFile).eval call state.world = some (.ok result, state.world) ∧
      (NoFalseAlarm state.world.rows result ↔
        ¬NamesUnsettled state.world.rows settlementFile) := by
  refine ⟨_, reconcile_eval settlementFile call state.world, ?_⟩
  constructor
  · intro quiet names
    rcases names with ⟨line, lineIn, row, rowIn, recorded, unsettled⟩
    refine quiet line.gatewayRef (mem_unknown_iff.mpr ⟨List.mem_map_of_mem lineIn, ?_⟩) row rowIn
      recorded
    intro listed
    rcases mem_settledRefs.mp listed with ⟨other, otherIn, recorded', settled⟩
    cases state.world.database.refunds.eq_of_gatewayRef rowIn otherIn recorded recorded'
    rcases unsettled with submitted | failed
    · cases submitted.symm.trans settled
    · cases failed.symm.trans settled
  · intro settles gatewayRef reported row rowIn recorded
    rcases mem_unknown_iff.mp reported with ⟨listed, unsettled⟩
    rcases List.mem_map.mp listed with ⟨line, lineIn, rfl⟩
    rcases run.status_of_ref rowIn recorded with submitted | settled | failed
    · exact settles ⟨line, lineIn, row, rowIn, recorded, .inl submitted⟩
    · exact unsettled (mem_settledRefs.mpr ⟨row, rowIn, recorded, settled⟩)
    · exact settles ⟨line, lineIn, row, rowIn, recorded, .inr failed⟩

/-- A file that pays the settled refund of the sample and one the engine knows nothing of. -/
def paidAndGhost : List SettlementLine := [⟨"re_mock_00000001", 150000⟩, ⟨"re_ghost", 9900⟩]

theorem no_false_alarm_iff_paidAndGhost : ∃ result,
    (reconcile paidAndGhost).eval 0 serialEnd.2.world = some (.ok result, serialEnd.2.world) ∧
    NoFalseAlarm serialEnd.2.world.rows result := by
  rcases no_false_alarm_iff serialEnd_run.engineRun 0 paidAndGhost with ⟨result, returned, decides⟩
  exact ⟨result, returned, decides.mpr (by decide +kernel)⟩

/-- A file that runs ahead of the webhook of the sample's second refund. -/
def aheadOfWebhook : List SettlementLine := [⟨"re_mock_00000002", 2000⟩]

/-- The refund is in the table, submitted under that reference, and its line is reported as one
of no refund. -/
theorem false_alarm : ¬∀ (hmac : Hmac) (trace : List EngineEvent) (state : EngineState)
    (call : CallId) (settlementFile : List SettlementLine) (result : ReconResult),
    SerialRun hmac (fun _ => False) trace state →
    (reconcile settlementFile).eval call state.world = some (.ok result, state.world) →
    NoFalseAlarm state.world.rows result := by
  intro quiet
  have alarm := quiet sampleHmac serialEnd.1 serialEnd.2 0 aheadOfWebhook _ serialEnd_run
    (reconcile_eval ..)
  have known : ∃ row ∈ serialEnd.2.world.rows, row.gatewayRef = some "re_mock_00000002" := by
    decide +kernel
  rcases known with ⟨row, rowIn, recorded⟩
  exact alarm "re_mock_00000002" (by decide +kernel) row rowIn recorded

end RefundEngine
