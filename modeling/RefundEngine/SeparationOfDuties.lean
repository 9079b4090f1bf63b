import RefundEngine.Invariant.Run

/-!
# Separation of duties

A refund at or above the review threshold leaves review only through an approval by
someone other than its requester, so nothing large reaches the gateway without one.
-/

namespace RefundEngine

open Interleaving (CallId own mem_own)

/-- Someone other than the requester has approved the refund: a call of `approve` read it
as pending and not requested by the approver, and later ran its update on it. -/
def Approved (trace : List EngineEvent) (refundId : Uuid) (requestedBy : String) : Prop :=
  ∃ call approver since earlier before after row pending,
    trace = since ++ .answered call (.approve refundId approver)
      (.sql (.updateRefunds (.markRequested refundId))) (.ok ()) after :: earlier ∧
    .answered call (.approve refundId approver) (.sql (.getRefund refundId))
      (.ok (some row)) before ∈ earlier ∧
    row.status = .pendingReview ∧ row.requestedBy = requestedBy ∧ approver ≠ requestedBy ∧
    pending ∈ after.rows ∧ pending.id = refundId ∧ pending.status = .pendingReview

theorem Approved.cons {trace : List EngineEvent} {refundId : Uuid} {requestedBy : String}
    (event : EngineEvent) (approved : Approved trace refundId requestedBy) :
    Approved (event :: trace) refundId requestedBy := by
  obtain ⟨call, approver, since, earlier, before, after, row, pending, rfl, found⟩ := approved
  exact ⟨call, approver, event :: since, earlier, before, after, row, pending, rfl, found⟩

section Step

variable {hmac : Hmac} {trace : List EngineEvent} {state next : EngineState}
variable {event : EngineEvent}

/-- The only update that takes a row out of review is the approver's. -/
private theorem update_of_released {world : World} {row : Refund} {update : RefundUpdate}
    {now : Timestamp} (ok : RowOk world.gateway row) (applies : update.Applies row)
    (legit : update.Legit world.gateway row) (pending : row.status = .pendingReview)
    (released : (update.assign now row).status ≠ .pendingReview) :
    update = .markRequested row.id := by
  obtain ⟨unrecorded, unheld⟩ := ok.unsent (by simp [pending, Status.rank])
  cases update with
  | markSubmitted id =>
      rcases applies.2 with status | status <;> simp [pending] at status
  | recordRef id gatewayRef => exact (released pending).elim
  | recoverRef id gatewayRef =>
      obtain ⟨⟨refund, held, _⟩, _⟩ := legit
      rw [← applies.1, ← ok.key, unheld] at held
      cases held
  | markRequested id => rw [applies.1]
  | settle gatewayRef | fail gatewayRef reason =>
      rw [applies.1] at unrecorded
      cases unrecorded

private theorem approved_of_step (run : EngineRun hmac trace state)
    (step : (engine hmac).Step state event next) (permitted : NoCancel trace event)
    {row : Refund} (member : row ∈ state.world.rows) (pending : row.status = .pendingReview)
    {call : CallId} {operation : Operation}
    (approves : event = .answered call operation
      (.sql (.updateRefunds (.markRequested row.id))) (.ok ()) state.world) :
    Approved (event :: trace) row.id row.requestedBy := by
  subst approves
  obtain ⟨approver, read, rfl, answered, status, different⟩ := run.permits step
  obtain ⟨readId, row', member', advances⟩ := answered.getRefund run.recalled
  have isRow := state.world.database.refunds.eq_of_id member' member
    (advances.id.trans readId)
  subst isRow
  obtain ⟨before, inTrace⟩ := answered
  exact ⟨call, approver, [], trace, before, state.world, read, row', rfl,
    (mem_own.mp inTrace).1, status, advances.requestedBy.symm, advances.requestedBy ▸ different,
    member, rfl, pending⟩

/-- One step: a large row that is out of review after it has been approved by then. -/
private theorem approved_step (run : EngineRun hmac trace state)
    (approved : ∀ row ∈ state.world.rows, reviewThresholdCents ≤ row.amountCents →
      row.status ≠ .pendingReview → Approved trace row.id row.requestedBy)
    (step : (engine hmac).Step state event next) (permitted : NoCancel trace event)
    (row : Refund) (member : row ∈ next.world.rows)
    (large : reviewThresholdCents ≤ row.amountCents) (released : row.status ≠ .pendingReview) :
    Approved (event :: trace) row.id row.requestedBy := by
  have ok := run.worldOk
  cases rowOrigin ok step member with
  | kept earlier => exact (approved row earlier large released).cons _
  | @updated call operation update earlier earlierIn applies =>
      simp only [RefundUpdate.assign_amountCents, RefundUpdate.assign_id,
        RefundUpdate.assign_requestedBy] at large ⊢
      by_cases pending : earlier.status = .pendingReview
      · have founded := (run.guarantee step permitted).invariant.founded _ _ _ _ _
          (List.mem_cons_self ..)
        have release := update_of_released (ok.row earlier earlierIn) applies
          (founded.1 earlier earlierIn applies) pending released
        subst release
        exact approved_of_step run step permitted earlierIn pending rfl
      · exact (approved earlier earlierIn large pending).cons _
  | @decided call operation transaction update writtenAt earlier _ _ _ _ earlierIn applies
      decides =>
      simp only [RefundUpdate.assign_amountCents, RefundUpdate.assign_id,
        RefundUpdate.assign_requestedBy] at large ⊢
      have recorded := RefundUpdate.gatewayRef_of_decision decides applies
      have past := (ok.row earlier earlierIn).past_of_ref recorded
      refine (approved earlier earlierIn large ?_).cons _
      intro pending
      simp [pending, Status.rank] at past
  | inserted opened writes new =>
      rw [new.status, if_pos large] at released
      exact (released rfl).elim
  | canceled => exact permitted.elim

/-- Every large refund out of review has been approved by a second person. -/
theorem EngineRun.approved (run : EngineRun hmac trace state) :
    ∀ row ∈ state.world.rows, reviewThresholdCents ≤ row.amountCents →
      row.status ≠ .pendingReview → Approved trace row.id row.requestedBy := by
  refine run.preserves
    (fun trace state => ∀ row ∈ state.world.rows,
      reviewThresholdCents ≤ row.amountCents → row.status ≠ .pendingReview →
      Approved trace row.id row.requestedBy) ?_ ?_
  · intro charges config now row member
    cases member
  · intro trace state event next run approved step permitted
    exact approved_step run approved step permitted

end Step

/-- Separation of duties reaches the gateway: a large refund that the gateway holds, or
that has any status but `pending_review`, has been approved by someone other than its
requester; small refunds are never in review; and no refund returns to it. -/
theorem separation_of_duties {hmac : Hmac} {trace : List EngineEvent} {state : EngineState}
    (run : EngineRun hmac trace state) (row : Refund) (member : row ∈ state.world.rows) :
    (reviewThresholdCents ≤ row.amountCents →
      (state.world.gateway.lookupByKey row.id.toString).isSome ∨
        row.status ≠ .pendingReview → Approved trace row.id row.requestedBy) ∧
    (row.amountCents < reviewThresholdCents → row.status ≠ .pendingReview) ∧
    (row.status ≠ .pendingReview → ∀ more later, (engine hmac).Run NoCancel state more later →
      ∀ row' ∈ later.world.rows, row'.id = row.id → row'.status ≠ .pendingReview) := by
  have rowOk := run.worldOk.row row member
  refine ⟨?_, rowOk.small, ?_⟩
  · rintro large (held | released)
    · obtain ⟨refund, held⟩ := Option.isSome_iff_exists.mp held
      rw [← rowOk.key] at held
      have past := rowOk.past_of_held held
      refine run.approved row member large ?_
      intro pending
      simp [pending, Status.rank] at past
    · exact run.approved row member large released
  · intro released more later continued row' member' same pending
    obtain ⟨found, foundIn, advances⟩ := (run.later continued).forward row member
    have isRow := later.world.database.refunds.eq_of_id member' foundIn
      (same.trans advances.id.symm)
    subst isRow
    have rank := advances.rank_le
    revert released rank
    rw [pending]
    cases row.status <;> simp [Status.rank]

/-- In the sample the large refund was approved by its second person. -/
theorem separation_of_duties_sample :
    ∃ row ∈ sampleEnd.2.world.rows, row.amountCents = 150000 ∧ row.status = .settled ∧
      Approved sampleEnd.1 row.id row.requestedBy := by
  have exists_row : ∃ row ∈ sampleEnd.2.world.rows,
      row.amountCents = 150000 ∧ row.status = .settled := by decide +kernel
  obtain ⟨row, member, amount, settled⟩ := exists_row
  refine ⟨row, member, amount, settled, ?_⟩
  exact (separation_of_duties sampleEnd_run row member).1 (by rw [amount]; decide)
    (.inr (by simp [settled]))

end RefundEngine
