import RefundEngine.Engine
import RefundEngine.Growth

/-!
# What a refund row satisfies

The linking invariant between a row and the gateway, and the order in which rows
advance.  Every `UPDATE refunds` statement keeps the one and respects the other, given
only that a recorded reference was learned from the gateway.
-/

namespace RefundEngine

/-- How far a status is along the state machine. -/
def Status.rank : Status → Nat
  | .pendingReview => 0
  | .requested => 1
  | .submitted => 2
  | .settled | .failed | .canceled => 3

/-- What may happen to a row over time: its terms never change, a recorded reference
stays, and the status only moves forward. -/
structure Advances (before after : Refund) : Prop where
  id : after.id = before.id
  chargeId : after.chargeId = before.chargeId
  amountCents : after.amountCents = before.amountCents
  currency : after.currency = before.currency
  idempotencyKey : after.idempotencyKey = before.idempotencyKey
  requestedBy : after.requestedBy = before.requestedBy
  gatewayRef : ∀ gatewayRef, before.gatewayRef = some gatewayRef →
    after.gatewayRef = some gatewayRef
  status : after.status = before.status ∨ before.status.rank < after.status.rank

namespace Advances

theorem refl (row : Refund) : Advances row row :=
  ⟨rfl, rfl, rfl, rfl, rfl, rfl, fun _ same => same, .inl rfl⟩

theorem trans {first second third : Refund} (left : Advances first second)
    (right : Advances second third) : Advances first third where
  id := right.id.trans left.id
  chargeId := right.chargeId.trans left.chargeId
  amountCents := right.amountCents.trans left.amountCents
  currency := right.currency.trans left.currency
  idempotencyKey := right.idempotencyKey.trans left.idempotencyKey
  requestedBy := right.requestedBy.trans left.requestedBy
  gatewayRef gatewayRef recorded := right.gatewayRef _ (left.gatewayRef _ recorded)
  status := by
    rcases left.status with same | forward <;> rcases right.status with same' | forward'
    · exact .inl (same'.trans same)
    · exact .inr (same ▸ forward')
    · exact .inr (same' ▸ forward)
    · exact .inr (forward.trans forward')

theorem status_of_isTerminal {before after : Refund} (advances : Advances before after)
    (terminal : before.status.isTerminal = true) : after.status = before.status := by
  rcases advances.status with same | forward
  · exact same
  · exfalso
    revert terminal forward
    cases before.status <;> cases after.status <;> simp [Status.isTerminal, Status.rank]

theorem rank_le {before after : Refund} (advances : Advances before after) :
    before.status.rank ≤ after.status.rank := by
  rcases advances.status with same | forward
  · rw [same]
  · exact forward.le

theorem active {before after : Refund} (advances : Advances before after)
    (active : after.Active) : before.Active := by
  constructor
  · intro failed
    exact active.1 ((advances.status_of_isTerminal (by simp [failed, Status.isTerminal])).trans
      failed)
  · intro canceled
    exact active.2
      ((advances.status_of_isTerminal (by simp [canceled, Status.isTerminal])).trans canceled)

end Advances

/-- The linking invariant of one row: until it is submitted it has no reference and the
gateway does not know it; once decided it has one; a reference is the id of the object
the gateway holds under the row's own key, on the row's own terms. -/
structure RowOk (gateway : MockGateway) (row : Refund) : Prop where
  key : row.idempotencyKey = row.id.toString
  unsent : row.status.rank < Status.submitted.rank →
    row.gatewayRef = none ∧ gateway.lookupByKey row.idempotencyKey = none
  decided : row.status = .settled ∨ row.status = .failed → row.gatewayRef ≠ none
  ref : ∀ gatewayRef, row.gatewayRef = some gatewayRef →
    ∃ refund, gateway.lookupByKey row.idempotencyKey = some refund ∧
      refund.id = gatewayRef
  object : ∀ refund, gateway.lookupByKey row.idempotencyKey = some refund →
    refund.amount = row.amountCents ∧ refund.currency = row.currency
  small : row.amountCents < reviewThresholdCents → row.status ≠ .pendingReview

namespace RowOk

variable {gateway : MockGateway} {row : Refund}

/-- A row past review and without a reference waits in `submitted`, unless it has been
canceled. -/
theorem submitted_of_unrecorded (ok : RowOk gateway row) (unrecorded : row.gatewayRef = none)
    (past : Status.submitted.rank ≤ row.status.rank) (live : row.status ≠ .canceled) :
    row.status = .submitted := by
  have undecided : ¬(row.status = .settled ∨ row.status = .failed) :=
    fun decided => ok.decided decided unrecorded
  revert past undecided live
  cases row.status <;> simp [Status.rank]

theorem past_of_ref (ok : RowOk gateway row) {gatewayRef : String}
    (recorded : row.gatewayRef = some gatewayRef) :
    Status.submitted.rank ≤ row.status.rank := by
  by_contra early
  have := (ok.unsent (Nat.lt_of_not_le early)).1
  simp [recorded] at this

theorem past_of_held (ok : RowOk gateway row) {refund : GatewayRefund}
    (held : gateway.lookupByKey row.idempotencyKey = some refund) :
    Status.submitted.rank ≤ row.status.rank := by
  by_contra early
  have := (ok.unsent (Nat.lt_of_not_le early)).2
  simp [held] at this

end RowOk

/-- A statement that records a reference has learned it from the gateway, and recovery
does not run it on a canceled row. -/
def RefundUpdate.Legit (gateway : MockGateway) (row : Refund) : RefundUpdate → Prop
  | .recordRef id gatewayRef =>
      ∃ refund, gateway.lookupByKey id.toString = some refund ∧ refund.id = gatewayRef
  | .recoverRef id gatewayRef =>
      (∃ refund, gateway.lookupByKey id.toString = some refund ∧ refund.id = gatewayRef) ∧
        row.status ≠ .canceled
  | _ => True

/-- Changing nothing but status, reference and bookkeeping columns, forward and in
agreement with the gateway, keeps the row's invariant. -/
private theorem RowOk.of_status {gateway : MockGateway} {row after : Refund}
    (ok : RowOk gateway row) (advances : Advances row after)
    (past : Status.submitted.rank ≤ after.status.rank)
    (decided : after.status = .settled ∨ after.status = .failed → after.gatewayRef ≠ none)
    (ref : ∀ gatewayRef, after.gatewayRef = some gatewayRef →
      ∃ refund, gateway.lookupByKey row.idempotencyKey = some refund ∧
        refund.id = gatewayRef) : RowOk gateway after where
  key := by rw [advances.idempotencyKey, advances.id, ok.key]
  unsent early := absurd past (Nat.not_le_of_lt early)
  decided := decided
  ref := by rwa [advances.idempotencyKey]
  object := by
    rw [advances.idempotencyKey, advances.amountCents, advances.currency]
    exact ok.object
  small _ := by
    intro pending
    simp [pending, Status.rank] at past

/-- Every `UPDATE refunds` statement of the engine keeps the linking invariant and moves
the row forward. -/
theorem RowOk.assign {gateway : MockGateway} {row : Refund} {update : RefundUpdate}
    (ok : RowOk gateway row) (applies : update.Applies row)
    (legit : update.Legit gateway row) (now : Timestamp) :
    RowOk gateway (update.assign now row) ∧ Advances row (update.assign now row) := by
  cases update with
  | markSubmitted id =>
      have advances : Advances row (RefundUpdate.assign now (.markSubmitted id) row) :=
        ⟨rfl, rfl, rfl, rfl, rfl, rfl, fun _ same => same, by
          rcases applies.2 with status | status <;>
            simp [RefundUpdate.assign, status, Status.rank]⟩
      exact ⟨ok.of_status advances (by simp [RefundUpdate.assign])
        (by simp [RefundUpdate.assign]) ok.ref, advances⟩
  | recordRef id gatewayRef =>
      obtain ⟨refund, held, name⟩ := legit
      rw [← applies.1, ← ok.key] at held
      have advances : Advances row (RefundUpdate.assign now (.recordRef id gatewayRef) row) :=
        ⟨rfl, rfl, rfl, rfl, rfl, rfl, by simp [applies.2], .inl rfl⟩
      refine ⟨ok.of_status advances (ok.past_of_held held) (by simp [RefundUpdate.assign]) ?_,
        advances⟩
      rintro other ⟨rfl⟩
      exact ⟨refund, held, name⟩
  | recoverRef id gatewayRef =>
      obtain ⟨⟨refund, held, name⟩, live⟩ := legit
      rw [← applies.1, ← ok.key] at held
      have waiting := ok.submitted_of_unrecorded applies.2 (ok.past_of_held held) live
      have advances :
          Advances row (RefundUpdate.assign now (.recoverRef id gatewayRef) row) :=
        ⟨rfl, rfl, rfl, rfl, rfl, rfl, by simp [applies.2], .inl waiting.symm⟩
      refine ⟨ok.of_status advances (by simp [RefundUpdate.assign])
        (by simp [RefundUpdate.assign]) ?_, advances⟩
      rintro other ⟨rfl⟩
      exact ⟨refund, held, name⟩
  | markRequested id =>
      have early : row.status.rank < Status.submitted.rank := by
        simp [applies.2, Status.rank]
      obtain ⟨unrecorded, unheld⟩ := ok.unsent early
      refine ⟨⟨ok.key, fun _ => ⟨unrecorded, unheld⟩, by simp [RefundUpdate.assign],
        ok.ref, ok.object, by simp [RefundUpdate.assign]⟩,
        ⟨rfl, rfl, rfl, rfl, rfl, rfl, fun _ same => same, .inr ?_⟩⟩
      simp [RefundUpdate.assign, applies.2, Status.rank]
  | settle gatewayRef =>
      have past := ok.past_of_ref applies.1
      have waiting : row.status = .submitted := by
        rcases applies.2 with status | status
        · exact status
        · simp [status, Status.rank] at past
      have advances : Advances row (RefundUpdate.assign now (.settle gatewayRef) row) :=
        ⟨rfl, rfl, rfl, rfl, rfl, rfl, fun _ same => same,
          .inr (by simp [RefundUpdate.assign, waiting, Status.rank])⟩
      exact ⟨ok.of_status advances (by simp [RefundUpdate.assign, Status.rank])
        (by simp [RefundUpdate.assign, applies.1]) ok.ref, advances⟩
  | fail gatewayRef reason =>
      have past := ok.past_of_ref applies.1
      have advances : Advances row (RefundUpdate.assign now (.fail gatewayRef reason) row) := by
        refine ⟨rfl, rfl, rfl, rfl, rfl, rfl, fun _ same => same, ?_⟩
        obtain ⟨_, notSettled, live⟩ := applies
        revert past notSettled live
        cases row.status <;> simp [RefundUpdate.assign, Status.rank]
      exact ⟨ok.of_status advances (by simp [RefundUpdate.assign, Status.rank])
        (by simp [RefundUpdate.assign, applies.1]) ok.ref, advances⟩

/-! ## The sum over a charge -/

/-- What one row contributes to the sum over a charge. -/
def Refund.share (chargeId : Uuid) (row : Refund) : Int :=
  if row.chargeId = chargeId ∧ row.Active then row.amountCents.toInt else 0

theorem refundedSoFar_eq (rows : List Refund) (chargeId : Uuid) :
    refundedSoFar rows chargeId = (rows.map (Refund.share chargeId)).sum := by
  induction rows with
  | nil => rfl
  | cons row rows ih =>
      simp only [refundedSoFar, List.filter_cons, List.map_cons, List.sum_cons] at ih ⊢
      rw [← ih]
      by_cases counts : row.chargeId = chargeId ∧ row.Active
      · simp [Refund.share, counts]
      · simp [Refund.share, counts]

theorem Refund.share_nonneg (chargeId : Uuid) (row : Refund) : 0 ≤ row.share chargeId := by
  have positive := Int64.lt_iff_toInt_lt.mp row.amountCents_pos
  simp only [Refund.share]
  split
  · simpa using positive.le
  · exact le_refl 0

theorem Refund.share_le (chargeId : Uuid) (row : Refund) :
    row.share chargeId ≤ row.amountCents.toInt := by
  have positive := Int64.lt_iff_toInt_lt.mp row.amountCents_pos
  simp only [Refund.share]
  split
  · exact le_refl _
  · simpa using positive.le

theorem Refund.share_of_ne {chargeId : Uuid} {row : Refund} (other : row.chargeId ≠ chargeId) :
    row.share chargeId = 0 := by
  simp [Refund.share, other]

theorem refundedSoFar_nonneg (rows : List Refund) (chargeId : Uuid) :
    0 ≤ refundedSoFar rows chargeId := by
  rw [refundedSoFar_eq]
  apply List.sum_nonneg
  intro value member
  obtain ⟨row, _, rfl⟩ := List.mem_map.mp member
  exact row.share_nonneg chargeId

theorem refundedSoFar_append (rows : List Refund) (row : Refund) (chargeId : Uuid) :
    refundedSoFar (rows ++ [row]) chargeId =
      refundedSoFar rows chargeId + row.share chargeId := by
  simp [refundedSoFar_eq]

/-- Over a table that grows without new rows for the charge, the sum never rises. -/
theorem refundedSoFar_le_of_grows {fresh : Refund → Prop} {before after : List Refund}
    (chargeId : Uuid) (elsewhere : ∀ row, fresh row → row.chargeId ≠ chargeId)
    (grows : Growth.Grows Advances fresh before after) :
    refundedSoFar after chargeId ≤ refundedSoFar before chargeId := by
  rw [refundedSoFar_eq, refundedSoFar_eq]
  apply grows.sum_le
  · intro row row' advances
    by_cases counts : row'.chargeId = chargeId ∧ row'.Active
    · have counted : row.chargeId = chargeId ∧ row.Active :=
        ⟨advances.chargeId ▸ counts.1, advances.active counts.2⟩
      simp [Refund.share, counts, counted, advances.amountCents]
    · simpa [Refund.share, counts] using row.share_nonneg chargeId
  · intro row isFresh
    simp [Refund.share, elsewhere row isFresh]

end RefundEngine
