import RefundEngine.ExactlyOnce

/-!
# No over-refund

What the database counts against a charge, and what the gateway has issued for it, stay
within what was captured, whatever the interleaving.
-/

namespace RefundEngine

/-- The key is that of a refund of the charge which has not failed. -/
def World.Owed (world : World) (chargeId : Uuid) (key : String) : Prop :=
  ∃ row ∈ world.rows, row.idempotencyKey = key ∧ row.chargeId = chargeId ∧
    row.status ≠ .failed

instance (world : World) (chargeId : Uuid) (key : String) :
    Decidable (world.Owed chargeId key) :=
  inferInstanceAs (Decidable (∃ row ∈ world.rows, _))

/-- What the gateway has issued for the refunds of a charge, leaving out those whose row
has failed. -/
def World.issuedFor (world : World) (chargeId : Uuid) : Int :=
  ((world.gateway.store.entries.filter fun entry => world.Owed chargeId entry.1).map
    fun entry => entry.2.amount.toInt).sum

variable {world : World} (chargeId : Uuid)

/-- The object of a row weighs no more than the row, as long as no row is canceled. -/
private theorem issued_le_share (ok : WorldOk world)
    (live : ∀ row ∈ world.rows, row.status ≠ .canceled) (rows : List Refund)
    (inside : rows ⊆ world.rows) :
    (((rows.filterMap world.object?).filter fun entry => world.Owed chargeId entry.1).map
      fun entry => entry.2.amount.toInt).sum ≤ (rows.map (Refund.share chargeId)).sum := by
  induction rows with
  | nil => exact le_refl _
  | cons row rows ih =>
      have member : row ∈ world.rows := inside (List.mem_cons_self ..)
      have rest := ih fun _ later => inside (List.mem_cons_of_mem _ later)
      have nonneg := row.share_nonneg chargeId
      cases found : world.object? row with
      | none =>
          rw [List.filterMap_cons_none found, List.map_cons, List.sum_cons]
          omega
      | some entry =>
          obtain ⟨key, held⟩ := World.object?_eq_some.mp found
          rw [List.filterMap_cons_some found, List.map_cons, List.sum_cons]
          by_cases owed : world.Owed chargeId entry.1
          · rw [List.filter_cons_of_pos (by simpa using owed), List.map_cons, List.sum_cons]
            obtain ⟨owing, owingIn, sameKey, sameCharge, active⟩ := owed
            have isRow : owing = row := List.inj_on_of_nodup_map
              world.database.refunds.keys_nodup owingIn member (sameKey.trans key)
            subst isRow
            have terms := ((ok.row owing member).object entry.2 held).1
            have share : owing.share chargeId = entry.2.amount.toInt := by
              simp [Refund.share, Refund.Active, sameCharge, active, live owing member, terms]
            omega
          · rw [List.filter_cons_of_neg (by simpa using owed)]
            omega

/-- The gateway has issued no more for a charge than the database counts against it. -/
theorem issuedFor_le_refundedSoFar (ok : WorldOk world)
    (live : ∀ row ∈ world.rows, row.status ≠ .canceled) :
    world.issuedFor chargeId ≤ refundedSoFar world.rows chargeId := by
  have books := ((ok.entries_perm.filter fun entry => world.Owed chargeId entry.1).map
    fun entry => entry.2.amount.toInt).sum_eq
  rw [World.issuedFor, books, refundedSoFar_eq]
  exact issued_le_share chargeId ok live world.rows (List.Subset.refl _)

/-- In every reachable state and for every charge, neither the active refunds nor what the
gateway has issued for refunds that have not failed exceeds the captured amount. -/
theorem no_over_refund {hmac : Hmac} {trace : List EngineEvent} {state : EngineState}
    (run : EngineRun hmac trace state) (charge : Charge)
    (member : charge ∈ state.world.charges) :
    refundedSoFar state.world.rows charge.id ≤ charge.amountCaptured.toInt ∧
      state.world.issuedFor charge.id ≤ charge.amountCaptured.toInt := by
  have captured := run.worldOk.captured charge member
  have issued := issuedFor_le_refundedSoFar charge.id run.worldOk run.not_canceled
  exact ⟨captured, issued.trans captured⟩

/-- In the sample both sums are at 1520.00 of 5000.00. -/
theorem no_over_refund_sample :
    (refundedSoFar sampleEnd.2.world.rows sampleCharge.id = 152000 ∧
      sampleEnd.2.world.issuedFor sampleCharge.id = 152000) ∧
    refundedSoFar sampleEnd.2.world.rows sampleCharge.id ≤ sampleCharge.amountCaptured.toInt ∧
      sampleEnd.2.world.issuedFor sampleCharge.id ≤ sampleCharge.amountCaptured.toInt :=
  ⟨by decide +kernel, no_over_refund sampleEnd_run sampleCharge (by decide +kernel)⟩

end RefundEngine
