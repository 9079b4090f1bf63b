import RefundEngine.Room

/-!
# What is on record

No statement of the engine updates the columns that say what a refund is, and none deletes a row:
from every state on, what has been recorded stays recorded.  The currency of a refund is the one
of its charge, which no constraint of the schema asks for; so what the gateway pays out is in the
currency that was captured, and no more than was captured.
-/

namespace RefundEngine

open Interleaving (CallId Machine)

/-- The columns that an insert writes and no update does. -/
structure Refund.Terms where
  id : Uuid
  chargeId : Uuid
  amountCents : Int64
  currency : String
  idempotencyKey : String
  requestedBy : String
  reasonCode : Option String
  createdAt : Timestamp

def Refund.written (row : Refund) : Refund.Terms where
  id := row.id
  chargeId := row.chargeId
  amountCents := row.amountCents
  currency := row.currency
  idempotencyKey := row.idempotencyKey
  requestedBy := row.requestedBy
  reasonCode := row.reasonCode
  createdAt := row.createdAt

theorem RefundUpdate.written_assign (update : RefundUpdate) (now : Timestamp) (row : Refund) :
    (update.assign now row).written = row.written := by
  cases update <;> rfl

/-- Everything on record is still there, and new records come after it. -/
structure OnRecord (before after : World) : Prop extends Later before after where
  refunds : before.rows.map Refund.written <+: after.rows.map Refund.written
  transitions : before.database.transitions <+: after.database.transitions
  webhookEvents : before.database.webhookEvents <+: after.database.webhookEvents

namespace OnRecord

theorem refl (world : World) : OnRecord world world where
  toLater := .refl world
  refunds := List.prefix_rfl
  transitions := List.prefix_rfl
  webhookEvents := List.prefix_rfl

theorem trans {first second third : World} (left : OnRecord first second)
    (right : OnRecord second third) : OnRecord first third where
  toLater := left.toLater.trans right.toLater
  refunds := left.refunds.trans right.refunds
  transitions := left.transitions.trans right.transitions
  webhookEvents := left.webhookEvents.trans right.webhookEvents

end OnRecord

/-- The refund is in the currency of its charge, and no larger than it. -/
def Refund.Within (row : Refund) (charges : List Charge) : Prop :=
  ∃ charge ∈ charges, charge.id = row.chargeId ∧ charge.currency = row.currency ∧
    row.amountCents ≤ charge.amountCaptured

theorem Refund.Within.of_written {row after : Refund} {charges charges' : List Charge}
    (within : row.Within charges) (kept : charges ⊆ charges')
    (written : after.written = row.written) : after.Within charges' := by
  rcases within with ⟨charge, member, same, currency, fits⟩
  refine ⟨charge, kept member, ?_, ?_, ?_⟩
  · exact same.trans (congrArg Refund.Terms.chargeId written).symm
  · exact currency.trans (congrArg Refund.Terms.currency written).symm
  · rw [show after.amountCents = row.amountCents from congrArg Refund.Terms.amountCents written]
    exact fits

theorem Ledger.within_of_request {ledger : Ledger} {request : RefundRequest} {began : Timestamp}
    {reply : Reply} (accepted : (ledger.request request began).1 = .ok reply) :
    ∃ charge ∈ ledger.charges.rows, charge.id = request.chargeId ∧
      charge.currency = request.currency ∧ request.amountCents ≤ charge.amountCaptured := by
  unfold Ledger.request at accepted
  repeat' split at accepted
  all_goals try cases accepted
  rename_i charge found currency room positive unused
  rw [ChargeTable.find?] at found
  have named := List.find?_some found
  refine ⟨charge, List.mem_of_find?_eq_some found, of_decide_eq_true named,
    (not_not.mp currency).symm, ?_⟩
  have nonneg := refundedSoFar_nonneg ledger.refunds charge.id
  rw [Ledger.remaining] at room
  rw [Int64.le_iff_toInt_le]
  omega

section Step

variable {hmac : Hmac} {trace : List EngineEvent} {state next : EngineState}
variable {event : EngineEvent}

/-- A step rewrites rows without touching what was written, or it commits a request. -/
theorem TrailStep.rewrites {before after : World} (stepped : TrailStep hmac before event after) :
    (∃ change : Refund → Refund, (∀ row, (change row).written = row.written) ∧
      after.rows = before.rows.map change) ∨
    ∃ call row, after.rows = before.rows ++ [row] ∧
      event = .answered call (.requestRefund row.id row.chargeId row.amountCents row.currency
        row.requestedBy row.reasonCode) (.sql .commit) (.ok ()) before := by
  cases stepped with
  | still rows => exact .inl ⟨id, fun _ => rfl, rows.trans (List.map_id _).symm⟩
  | noted rows => exact .inl ⟨id, fun _ => rfl, rows.trans (List.map_id _).symm⟩
  | @updated _ _ update _ updates rows =>
      refine .inl ⟨(update.change before.now).apply, ?_, rows⟩
      intro row
      simp only [RefundUpdate.change]
      split
      · exact update.written_assign before.now row
      · rfl
  | @decided _ _ _ _ _ update _ _ _ row writtenAt _ _ _ _ _ _ _ rows =>
      refine .inl ⟨_, ?_, rows⟩
      intro other
      split
      · exact update.written_assign writtenAt other
      · rfl
  | @opened call row _ _ _ _ _ rows => exact .inr ⟨call, row, rows, rfl⟩

theorem TrailStep.written {before after : World} (stepped : TrailStep hmac before event after) :
    before.rows.map Refund.written <+: after.rows.map Refund.written := by
  rcases stepped.rewrites with ⟨change, keeps, rows⟩ | ⟨call, row, rows, _⟩
  · have same : Refund.written ∘ change = Refund.written := funext keeps
    rw [rows, List.map_map, same]
  · rw [rows, List.map_append]
    exact List.prefix_append _ _

theorem EngineRun.onRecord_of_step (run : EngineRun hmac trace state)
    (step : (engine hmac).Step state event next) (permitted : NoCancel trace event) :
    OnRecord state.world next.world where
  toLater := run.later (.cons .nil step permitted.anywhere)
  refunds := (run.trailStep step permitted).written
  transitions := ⟨_, (transitions_of_step step).symm⟩
  webhookEvents := ⟨_, (recorded_of_step step).table.symm⟩

theorem EngineRun.within (run : EngineRun hmac trace state) :
    ∀ row ∈ state.world.rows, row.Within state.world.charges := by
  refine run.preserves (fun _ state => ∀ row ∈ state.world.rows,
    row.Within state.world.charges) ?_ ?_
  · intro charges config now row member
    cases member
  · intro trace state event next run ih step permitted row member
    have kept := (run.later (.cons .nil step permitted.anywhere)).charges
    rcases (run.trailStep step permitted).rewrites with ⟨change, keeps, rows⟩ |
      ⟨call, opened, rows, rfl⟩
    · rw [rows] at member
      rcases List.mem_map.mp member with ⟨earlier, inside, rfl⟩
      exact (ih earlier inside).of_written kept (keeps earlier)
    · rw [rows] at member
      rcases List.mem_append.mp member with earlier | last
      · exact (ih row earlier).of_written kept rfl
      · cases List.mem_singleton.mp last
        let request : RefundRequest := {
          refundId := row.id, chargeId := row.chargeId, amountCents := row.amountCents
          currency := row.currency, actor := row.requestedBy, reasonCode := row.reasonCode }
        have accepted : ((Ledger.of state.world).request request (state.world.began call)).1 =
            .ok (.refundId request.refundId) :=
          congrArg Prod.fst (run.accepted_of_commit step)
        rcases Ledger.within_of_request accepted with ⟨charge, found, within⟩
        exact ⟨charge, kept found, within⟩

end Step

/-! ## What stays, and what it is worth -/

/-- From every state that is reached, whatever calls do, interleaved, failing and dying: no audit
row, event id or refund is removed or reordered, the columns that say what a refund is keep their
values while its status only moves forward, and charges and the gateway's objects stay. -/
theorem on_record_stays {hmac : Hmac} {trace more : List EngineEvent} {state final : EngineState}
    (run : EngineRun hmac trace state)
    (continued : (engine hmac).Run NoCancel state more final) :
    OnRecord state.world final.world := by
  induction continued with
  | nil => exact .refl state.world
  | cons continued step permitted ih =>
      exact ih.trans ((run.append continued).onRecord_of_step step permitted.anywhere)

theorem on_record_stays_overtaken : OnRecord sampleEnd.2.world overtaken.2.world :=
  on_record_stays sampleEnd_run overtaken_continued

/-- In every state that is reached, whatever the gateway holds it holds for a refund, for its
amount, in the currency that was captured and for no more than was captured. -/
theorem paid_in_kind {hmac : Hmac} {trace : List EngineEvent} {state : EngineState}
    (run : EngineRun hmac trace state) {key : String} {object : GatewayRefund}
    (held : state.world.gateway.lookupByKey key = some object) :
    ∃ row ∈ state.world.rows, ∃ charge ∈ state.world.charges,
      key = row.id.toString ∧ charge.id = row.chargeId ∧ object.currency = charge.currency ∧
      object.amount = row.amountCents ∧ 0 < object.amount ∧
      object.amount ≤ charge.amountCaptured := by
  rcases run.worldOk.backed key object held with ⟨row, member, isKey⟩
  have ok := run.worldOk.row row member
  rcases ok.object object (isKey ▸ held) with ⟨amount, currency⟩
  rcases run.within row member with ⟨charge, inside, same, agrees, fits⟩
  rw [amount, currency]
  exact ⟨row, member, charge, inside, isKey.symm.trans ok.key, same, agrees.symm, rfl,
    row.amountCents_pos, fits⟩

theorem paid_in_kind_sample :
    ∃ object, sampleEnd.2.world.gateway.lookupByKey (Uuid.toString ⟨7⟩) = some object ∧
      ∃ row ∈ sampleEnd.2.world.rows, ∃ charge ∈ sampleEnd.2.world.charges,
        Uuid.toString ⟨7⟩ = row.id.toString ∧ charge.id = row.chargeId ∧
        object.currency = charge.currency ∧ object.amount = row.amountCents ∧
        0 < object.amount ∧ object.amount ≤ charge.amountCaptured := by
  have holds : (sampleEnd.2.world.gateway.lookupByKey (Uuid.toString ⟨7⟩)).isSome = true := by
    decide +kernel
  rcases Option.isSome_iff_exists.mp holds with ⟨object, held⟩
  exact ⟨object, held, paid_in_kind sampleEnd_run held⟩

end RefundEngine
