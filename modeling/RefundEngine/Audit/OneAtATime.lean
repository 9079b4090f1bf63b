import RefundEngine.Audit.Walk
import RefundEngine.InterruptedDelivery

/-!
# Each operation keeps the audit trail

The walk through every operation.  Between an update that changes a status and the insert of
its audit row the tables do not tell the truth, but the audit row is due; everywhere else
they do.
-/

namespace RefundEngine

open Interleaving (CallId Event Machine Watch own)

/-- Inserting this audit row makes the tables tell the truth. -/
structure Due (call : CallId) (refundId : Uuid) (fromStatus toStatus : Status) (actor : String)
    (world : World) : Prop where
  uncontended : Uncontended call world
  known : refundId ∈ world.rows.map Refund.id
  audited : RefundEngine.Audited world.rows
    (world.database.transitions ++
      [{ id := world.database.nextTransition, refundId, fromStatus := some fromStatus, toStatus
         actor, reason := none }])
    (world.database.nextTransition + 1)

section Updates

variable {call : CallId} {world after : World} {refundId : Uuid}
variable {fromStatus toStatus : Status} {actor : String}

theorem Due.drifts (due : Due call refundId fromStatus toStatus actor world)
    (drifts : Drifts world after) : Due call refundId fromStatus toStatus actor after where
  uncontended := due.uncontended.drifts drifts
  known := by
    rw [drifts.rows]
    exact due.known
  audited := by
    rw [drifts.rows, drifts.transitions, drifts.nextTransition]
    exact due.audited

theorem execute_updateRefunds (ok : WorldOk world) {update : RefundUpdate}
    {answer : Except DbError Unit}
    (legit : ∀ row ∈ world.rows, update.Applies row → update.Legit world.gateway row)
    (executed : world.execute call (.updateRefunds update) = some (answer, after)) :
    answer = .ok () ∧ ∃ refunds, after = world.setRefunds refunds ∧
      refunds.rows = world.rows.map (update.change world.now).apply := by
  rcases ok.revise_ok legit world.now with ⟨refunds, revised⟩
  simp only [World.execute, World.updateRefunds, revised] at executed
  split at executed
  · cases executed
  · cases executed
    exact ⟨rfl, refunds, rfl, RefundTable.rows_of_revise revised⟩

theorem RefundUpdate.amountCents_change (now : Timestamp) (update : RefundUpdate)
    (row : Refund) : ((update.change now).apply row).amountCents = row.amountCents := by
  simp only [RefundUpdate.change]
  split <;> simp

theorem Rest.update (rest : Rest call world) {update : RefundUpdate} {refunds : RefundTable}
    (rows : refunds.rows = world.rows.map (update.change world.now).apply)
    (same : ∀ row ∈ world.rows, update.Applies row →
      (update.assign world.now row).status = row.status) :
    Rest call (world.setRefunds refunds) where
  audited := by
    unfold World.Audited
    rw [show (world.setRefunds refunds).rows = _ from rows]
    apply rest.audited.revise
    · exact (update.change world.now).apply_id
    · exact update.amountCents_change world.now
    · intro row member
      simp only [RefundUpdate.change]
      split
      · rename_i applies
        exact same row member applies
      · rfl
  uncontended := rest.uncontended

theorem Due.of_update (rest : Rest call world) {update : RefundUpdate} {refunds : RefundTable}
    (rows : refunds.rows = world.rows.map (update.change world.now).apply)
    (aimed : ∀ row, update.Applies row → row.id = refundId) {row : Refund}
    (member : row ∈ world.rows) (own : row.id = refundId) (status : row.status = fromStatus)
    (reached : ((update.change world.now).apply row).status = toStatus)
    (edge : Transition.Edge
      { id := world.database.nextTransition, refundId, fromStatus := some fromStatus, toStatus
        actor, reason := none }) :
    Due call refundId fromStatus toStatus actor (world.setRefunds refunds) where
  uncontended := rest.uncontended
  known := by
    rw [show (world.setRefunds refunds).rows = _ from rows]
    simp only [List.map_map, Function.comp_def, (update.change world.now).apply_id]
    exact own ▸ List.mem_map_of_mem member
  audited := by
    rw [show (world.setRefunds refunds).rows = _ from rows]
    apply rest.audited.advance
    · exact (update.change world.now).apply_id
    · exact update.amountCents_change world.now
    · intro other otherIn different
      have misses : ¬update.Applies other := fun applies => different (aimed other applies)
      simp only [RefundUpdate.change, if_neg misses]
    · intro other otherIn isOwn
      rw [world.database.refunds.eq_of_id otherIn member (isOwn.trans own.symm), status, reached]
      exact ⟨rfl, rfl⟩
    · exact own ▸ List.mem_map_of_mem member
    · exact edge
    · exact le_refl _

theorem Due.recordRef (due : Due call refundId fromStatus toStatus actor world)
    {gatewayRef : String} {refunds : RefundTable}
    (rows : refunds.rows =
      world.rows.map ((RefundUpdate.recordRef refundId gatewayRef).change world.now).apply) :
    Due call refundId fromStatus toStatus actor (world.setRefunds refunds) where
  uncontended := due.uncontended
  known := by
    rw [show (world.setRefunds refunds).rows = _ from rows]
    simp only [List.map_map, Function.comp_def, RowChange.apply_id]
    exact due.known
  audited := by
    rw [show (world.setRefunds refunds).rows = _ from rows]
    apply due.audited.revise
    · exact RowChange.apply_id _
    · exact RefundUpdate.amountCents_change world.now _
    · intro row _
      simp only [RefundUpdate.change]
      split <;> rfl

/-- An update that changes a status leaves an audit row owed. -/
theorem owed_ne_nil {operation : Operation} {events : List EngineEvent} {update : RefundUpdate}
    {row : Refund} (member : row ∈ world.rows) (applies : update.Applies row)
    (changes : (update.assign world.now row).status ≠ row.status) :
    owed (.answered call operation (.sql (.updateRefunds update)) (.ok ()) world :: events) ≠
      [] := by
  have inside : row ∈ world.rows.filter fun row =>
      update.Applies row ∧ (update.assign world.now row).status ≠ row.status := by
    simp [member, applies, changes]
  have listed : row.id ∈ moved update world := List.mem_map_of_mem inside
  intro none
  rw [owed, List.append_eq_nil_iff] at none
  rw [none.1] at listed
  cases listed

end Updates

section Rules

variable {hmac : Hmac} {call : CallId} {operation : Operation} {events : List EngineEvent}
variable {world : World} {α β : Type}

theorem keeping_update {post : β → List EngineEvent → World → Prop} {update : RefundUpdate}
    {continuation : Unit → Action β}
    (stops : owed events = [] → Rest call world)
    (legit : ∀ now, Drifts world now → ∀ row ∈ now.rows, update.Applies row →
      update.Legit now.gateway row)
    (rest : ∀ now refunds, Drifts world now → WorldOk now → WorldOk (now.setRefunds refunds) →
      refunds.rows = now.rows.map (update.change now.now).apply →
      Keeping hmac call operation post (continuation ())
        (.answered call operation (.sql (.updateRefunds update)) (.ok ()) now :: events)
        (now.setRefunds refunds)) :
    Keeping hmac call operation post (Action.sql (.updateRefunds update) >>= continuation)
      events world := by
  apply keeping_sql stops
  · intro now error after drifted ok executed
    rcases execute_updateRefunds ok (legit now drifted) executed with ⟨succeeded, _⟩
    cases succeeded
  · intro now value after drifted ok executed ok'
    rcases execute_updateRefunds ok (legit now drifted) executed with ⟨_, refunds, rfl, rows⟩
    exact ⟨trivial, rest now refunds drifted ok ok' rows⟩

theorem keeping_record {post : Unit → List EngineEvent → World → Prop} {refundId : Uuid}
    {fromStatus toStatus : Status} {actor : String}
    (stops : owed events = [] → Rest call world)
    (due : Due call refundId fromStatus toStatus actor world)
    (faithful : ∀ now, Faithful events (.answered call operation
      (.sql (.recordTransition refundId (some fromStatus) toStatus actor)) (.ok ()) now))
    (values : ∀ events later, Rest call later → later.rows = world.rows → post () events later) :
    Keeping hmac call operation post
      (recordTransition refundId (some fromStatus) toStatus actor) events world := by
  have execute : ∀ now, Drifts world now → now.execute call
      (.recordTransition refundId (some fromStatus) toStatus actor) =
        some (now.recordTransition refundId (some fromStatus) toStatus actor) := fun _ _ => rfl
  apply keeping_statement stops
  · intro now error after drifted _ executed
    rw [execute now drifted, World.recordTransition, if_pos (due.drifts drifted).known] at executed
    cases executed
  · intro now value after drifted _ executed _
    rw [execute now drifted, World.recordTransition, if_pos (due.drifts drifted).known] at executed
    cases executed
    constructor
    · exact faithful now
    · intro later drifted'
      apply values
      · apply Rest.drifts _ drifted'
        exact ⟨(due.drifts drifted).audited, (due.drifts drifted).uncontended⟩
      · exact drifted'.rows.trans drifted.rows

end Rules

/-! ## Approving and submitting -/

section Operations

variable {hmac : Hmac} {call : CallId} {world : World}

theorem keeping_getRefund {operation : Operation} {events : List EngineEvent} {β : Type}
    {post : β → List EngineEvent → World → Prop} {refundId : Uuid}
    {continuation : Refund → Action β} (stands : Rest call world)
    (rest : ∀ now row, Drifts world now → Rest call now → row ∈ now.rows → row.id = refundId →
      Keeping hmac call operation post (continuation row)
        (.answered call operation (.sql (.getRefund refundId)) (.ok (some row)) now :: events)
        now) :
    Keeping hmac call operation post (getRefund refundId >>= continuation) events world := by
  unfold getRefund
  apply keeping_bind
  apply keeping_query stands
  intro now found after drifted _ stands executed _
  cases executed
  constructor
  · trivial
  cases read : now.database.refunds.find? refundId with
  | none => exact keeping_throw stands
  | some row =>
      rcases RefundTable.find?_eq_some.mp read with ⟨member, own⟩
      apply keeping_pure
      intro later drifted'
      exact Watch.Keeps.drifts (rest now row drifted stands member own) drifted'

theorem approve_keeping (refundId : Uuid) (approver : String) (stands : Rest call world) :
    Keeping hmac call (.approve refundId approver) (fun _ _ now => Rest call now)
      (approve refundId approver) [.started call (.approve refundId approver)] world := by
  unfold approve
  apply keeping_getRefund stands
  intro read row _ stands member own
  by_cases pending : row.status ≠ .pendingReview
  · simp only [if_pos pending]
    exact keeping_bind (keeping_throw stands)
  simp only [if_neg pending]
  have pending : row.status = .pendingReview := not_not.mp pending
  by_cases same : approver = row.requestedBy
  · simp only [if_pos same]
    exact keeping_bind (keeping_throw stands)
  simp only [if_neg same]
  apply keeping_update fun _ => stands
  · intro _ _ _ _ _
    trivial
  · intro now refunds drifted _ _ rows
    have stands := stands.drifts drifted
    have member : row ∈ now.rows := drifted.rows ▸ member
    have applies : (RefundUpdate.markRequested refundId).Applies row := ⟨own, pending⟩
    apply keeping_record
    · intro nothing
      exact (owed_ne_nil member applies (by simp [RefundUpdate.assign, pending]) nothing).elim
    · apply Due.of_update stands rows (fun _ applies => applies.1) member own pending
      · simp only [RefundUpdate.change, if_pos applies, RefundUpdate.assign]
      · trivial
    · intro _ _
      exact ⟨approver, now, _, rfl, rfl, rfl, row, member, own, pending⟩
    · intro _ later rest _
      exact rest

/-- The gateway call of a submission and the recording of its reference. -/
theorem submitTail_keeping {operation : Operation} {events : List EngineEvent}
    {refundId : Uuid} {row : Refund} (stands : Rest call world) :
    Keeping hmac call operation (fun _ _ now => Rest call now)
      (do
        match ← Action.createRefund row.amountCents row.currency refundId.toString with
        | .accepted gw =>
            Action.sql (.updateRefunds (.recordRef refundId gw.id))
            return true
        | .dropped | .timedOut => return false)
      events world := by
  apply keeping_createRefund fun _ => stands
  intro now drifted
  have stands := stands.drifts drifted
  cases responded : now.gateway.createRefund row.amountCents row.currency refundId.toString with
  | mk outcome gateway =>
      have created : Rest call { now with gateway := gateway } :=
        ⟨stands.audited, stands.uncontended⟩
      cases outcome with
      | accepted gw =>
          have held := MockGateway.lookupByKey_of_accepted responded
          apply keeping_update fun _ => created
          · intro later drifted' _ _ _
            exact ⟨gw, (drifted'.lookupByKey _).trans held, rfl⟩
          · intro later refunds drifted' _ _ rows
            apply keeping_pure
            intro end' drifted''
            apply Rest.drifts _ drifted''
            exact (created.drifts drifted').update rows fun _ _ _ => rfl
      | dropped | timedOut =>
          apply keeping_pure
          intro later drifted'
          exact created.drifts drifted'

theorem submitRefund_keeping (refundId : Uuid) (stands : Rest call world) :
    Keeping hmac call (.submitRefund refundId) (fun _ _ now => Rest call now)
      (submitRefund refundId) [.started call (.submitRefund refundId)] world := by
  unfold submitRefund
  apply keeping_getRefund stands
  intro read row _ stands member own
  have returns : ∀ events, Keeping hmac call (.submitRefund refundId)
      (fun _ _ now => Rest call now) (pure false) events read := by
    intro events
    apply keeping_pure
    intro now drifted
    exact stands.drifts drifted
  by_cases terminal : row.status = .settled ∨ row.status = .failed ∨ row.status = .canceled
  · simp only [if_pos terminal]
    exact returns _
  simp only [if_neg terminal]
  by_cases pending : row.status = .pendingReview
  · simp only [if_pos pending]
    exact returns _
  simp only [if_neg pending]
  apply keeping_update fun _ => stands
  · intro _ _ _ _ _
    trivial
  intro now refunds drifted _ _ rows
  have stands := stands.drifts drifted
  have member : row ∈ now.rows := drifted.rows ▸ member
  have isRow : ∀ other ∈ now.rows, (RefundUpdate.markSubmitted refundId).Applies other →
      other = row := by
    intro other otherIn applies
    exact now.database.refunds.eq_of_id otherIn member (applies.1.trans own.symm)
  by_cases submitted : row.status ≠ .submitted
  · simp only [if_pos submitted]
    have requested : row.status = .requested := by
      revert terminal pending submitted
      cases row.status <;> simp
    have applies : (RefundUpdate.markSubmitted refundId).Applies row := ⟨own, .inl requested⟩
    rw [requested]
    apply keeping_bind
    apply keeping_record
    · intro nothing
      exact (owed_ne_nil member applies (by simp [RefundUpdate.assign, requested]) nothing).elim
    · apply Due.of_update stands rows (fun _ applies => applies.1) member own requested
      · simp only [RefundUpdate.change, if_pos applies, RefundUpdate.assign]
      · trivial
    · intro _ fromReview
      cases fromReview
    · intro _ _ rest _
      exact submitTail_keeping rest
  · simp only [if_neg submitted]
    apply submitTail_keeping
    apply stands.update rows
    intro other otherIn applies
    rw [isRow other otherIn applies, not_not.mp submitted]
    rfl

/-! ## Recovering -/

/-- The rows still to be walked stand as the snapshot lists them. -/
def Listed (remaining : List (Uuid × Status)) (world : World) : Prop :=
  ∀ entry ∈ remaining, ∃ row ∈ world.rows, row.id = entry.1 ∧ row.status = entry.2 ∧
    (row.status = .submitted ∨ row.status = .requested)

theorem Listed.of_rows {remaining : List (Uuid × Status)} {before after : World}
    (listed : Listed remaining before) (rows : after.rows = before.rows) :
    Listed remaining after := by
  intro entry member
  rw [rows]
  exact listed entry member

theorem Listed.update {remaining : List (Uuid × Status)} {refundId : Uuid}
    {update : RefundUpdate} {refunds : RefundTable} (listed : Listed remaining world)
    (rows : refunds.rows = world.rows.map (update.change world.now).apply)
    (aimed : ∀ row, update.Applies row → row.id = refundId)
    (unlisted : refundId ∉ remaining.map Prod.fst) :
    Listed remaining (world.setRefunds refunds) := by
  intro entry member
  rcases listed entry member with ⟨row, rowIn, id, status, live⟩
  have misses : ¬update.Applies row := by
    intro applies
    apply unlisted
    rw [← aimed row applies, id]
    exact List.mem_map_of_mem member
  have same : (update.change world.now).apply row = row := if_neg misses
  refine ⟨row, ?_, id, status, live⟩
  rw [show (world.setRefunds refunds).rows = _ from rows, ← same]
  exact List.mem_map_of_mem rowIn

section Row

variable {operation : Operation} {events : List EngineEvent} {remaining : List (Uuid × Status)}
variable {row : Refund} {refundId : Uuid} {status : Status}

/-- A row whose key the gateway holds: its reference is recorded. -/
private theorem recoverHeld_keeping {gw : GatewayRefund} (report : RecoveryReport)
    (stands : Rest call world) (member : row ∈ world.rows) (own : row.id = refundId)
    (submitted : row.status = .submitted)
    (held : world.gateway.lookupByKey refundId.toString = some gw)
    (listed : Listed remaining world) (unlisted : refundId ∉ remaining.map Prod.fst) :
    Keeping hmac call operation (fun _ _ now => Rest call now ∧ Listed remaining now)
      (do
        Action.sql (.updateRefunds (.recoverRef refundId gw.id))
        recordTransition refundId (some .submitted) .submitted "job:recover"
        return { report with alreadyAtGateway := report.alreadyAtGateway + 1 })
      events world := by
  apply keeping_update fun _ => stands
  · intro now drifted other otherIn applies
    rw [drifted.rows] at otherIn
    have isRow := world.database.refunds.eq_of_id otherIn member (applies.1.trans own.symm)
    refine ⟨⟨gw, (drifted.lookupByKey _).trans held, rfl⟩, ?_⟩
    rw [isRow, submitted]
    simp
  intro now refunds drifted _ _ rows
  have stands := stands.drifts drifted
  have member : row ∈ now.rows := drifted.rows ▸ member
  have listed := (listed.of_rows drifted.rows).update rows (fun _ applies => applies.1) unlisted
  have same : ∀ other ∈ now.rows, (RefundUpdate.recoverRef refundId gw.id).Applies other →
      (RefundUpdate.assign now.now (.recoverRef refundId gw.id) other).status =
        other.status := by
    intro other otherIn applies
    rw [now.database.refunds.eq_of_id otherIn member (applies.1.trans own.symm), submitted]
    rfl
  apply keeping_bind
  apply keeping_record fun _ => stands.update rows same
  · apply Due.of_update stands rows (fun _ applies => applies.1) member own submitted
    · simp only [RefundUpdate.change]
      split
      · rfl
      · exact submitted
    · exact .inl rfl
  · intro _ fromReview
    cases fromReview
  · intro _ after rest rows'
    apply keeping_pure
    intro later drifted'
    exact ⟨rest.drifts drifted', (listed.of_rows rows').of_rows drifted'.rows⟩

private theorem resubmitted_keeping (report : RecoveryReport)
    (live : status = .submitted ∨ status = .requested)
    (due : Due call refundId status .submitted "job:recover-resubmit" world)
    (stops : owed events = [] → Rest call world) (listed : Listed remaining world) :
    Keeping hmac call operation (fun _ _ now => Rest call now ∧ Listed remaining now)
      (do
        recordTransition refundId (some status) .submitted "job:recover-resubmit"
        return { report with resubmitted := report.resubmitted + 1 })
      events world := by
  apply keeping_bind
  apply keeping_record stops due
  · intro _ fromReview
    cases fromReview
    rcases live with live | live <;> cases live
  · intro _ later rest rows
    apply keeping_pure
    intro now drifted
    exact ⟨rest.drifts drifted, (listed.of_rows rows).of_rows drifted.rows⟩

/-- The gateway call of a resubmission and the recording of its reference. -/
private theorem resubmit_keeping {amountCents : Int64} {currency : String}
    (report : RecoveryReport) (live : status = .submitted ∨ status = .requested)
    (due : Due call refundId status .submitted "job:recover-resubmit" world)
    (owes : status = .requested → owed events ≠ [])
    (stops : status = .submitted → Rest call world) (listed : Listed remaining world)
    (unlisted : refundId ∉ remaining.map Prod.fst) :
    Keeping hmac call operation (fun _ _ now => Rest call now ∧ Listed remaining now)
      (do
        match ← Action.createRefund amountCents currency refundId.toString with
        | .accepted gw => Action.sql (.updateRefunds (.recordRef refundId gw.id))
        | .dropped | .timedOut => pure ()
        recordTransition refundId (some status) .submitted "job:recover-resubmit"
        return { report with resubmitted := report.resubmitted + 1 })
      events world := by
  have rests : owed events = [] → Rest call world := by
    intro nothing
    rcases live with submitted | requested
    · exact stops submitted
    · exact (owes requested nothing).elim
  apply keeping_createRefund rests
  intro now drifted
  have due := due.drifts drifted
  cases responded : now.gateway.createRefund amountCents currency refundId.toString with
  | mk outcome gateway =>
      have due : Due call refundId status .submitted "job:recover-resubmit"
          { now with gateway := gateway } := ⟨due.uncontended, due.known, due.audited⟩
      have rests : owed events = [] → Rest call { now with gateway := gateway } := by
        intro nothing
        have stands := (rests nothing).drifts drifted
        exact ⟨stands.audited, stands.uncontended⟩
      have listed : Listed remaining { now with gateway := gateway } :=
        listed.of_rows drifted.rows
      cases outcome with
      | accepted gw =>
          have held := MockGateway.lookupByKey_of_accepted responded
          apply keeping_update
          · exact rests
          · intro later drifted' _ _ _
            exact ⟨gw, (drifted'.lookupByKey _).trans held, rfl⟩
          intro later refunds drifted' _ _ rows
          apply resubmitted_keeping report live ((due.drifts drifted').recordRef rows)
          · intro nothing
            have nothing : owed events = [] := (List.append_eq_nil_iff.mp nothing).2
            exact ((rests nothing).drifts drifted').update rows fun _ _ _ => rfl
          · exact (listed.of_rows drifted'.rows).update rows (fun _ applies => applies.1) unlisted
      | dropped | timedOut => exact resubmitted_keeping report live due rests listed

/-- A row whose key the gateway does not hold: it is resubmitted. -/
private theorem recoverUnheld_keeping (report : RecoveryReport)
    (stands : Rest call world) (member : row ∈ world.rows) (own : row.id = refundId)
    (listedAs : row.status = status) (live : status = .submitted ∨ status = .requested)
    (listed : Listed remaining world) (unlisted : refundId ∉ remaining.map Prod.fst) :
    Keeping hmac call operation (fun _ _ now => Rest call now ∧ Listed remaining now)
      (do
        let (amountCents, currency) ← Action.sql (.selectAmount refundId)
        Action.sql (.updateRefunds (.markSubmitted refundId))
        match ← Action.createRefund amountCents currency refundId.toString with
        | .accepted gw => Action.sql (.updateRefunds (.recordRef refundId gw.id))
        | .dropped | .timedOut => pure ()
        recordTransition refundId (some status) .submitted "job:recover-resubmit"
        return { report with resubmitted := report.resubmitted + 1 })
      events world := by
  apply keeping_query stands
  intro read terms after drifted _ stands executed _
  have unchanged : after = read := by
    simp only [World.execute, Option.some.injEq, Prod.mk.injEq] at executed
    exact executed.2.symm
  subst unchanged
  constructor
  · trivial
  apply keeping_update fun _ => stands
  · intro _ _ _ _ _
    trivial
  intro now refunds drifted' _ _ rows
  have stands := stands.drifts drifted'
  have sameRows : now.rows = world.rows := drifted'.rows.trans drifted.rows
  have member : row ∈ now.rows := sameRows ▸ member
  have listed := (listed.of_rows sameRows).update rows (fun _ applies => applies.1) unlisted
  have applies : (RefundUpdate.markSubmitted refundId).Applies row :=
    ⟨own, (listedAs ▸ live : row.status = .submitted ∨ row.status = .requested).symm⟩
  apply resubmit_keeping report live _ _ _ listed unlisted
  · apply Due.of_update stands rows (fun _ applies => applies.1) member own listedAs
    · simp only [RefundUpdate.change, if_pos applies, RefundUpdate.assign]
    · rcases live with rfl | rfl
      · exact .inr rfl
      · trivial
  · intro requested
    apply owed_ne_nil member applies
    simp [RefundUpdate.assign, listedAs.trans requested]
  · intro submitted
    apply stands.update rows
    intro other otherIn applies
    rw [now.database.refunds.eq_of_id otherIn member (applies.1.trans own.symm),
      listedAs.trans submitted]
    rfl

private theorem recoverRow_keeping (report : RecoveryReport) (stands : Rest call world)
    (front : Listed ((refundId, status) :: remaining) world)
    (unlisted : refundId ∉ remaining.map Prod.fst) :
    Keeping hmac call operation (fun _ _ now => Rest call now ∧ Listed remaining now)
      (recoverRow report refundId status) events world := by
  rcases front (refundId, status) (List.mem_cons_self ..) with ⟨row, member, own, listedAs, live⟩
  have listed : Listed remaining world := fun entry inside =>
    front entry (List.mem_cons_of_mem _ inside)
  simp only at own listedAs
  unfold recoverRow
  apply keeping_lookupByKey stands
  intro now drifted ok
  have stands := stands.drifts drifted
  have listed := listed.of_rows drifted.rows
  have member : row ∈ now.rows := drifted.rows ▸ member
  cases held : now.gateway.lookupByKey refundId.toString with
  | some gw =>
      -- A row the gateway knows is past review, so the snapshot has it submitted.
      have submitted : row.status = .submitted := by
        have key : row.idempotencyKey = refundId.toString := by
          rw [(ok.row row member).key, own]
        have past := (ok.row row member).past_of_held (key ▸ held)
        rcases live with submitted | requested
        · exact submitted
        · simp [requested, Status.rank] at past
      have isSubmitted : status = .submitted := listedAs.symm.trans submitted
      rw [isSubmitted]
      exact recoverHeld_keeping { report with walked := report.walked + 1 } stands member own
        submitted held listed unlisted
  | none =>
      exact recoverUnheld_keeping { report with walked := report.walked + 1 } stands member own
        listedAs (listedAs ▸ live) listed unlisted

end Row

/-- The loop, by induction on the rows still to be walked. -/
private theorem recoverRows_keeping {operation : Operation} {remaining : List (Uuid × Status)}
    (distinct : (remaining.map Prod.fst).Nodup) (report : RecoveryReport)
    (events : List EngineEvent) (world : World) (stands : Rest call world)
    (listed : Listed remaining world) :
    Keeping hmac call operation (fun _ _ now => Rest call now) (recoverRows report remaining)
      events world := by
  induction remaining generalizing report events world with
  | nil =>
      apply keeping_pure
      intro now drifted
      exact stands.drifts drifted
  | cons entry remaining ih =>
      rcases List.nodup_cons.mp distinct with ⟨unlisted, distinct⟩
      apply keeping_bind
      apply (recoverRow_keeping report stands listed unlisted).mono
      intro result events now kept
      cases result with
      | ok report => exact ih distinct report events now kept.1 kept.2
      | error error => exact kept

theorem recoverSubmitted_keeping (stands : Rest call world) :
    Keeping hmac call .recoverSubmitted (fun _ _ now => Rest call now) recoverSubmitted
      [.started call .recoverSubmitted] world := by
  unfold recoverSubmitted
  apply keeping_query stands
  intro now stuck after _ _ stands executed _
  cases executed
  constructor
  · trivial
  apply recoverRows_keeping (stuckRows_nodup now.database.refunds) {} _ now stands
  intro entry member
  rcases mem_stuckRows.mp member with ⟨row, rowIn, same, live⟩
  cases same
  exact ⟨row, rowIn, rfl, rfl, live⟩

/-! ## Transactions -/

/-- The tables tell the truth, and the call's transaction has made these writes. -/
structure Staged (call : CallId) (refundWrites : List RefundWrite)
    (transitionWrites : List Transition) (world : World) : Prop where
  rest : Rest call world
  opened : ∃ transaction, world.transaction call = some transaction ∧
    transaction.refundWrites = refundWrites ∧ transaction.transitionWrites = transitionWrites

/-- What the call's transaction has written leaves the tables telling the truth. -/
structure Committable (call : CallId) (world : World) : Prop where
  rest : Rest call world
  committed : ∀ transaction refunds, world.transaction call = some transaction →
    transaction.refundWrites.foldlM RefundTable.write world.database.refunds = .ok refunds →
    RefundEngine.Audited refunds.rows
      (world.database.transitions ++ transaction.transitionWrites)
      world.database.nextTransition

section Transactions

variable {after : World} {refundWrites : List RefundWrite} {transitionWrites : List Transition}

theorem Staged.drifts (staged : Staged call refundWrites transitionWrites world)
    (drifts : Drifts world after) : Staged call refundWrites transitionWrites after where
  rest := staged.rest.drifts drifts
  opened := by
    rw [drifts.transaction]
    exact staged.opened

theorem Committable.drifts (committable : Committable call world)
    (drifts : Drifts world after) : Committable call after where
  rest := committable.rest.drifts drifts
  committed := by
    rw [drifts.transaction, drifts.refunds, drifts.transitions, drifts.nextTransition]
    exact committable.committed

private theorem Rest.setTransaction (rest : Rest call world) (transaction : Transaction)
    (count : Nat) : Rest call ((world.setTransaction call transaction).advanceSequence count) where
  audited :=
    { rest.audited with
      bounded := fun audit member => Nat.lt_add_right count (rest.audited.bounded audit member) }
  uncontended := rest.uncontended.setTransaction transaction

theorem Staged.of_begin (rest : Rest call world) {value : Unit}
    (executed : world.execute call .begin = some (.ok value, after)) :
    Staged call [] [] after := by
  cases executed
  constructor
  · exact rest.setTransaction _ 0
  · exact ⟨_, World.transaction_setTransaction_self _ _ _, rfl, rfl⟩

theorem Staged.lockCharge (staged : Staged call refundWrites transitionWrites world) {id : Uuid}
    {value : Option (Int64 × String)}
    (executed : world.execute call (.lockCharge id) = some (.ok value, after)) :
    Staged call refundWrites transitionWrites after := by
  rcases staged.opened with ⟨transaction, opened, writes, audits⟩
  simp only [World.execute, World.lockCharge, World.inTransaction, opened] at executed
  split at executed
  · cases executed
    exact staged
  · split at executed
    · cases executed
    · cases executed
      constructor
      · exact staged.rest.setTransaction _ 0
      · exact ⟨_, World.transaction_setTransaction_self _ _ _, writes, audits⟩

theorem Rest.of_rollback (rest : Rest call world) {value : Unit}
    (executed : world.execute call .rollback = some (.ok value, after)) : Rest call after := by
  cases executed
  exact rest.close.rest call

theorem Staged.insertRefund (staged : Staged call [] [] world) {new : NewRefund} {value : Unit}
    (key : new.idempotencyKey = new.id.toString)
    (status : new.status =
      if new.amountCents ≥ reviewThresholdCents then .pendingReview else .requested)
    (executed : world.execute call (.insertRefund new) = some (.ok value, after)) :
    ∃ row, Staged call [.insert row] [] after ∧ row.New ∧ row.id = new.id ∧
      row.status = new.status := by
  rcases staged.opened with ⟨transaction, opened, writes, audits⟩
  simp only [World.execute, World.insertRefund, World.inTransaction, opened] at executed
  repeat' split at executed
  all_goals cases executed
  exact ⟨_, ⟨staged.rest.setTransaction _ 0, _, World.transaction_setTransaction_self _ _ _,
    congrArg (· ++ [RefundWrite.insert _]) writes, audits⟩, ⟨key, rfl, status⟩, rfl, rfl⟩

theorem RefundTable.of_write_insert {table refunds : RefundTable} {row : Refund}
    (written : [RefundWrite.insert row].foldlM RefundTable.write table = .ok refunds) :
    refunds.rows = table.rows ++ [row] ∧ row.id ∉ table.rows.map Refund.id := by
  have inserted : table.insert row = .ok refunds := by
    cases inserted : table.insert row with
    | ok after =>
        simp only [List.foldlM_cons, List.foldlM_nil, RefundTable.write, inserted] at written
        exact written
    | error error =>
        simp only [List.foldlM_cons, List.foldlM_nil, RefundTable.write, inserted] at written
        cases written
  have rows := (RefundTable.rows_of_insert inserted).1
  constructor
  · exact rows
  · intro used
    have nodup := refunds.ids_nodup
    rw [rows, List.map_append, List.nodup_append] at nodup
    exact nodup.2.2 _ used _ (by simp) rfl

theorem Committable.of_insertTransition {row : Refund} (new : row.New)
    (staged : Staged call [.insert row] [] world) {actor : String} {reason : Option String}
    {value : Unit}
    (executed : world.execute call (.insertTransition row.id row.status actor reason) =
      some (.ok value, after)) : Committable call after := by
  rcases staged.opened with ⟨transaction, opened, writes, audits⟩
  simp only [World.execute, World.insertTransition, World.inTransaction, opened] at executed
  split at executed
  · cases executed
    constructor
    · exact staged.rest.setTransaction _ 1
    · intro own refunds opened' written
      rw [World.transaction_advanceSequence, World.transaction_setTransaction_self] at opened'
      cases opened'
      have written : [RefundWrite.insert row].foldlM RefundTable.write world.database.refunds =
          .ok refunds := by
        simp only [writes] at written
        exact written
      rcases RefundTable.of_write_insert written with ⟨rows, unused⟩
      rw [rows]
      simp only [audits, List.nil_append]
      exact staged.rest.audited.insert new unused rfl rfl rfl (le_refl _)
  · cases executed

theorem commit_ok {value : Unit}
    (executed : world.execute call .commit = some (.ok value, after)) :
    ∃ transaction refunds, world.transaction call = some transaction ∧
      transaction.refundWrites.foldlM RefundTable.write world.database.refunds = .ok refunds ∧
      after = { (world.endTransaction call) with
        database :=
          { world.database with
            refunds := refunds
            transitions := world.database.transitions ++ transaction.transitionWrites } } := by
  simp only [World.execute, World.commit, World.inTransaction] at executed
  split at executed
  · rename_i transaction opened
    split at executed
    · rename_i database committed
      cases executed
      simp only [Database.commit] at committed
      cases written : transaction.refundWrites.foldlM RefundTable.write
          world.database.refunds with
      | error error =>
          rw [written] at committed
          cases committed
      | ok refunds =>
          rw [written] at committed
          cases committed
          exact ⟨transaction, refunds, opened, written, rfl⟩
    · cases executed
  · cases executed

theorem Committable.commit (committable : Committable call world) {value : Unit}
    (executed : world.execute call .commit = some (.ok value, after)) : Rest call after := by
  rcases commit_ok executed with ⟨transaction, refunds, opened, written, rfl⟩
  constructor
  · exact committable.committed transaction refunds opened written
  · exact committable.rest.uncontended.endTransaction

end Transactions

/-- The commit that ends an operation. -/
theorem keeping_commit {operation : Operation} {events : List EngineEvent} {α : Type}
    {value : α} (committable : Committable call world) :
    Keeping hmac call operation (fun _ _ now => Rest call now)
      (Action.sql .commit >>= fun _ => pure value) events world := by
  apply keeping_query committable.rest
  intro now _ after drifted _ _ executed _
  constructor
  · trivial
  apply keeping_pure
  intro later drifted'
  exact ((committable.drifts drifted).commit executed).drifts drifted'

theorem requestRefund_keeping {operation : Operation} {events : List EngineEvent}
    (refundId chargeId : Uuid) (amountCents : Int64) (currency actor : String)
    (reasonCode : Option String) (stands : Rest call world) :
    Keeping hmac call operation (fun _ _ now => Rest call now)
      (requestRefund refundId chargeId amountCents currency actor reasonCode) events world := by
  unfold requestRefund
  apply keeping_query stands
  intro now _ begun _ _ stands executed _
  refine ⟨trivial, ?_⟩
  have staged := Staged.of_begin stands executed
  apply keeping_query staged.rest
  intro now charge locked drifted _ _ executed _
  refine ⟨trivial, ?_⟩
  have staged := (staged.drifts drifted).lockCharge executed
  cases charge with
  | none => exact keeping_bind (keeping_throw staged.rest)
  | some found =>
      rcases found with ⟨amountCaptured, chargeCurrency⟩
      apply keeping_query staged.rest
      intro summed total after drifted _ _ executed _
      refine ⟨trivial, ?_⟩
      have staged := staged.drifts drifted
      have unchanged : after = summed := by
        simp only [World.execute, World.sumRefunds, World.inTransaction] at executed
        split at executed
        · simp only [Option.some.injEq, Prod.mk.injEq] at executed
          exact executed.2.symm
        · cases executed
      subst unchanged
      by_cases mismatch : currency ≠ chargeCurrency
      · simp only [if_pos mismatch]
        exact keeping_bind (keeping_throw staged.rest)
      simp only [if_neg mismatch]
      by_cases exceeds : amountCents > amountCaptured - total
      · simp only [if_pos exceeds]
        apply keeping_query staged.rest
        intro now _ rolledBack _ _ stands executed _
        refine ⟨trivial, ?_⟩
        exact keeping_bind (keeping_throw (stands.of_rollback executed))
      simp only [if_neg exceeds]
      apply keeping_query staged.rest
      intro now _ inserted drifted _ _ executed _
      refine ⟨trivial, ?_⟩
      rcases (staged.drifts drifted).insertRefund (by rfl) (by rfl) executed with
        ⟨row, staged, new, id, status⟩
      apply keeping_query staged.rest
      intro now _ audited drifted _ _ executed _
      refine ⟨trivial, ?_⟩
      apply keeping_commit
      have id : row.id = refundId := id
      have status : row.status =
          if amountCents ≥ reviewThresholdCents then .pendingReview else .requested := status
      rw [← id, ← status] at executed
      exact .of_insertTransition new (staged.drifts drifted) executed

/-- A decision moves a row along an edge of the state machine. -/
theorem RowOk.edge_of_decision {gateway : MockGateway} {row : Refund} {update : RefundUpdate}
    {decision : String × Status} (ok : RowOk gateway row) (applies : update.Applies row)
    (decides : update.decision = some decision) (now : Timestamp) (id : Nat)
    (reason : Option String) :
    Transition.Edge
      { id, refundId := row.id, fromStatus := some row.status
        toStatus := (update.assign now row).status, actor := "webhook", reason } := by
  have past := ok.past_of_ref (RefundUpdate.gatewayRef_of_decision decides applies)
  cases update with
  | settle gatewayRef =>
      have submitted : row.status = .submitted := by
        rcases applies.2 with submitted | requested
        · exact submitted
        · simp [requested, Status.rank] at past
      simp [Transition.Edge, RefundUpdate.assign, submitted]
  | fail gatewayRef reason =>
      rcases applies with ⟨_, notSettled, live⟩
      revert past notSettled live
      cases row.status <;> simp [Transition.Edge, RefundUpdate.assign, Status.rank]
  | markSubmitted | recordRef | recoverRef | markRequested => cases decides

theorem Committable.of_applyMoved {after : World} {update : RefundUpdate}
    {decision : String × Status} {reason : Option String} {value : Unit} (ok : WorldOk world)
    (staged : Staged call [] [] world) (decides : update.decision = some decision)
    (executed : world.execute call (.applyMoved update reason) = some (.ok value, after)) :
    Committable call after := by
  rcases staged.opened with ⟨transaction, opened, writes, audits⟩
  simp only [World.execute, World.applyMoved, World.inTransaction, opened,
    World.visible_of_resumed (staged.rest.uncontended.2 call)] at executed
  split at executed
  · cases executed
  cases executed
  constructor
  · exact staged.rest.setTransaction _ _
  intro own refunds opened' written
  rw [World.transaction_advanceSequence, World.transaction_setTransaction_self] at opened'
  cases opened'
  have rows : refunds.rows = world.rows.map (update.change transaction.began).apply := by
    rcases world.database.refunds.write_decided decides transaction.began with
      ⟨table, written', rows⟩
    simp only [writes, List.nil_append] at written
    cases written.symm.trans written'
    exact rows
  rw [rows]
  simp only [audits, List.nil_append]
  rcases world.database.refunds.filter_of_decision decides with none | ⟨row, member, applies, only⟩
  · have misses : ∀ row ∈ world.rows, (update.change transaction.began).apply row = row := by
      intro row member
      apply if_neg
      intro applies
      have found : row ∈ world.rows.filter fun row => update.Applies row :=
        List.mem_filter.mpr ⟨member, decide_eq_true applies⟩
      rw [show (world.rows.filter fun row => update.Applies row) = [] from none] at found
      cases found
    rw [show (world.rows.filter fun row => update.Applies row) = [] from none,
      (List.map_congr_left misses).trans (List.map_id _), List.mapIdx_nil, List.append_nil]
    exact staged.rest.audited
  · rw [show (world.rows.filter fun row => update.Applies row) = [row] from only]
    apply staged.rest.audited.advance
    · exact RowChange.apply_id _
    · exact update.amountCents_change _
    · intro other otherIn different
      have misses : ¬update.Applies other := by
        intro applies
        have found : other ∈ world.rows.filter fun row => update.Applies row :=
          List.mem_filter.mpr ⟨otherIn, decide_eq_true applies⟩
        rw [show (world.rows.filter fun row => update.Applies row) = [row] from only,
          List.mem_singleton] at found
        exact different (congrArg Refund.id found)
      simp only [RefundUpdate.change, if_neg misses]
    · intro other otherIn same
      rw [world.database.refunds.eq_of_id otherIn member same]
      constructor
      · exact staged.rest.audited.newest member
      · simp only [RefundUpdate.change, if_pos applies]
    · exact List.mem_map_of_mem member
    · have edge := (ok.row row member).edge_of_decision applies decides transaction.began
        world.database.nextTransition reason
      rw [← staged.rest.audited.newest member] at edge
      exact edge
    · exact le_refl _

/-- What a delivery does once its transaction has begun. -/
theorem conclude_keeping {operation : Operation} {events : List EngineEvent}
    (event : WebhookEvent) (staged : Staged call [] [] world) :
    Keeping hmac call operation (fun _ _ now => Rest call now) event.conclude events world := by
  rw [WebhookEvent.conclude]
  split
  · rename_i update reason updates
    rcases WebhookEvent.decision_of_update updates with ⟨status, decides⟩
    apply keeping_query staged.rest
    intro now _ after drifted ok stands executed _
    constructor
    · have newest : ∀ row ∈ now.rows, update.Applies row →
          newestStatus now.database.transitions row.id = some row.status :=
        fun row member _ => stands.audited.newest member
      refine ⟨newest, ?_⟩
      rw [World.SeesTruth, World.visible_of_resumed (stands.uncontended.2 call)]
      exact newest
    · exact keeping_commit (.of_applyMoved ok (staged.drifts drifted) decides executed)
  · apply keeping_commit
    constructor
    · exact staged.rest
    · intro transaction refunds opened written
      rcases staged.opened with ⟨transaction', opened', writes, audits⟩
      cases opened.symm.trans opened'
      rw [writes] at written
      cases written
      rw [audits, List.append_nil]
      exact staged.rest.audited

theorem handleWebhook_keeping {operation : Operation} {events : List EngineEvent}
    (event : WebhookEvent) (rawBody : Bytes) (sig : String) (secret : Bytes)
    (stands : Rest call world) :
    Keeping hmac call operation (fun _ _ now => Rest call now)
      (handleWebhook hmac event rawBody sig secret) events world := by
  rw [handleWebhook_eq]
  by_cases forged : verifySignature hmac rawBody sig secret = false
  · simp only [if_pos forged]
    exact keeping_bind (keeping_throw stands)
  simp only [if_neg forged]
  apply keeping_query stands
  intro now inserted after _ _ stands executed _
  refine ⟨trivial, ?_⟩
  have stands : Rest call after := by
    simp only [World.execute, World.insertWebhookEvent] at executed
    split at executed
    · cases executed
      exact stands
    · cases executed
      exact ⟨stands.audited, stands.uncontended⟩
  by_cases seen : inserted = none
  · simp only [if_pos seen]
    apply keeping_pure
    intro later drifted
    exact stands.drifts drifted
  simp only [if_neg seen]
  apply keeping_query stands
  intro now _ begun _ _ stands executed _
  exact ⟨trivial, conclude_keeping event (.of_begin stands executed)⟩

/-- Every operation keeps the audit trail. -/
theorem operation_keeps (operation : Operation) (atRest : AtRest world) :
    (auditWatch hmac).Keeps call operation ((auditWatch hmac).Rests call)
      ((engine hmac).program operation) [.started call operation] world := by
  have stands := atRest.rest call
  have ends : ∀ {α : Type} {action : Action α} (reply : α → Reply),
      Keeping hmac call operation (fun _ _ now => Rest call now) action
        [.started call operation] world →
      (auditWatch hmac).Keeps call operation ((auditWatch hmac).Rests call) (reply <$> action).run
        [.started call operation] world := by
    intro α action reply keeping
    have mapped : Keeping hmac call operation (fun _ _ now => Rest call now) (reply <$> action)
        [.started call operation] world := by
      apply keeping_map
      apply keeping.mono
      intro result events now holds
      cases result with
      | ok value =>
          intro later drifted
          exact Rest.drifts holds drifted
      | error error => exact holds
    apply mapped.mono
    intro result events now holds
    cases result with
    | ok value => exact holds.close
    | error error => exact holds.close
  cases operation with
  | requestRefund refundId chargeId amountCents currency actor reasonCode =>
      exact ends _ (requestRefund_keeping refundId chargeId amountCents currency actor reasonCode
        stands)
  | approve refundId approver => exact ends _ (approve_keeping refundId approver stands)
  | submitRefund refundId => exact ends _ (submitRefund_keeping refundId stands)
  | recoverSubmitted => exact ends _ (recoverSubmitted_keeping stands)
  | handleWebhook event rawBody sig secret =>
      exact ends _ (handleWebhook_keeping event rawBody sig secret stands)
  | reconcile settlementFile =>
      apply ends
      apply keeping_query stands
      intro now rows after drifted _ stands executed _
      cases executed
      refine ⟨trivial, keeping_pure ?_⟩
      intro later drifted'
      exact stands.drifts drifted'

end Operations

end RefundEngine
