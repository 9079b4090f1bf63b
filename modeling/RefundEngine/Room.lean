import RefundEngine.Errors
import RefundEngine.AuditRows

/-!
# The room on a charge

A client can read a charge and what has been refunded of it before it asks for more.  What it
has read is out of date by the time its request looks under the lock, but only on account of
requests that committed in between: nothing else takes room, and a failed refund gives it back.
-/

namespace RefundEngine

open Interleaving (CallId Machine mem_own own)

/-- Fetch a charge by id. -/
def World.getCharge (world : World) (chargeId : Uuid) : Except RefundError Charge :=
  match world.database.charges.find? chargeId with
  | some charge => .ok charge
  | none => .error (.chargeNotFound chargeId)

/-- Sum of refunds against a charge that moved (or may yet move) money. -/
def World.refundedSoFar (world : World) (chargeId : Uuid) : Except RefundError Int64 :=
  liftDb (castBigint (RefundEngine.refundedSoFar world.rows chargeId))

section Reads

variable {world : World} {chargeId : Uuid} {charge : Charge} {total : Int64}

theorem World.getCharge_eq_ok (read : world.getCharge chargeId = .ok charge) :
    charge ∈ world.charges ∧ charge.id = chargeId := by
  rw [getCharge] at read
  split at read
  · cases read
    rename_i found
    rw [ChargeTable.find?] at found
    have named := List.find?_some found
    exact ⟨List.mem_of_find?_eq_some found, of_decide_eq_true named⟩
  · cases read

/-- Together the two reads tell the room on the charge. -/
theorem WorldOk.room_of_reads (ok : WorldOk world) (read : world.getCharge chargeId = .ok charge)
    (summed : world.refundedSoFar chargeId = .ok total) :
    (charge.amountCaptured - total).toInt = world.remaining charge := by
  rcases World.getCharge_eq_ok read with ⟨member, rfl⟩
  rcases ok.remaining member with ⟨sum, fits, _, room, _⟩
  rw [World.refundedSoFar, fits] at summed
  cases summed
  exact room

end Reads

/-! ## What takes room and what gives it back -/

/-- What a step adds to the sum over a charge: the amount of a request that commits. -/
def reserves (chargeId : Uuid) : EngineEvent → Int
  | .answered _ (.requestRefund _ requested amountCents _ _ _) (.sql .commit) (.ok ()) _ =>
      if requested = chargeId then amountCents.toInt else 0
  | _ => 0

/-- What the steps of a run add to it. -/
def reserved (chargeId : Uuid) (events : List EngineEvent) : Int :=
  (events.map (reserves chargeId)).sum

/-- A delivery of a failure commits. -/
def releases : EngineEvent → Bool
  | .answered _ (.handleWebhook event _ _ _) (.sql .commit) (.ok ()) _ =>
      event.eventType = "refund.failed"
  | _ => false

section Share

variable {chargeId : Uuid} {row after : Refund}

theorem RefundUpdate.chargeId_assign (update : RefundUpdate) (now : Timestamp) (row : Refund) :
    (update.assign now row).chargeId = row.chargeId := by
  cases update <;> rfl

theorem Refund.share_assign_le {update : RefundUpdate} {now : Timestamp}
    (active : (update.assign now row).Active → row.Active) :
    (update.assign now row).share chargeId ≤ row.share chargeId := by
  have nonneg := row.share_nonneg chargeId
  simp only [Refund.share, update.chargeId_assign, update.assign_amountCents] at nonneg ⊢
  by_cases counts : row.chargeId = chargeId ∧ (update.assign now row).Active
  · rw [if_pos counts, if_pos ⟨counts.1, active counts.2⟩]
  · rw [if_neg counts]
    exact nonneg

theorem Refund.share_assign {update : RefundUpdate} {now : Timestamp}
    (active : (update.assign now row).Active ↔ row.Active) :
    (update.assign now row).share chargeId = row.share chargeId := by
  simp only [Refund.share, update.chargeId_assign, update.assign_amountCents, active]

theorem Undeciding.active (keeps : Undeciding row after) (live : row.status ≠ .canceled)
    (liveAfter : after.status ≠ .canceled) : after.Active ↔ row.Active := by
  simp only [Refund.Active, live, liveAfter, ne_eq, not_false_eq_true, and_true]
  rcases keeps.status with same | undecided
  · rw [same]
  · have unfailed := undecided .failed (by simp)
    exact iff_of_true unfailed.2 unfailed.1

theorem refundedSoFar_map_le {rows : List Refund} {change : Refund → Refund}
    (each : ∀ row ∈ rows, (change row).share chargeId ≤ row.share chargeId) :
    refundedSoFar (rows.map change) chargeId ≤ refundedSoFar rows chargeId := by
  rw [refundedSoFar_eq, refundedSoFar_eq, List.map_map]
  exact List.sum_le_sum each

theorem refundedSoFar_map {rows : List Refund} {change : Refund → Refund}
    (each : ∀ row ∈ rows, (change row).share chargeId = row.share chargeId) :
    refundedSoFar (rows.map change) chargeId = refundedSoFar rows chargeId := by
  rw [refundedSoFar_eq, refundedSoFar_eq, List.map_map]
  exact congrArg List.sum (List.map_congr_left each)

end Share

section Step

variable {hmac : Hmac} {trace : List EngineEvent} {state next : EngineState}
variable {event : EngineEvent} {chargeId : Uuid}

theorem reserves_of_other (other : ∀ call (request : RefundRequest) before,
    event ≠ .answered call request.operation (.sql .commit) (.ok ()) before) :
    reserves chargeId event = 0 := by
  unfold reserves
  split
  · rename_i call refundId requested amountCents currency actor reasonCode before
    exact (other call ⟨refundId, requested, amountCents, currency, actor, reasonCode⟩ before
      rfl).elim
  · rfl

theorem Ledger.refunds_of_request {ledger : Ledger} {request : RefundRequest}
    {began : Timestamp} {reply : Reply}
    (accepted : (ledger.request request began).1 = .ok reply) :
    ∃ positive, (ledger.request request began).2.refunds =
      ledger.refunds ++ [request.row positive began] := by
  unfold Ledger.request at accepted ⊢
  repeat' split at accepted
  all_goals try cases accepted
  rename_i charge found currency room positive taken
  simp only [if_neg currency, if_neg room, dif_pos positive, if_neg taken]
  exact ⟨positive, rfl⟩

theorem EngineRun.accepted_of_commit (run : EngineRun hmac trace state) {call : CallId}
    {request : RefundRequest} {before : World}
    (step : (engine hmac).Step state
      (.answered call request.operation (.sql .commit) (.ok ()) before) next) :
    (Ledger.of state.world).request request (state.world.began call) =
      (.ok (.refundId request.refundId), Ledger.of next.world) := by
  have licensed := (run.cons step trivial).respects (intakeContract_upheld hmac)
    (List.nil_append _).symm
  rcases licensed.1 request rfl with ⟨statement, same, isNext⟩
  cases same
  generalize behind : own call trace = events at isNext
  cases isNext with
  | commit admits =>
      cases step with
      | answer running executed => exact run.commit_decides behind admits executed

theorem EngineRun.appended_of_commit (run : EngineRun hmac trace state) {call : CallId}
    {request : RefundRequest} {before : World}
    (step : (engine hmac).Step state
      (.answered call request.operation (.sql .commit) (.ok ()) before) next) (chargeId : Uuid) :
    ∃ row, next.world.rows = state.world.rows ++ [row] ∧
      reserves chargeId (.answered call request.operation (.sql .commit) (.ok ()) before) =
        row.share chargeId := by
  have accepted := run.accepted_of_commit step
  rcases Ledger.refunds_of_request (congrArg Prod.fst accepted) with ⟨positive, appended⟩
  rw [accepted] at appended
  refine ⟨request.row positive (state.world.began call), appended, ?_⟩
  have active : (request.row positive (state.world.began call)).Active := by
    rw [Refund.Active, RefundRequest.row, RefundRequest.initialStatus]
    split <;> simp
  simp only [Refund.share, active, and_true]
  rfl

/-- A step that is no commit of a request leaves the sum over a charge alone, or lowers it when
a failure is delivered. -/
theorem TrailStep.accounts {before after : World} (stepped : TrailStep hmac before event after)
    (live : ∀ row ∈ before.rows, row.status ≠ .canceled)
    (liveAfter : ∀ row ∈ after.rows, row.status ≠ .canceled)
    (other : ∀ call (request : RefundRequest) before,
      event ≠ .answered call request.operation (.sql .commit) (.ok ()) before) :
    RefundEngine.refundedSoFar after.rows chargeId ≤
        RefundEngine.refundedSoFar before.rows chargeId ∧
      (releases event = false → RefundEngine.refundedSoFar after.rows chargeId =
        RefundEngine.refundedSoFar before.rows chargeId) := by
  have equal : RefundEngine.refundedSoFar after.rows chargeId =
      RefundEngine.refundedSoFar before.rows chargeId →
      RefundEngine.refundedSoFar after.rows chargeId ≤
        RefundEngine.refundedSoFar before.rows chargeId ∧
      (releases event = false → RefundEngine.refundedSoFar after.rows chargeId =
        RefundEngine.refundedSoFar before.rows chargeId) :=
    fun same => ⟨same.le, fun _ => same⟩
  cases stepped with
  | still rows => exact equal (by rw [rows])
  | noted rows => exact equal (by rw [rows])
  | @updated _ _ update _ updates rows audits keeps =>
      apply equal
      rw [rows]
      apply refundedSoFar_map
      intro row member
      have inAfter : (update.change before.now).apply row ∈ after.rows := by
        rw [rows]
        exact List.mem_map.mpr ⟨row, member, rfl⟩
      have active := (keeps row member).active (live row member) (liveAfter _ inAfter)
      simp only [RefundUpdate.change] at active ⊢
      split
      · rename_i applies
        rw [if_pos applies] at active
        exact Refund.share_assign active
      · rfl
  | @opened _ row =>
      exact (other _ ⟨row.id, row.chargeId, row.amountCents, row.currency, row.requestedBy,
        row.reasonCode⟩ _ rfl).elim
  | @decided _ webhook _ _ _ update reason _ _ row writtenAt _ _ _ asks _ member applies rows =>
      have isRow : ∀ changed ∈ before.rows, changed.id = row.id → changed = row :=
        fun changed inside => before.database.refunds.eq_of_id inside member
      rcases webhook.reason_of_update asks with ⟨gatewayRef, rfl, _⟩ | ⟨gatewayRef, rfl⟩
      · apply equal
        rw [rows]
        apply refundedSoFar_map
        intro changed inside
        split
        · rename_i own
          rw [isRow changed inside own]
          apply Refund.share_assign
          rcases applies.2 with status | status
          all_goals simp [Refund.Active, RefundUpdate.assign, status]
        · rfl
      · rw [rows]
        constructor
        · apply refundedSoFar_map_le
          intro changed inside
          split
          · apply Refund.share_assign_le
            intro active
            exact (active.1 rfl).elim
          · exact le_refl _
        · intro unreleased
          have unfailed : webhook.eventType ≠ "refund.failed" := of_decide_eq_false unreleased
          rw [WebhookEvent.update, if_neg unfailed] at asks
          split at asks
          all_goals cases asks

/-- A step changes the sum over a charge by what it adds, or lowers it when a failure is
delivered. -/
theorem EngineRun.accounts (run : EngineRun hmac trace state)
    (step : (engine hmac).Step state event next) (permitted : NoCancel trace event)
    (chargeId : Uuid) :
    RefundEngine.refundedSoFar next.world.rows chargeId ≤
        RefundEngine.refundedSoFar state.world.rows chargeId + reserves chargeId event ∧
      (releases event = false → RefundEngine.refundedSoFar next.world.rows chargeId =
        RefundEngine.refundedSoFar state.world.rows chargeId + reserves chargeId event) := by
  by_cases commits : ∃ call, ∃ request : RefundRequest, ∃ before,
      event = .answered call request.operation (.sql .commit) (.ok ()) before
  · rcases commits with ⟨call, request, before, rfl⟩
    rcases run.appended_of_commit step chargeId with ⟨row, rows, adds⟩
    rw [rows, refundedSoFar_append, adds]
    exact ⟨le_refl _, fun _ => rfl⟩
  · have other : ∀ call (request : RefundRequest) before,
        event ≠ .answered call request.operation (.sql .commit) (.ok ()) before :=
      fun call request before same => commits ⟨call, request, before, same⟩
    rw [reserves_of_other other, add_zero]
    exact (run.trailStep step permitted).accounts run.not_canceled
      (run.cons step permitted).not_canceled other

theorem EngineRun.reserves_nonneg (run : EngineRun hmac trace state)
    (step : (engine hmac).Step state event next) (chargeId : Uuid) :
    0 ≤ reserves chargeId event := by
  by_cases commits : ∃ call, ∃ request : RefundRequest, ∃ before,
      event = .answered call request.operation (.sql .commit) (.ok ()) before
  · rcases commits with ⟨call, request, before, rfl⟩
    rcases run.appended_of_commit step chargeId with ⟨row, _, adds⟩
    rw [adds]
    exact row.share_nonneg chargeId
  · have other : ∀ call (request : RefundRequest) before,
        event ≠ .answered call request.operation (.sql .commit) (.ok ()) before :=
      fun call request before same => commits ⟨call, request, before, same⟩
    rw [reserves_of_other other]

end Step

section Run

variable {hmac : Hmac} {trace more : List EngineEvent} {state final : EngineState}

/-- What is counted against a charge, from step to step. -/
theorem EngineRun.counted (run : EngineRun hmac trace state)
    (continued : (engine hmac).Run NoCancel state more final) (chargeId : Uuid) :
    RefundEngine.refundedSoFar final.world.rows chargeId ≤
        RefundEngine.refundedSoFar state.world.rows chargeId + reserved chargeId more ∧
      ((∀ event ∈ more, releases event = false) →
        RefundEngine.refundedSoFar final.world.rows chargeId =
          RefundEngine.refundedSoFar state.world.rows chargeId + reserved chargeId more) := by
  induction continued with
  | nil => simp [reserved]
  | cons before step permitted ih =>
      have accounts := (run.append before).accounts step permitted.anywhere chargeId
      rw [reserved, List.map_cons, List.sum_cons]
      rw [reserved] at ih
      constructor
      · have atMost := ih.1
        have added := accounts.1
        omega
      · intro unreleased
        have same := ih.2 fun event member => unreleased event (List.mem_cons_of_mem _ member)
        have added := accounts.2 (unreleased _ (List.mem_cons_self ..))
        omega

theorem EngineRun.reserved_le (run : EngineRun hmac trace state)
    (continued : (engine hmac).Run NoCancel state more final) {newer earlier : List EngineEvent}
    (split : more = newer ++ earlier) (chargeId : Uuid) :
    reserved chargeId earlier ≤ reserved chargeId more := by
  have nonneg : 0 ≤ reserved chargeId newer := by
    apply List.sum_nonneg
    intro added isAdded
    rcases List.mem_map.mp isAdded with ⟨event, member, rfl⟩
    have inMore : event ∈ more := split ▸ List.mem_append_left _ member
    rcases continued.exists_step_of_mem inMore with ⟨_, _, _, before, step, _⟩
    exact (run.append before).reserves_nonneg step chargeId
  rw [split]
  simp only [reserved, List.map_append, List.sum_append] at nonneg ⊢
  exact le_add_of_nonneg_left nonneg

/-- From every state that is reached, over any continuation of the run and for every charge: what
is counted against the charge rises by the amounts of the requests that commit, and by nothing
else; and it falls only when the failure of a refund is delivered. -/
theorem room_accounted (run : EngineRun hmac trace state)
    (continued : (engine hmac).Run NoCancel state more final) (chargeId : Uuid) :
    RefundEngine.refundedSoFar final.world.rows chargeId ≤
        RefundEngine.refundedSoFar state.world.rows chargeId + reserved chargeId more ∧
      ((∀ event ∈ more, releases event = false) →
        RefundEngine.refundedSoFar final.world.rows chargeId =
          RefundEngine.refundedSoFar state.world.rows chargeId + reserved chargeId more) :=
  run.counted continued chargeId

/-- A client reads a charge and what has been refunded of it, and then requests.  Whatever runs
meanwhile, the request is refused for lack of room only if the requests on the charge that have
committed since leave too little of the room it read. -/
theorem refused_only_when_taken (run : EngineRun hmac trace state)
    (continued : (engine hmac).Run NoCancel state more final) {charge : Charge} {total left : Int64}
    {request : RefundRequest} {call : CallId}
    (read : state.world.getCharge request.chargeId = .ok charge)
    (summed : state.world.refundedSoFar request.chargeId = .ok total)
    (idle : state.calls call = .idle)
    (finished : .finished call request.operation
      (.error (.overRefund request.chargeId request.amountCents left)) ∈ more) :
    (charge.amountCaptured - total).toInt <
      request.amountCents.toInt + reserved request.chargeId more := by
  rw [run.worldOk.room_of_reads read summed]
  rcases World.getCharge_eq_ok read with ⟨member, names⟩
  have whole := run.append continued
  have inWhole := List.mem_append_left trace finished
  have explained := whole.explains_request request inWhole fun _ named => nomatch named
  rcases explained with
    ⟨_, _, _, _, found, foundIn, foundId, sum, before, answered, isLeft, _, exceeds⟩
  have isCharge : found = charge := final.world.database.charges.eq_of_id foundIn
    ((run.later continued).charges member) (foundId.trans names.symm)
  rw [isCharge] at isLeft
  have inMore : .answered call request.operation (.sql (.sumRefunds request.chargeId)) (.ok sum)
      before ∈ more := by
    rcases List.mem_append.mp answered with inside | earlier
    · exact inside
    · rcases run with ⟨_, _, _, run⟩
      exact (run.no_events_of_idle idle _ earlier rfl).elim
  rcases List.append_of_mem inMore with ⟨newer, earlier, split⟩
  rcases continued.step_of_split split with ⟨middle, _, toMiddle, step, _⟩
  have isMiddle : middle.world = before := by
    cases step with
    | answer => rfl
  have counted := (run.counted toMiddle request.chargeId).1
  have most := run.reserved_le continued (split.trans (List.append_cons ..)) request.chargeId
  rw [isMiddle] at counted
  simp only [World.remaining, names] at isLeft ⊢
  omega

end Run

/-- A request for all that is left. -/
def overtakenRequest : RefundRequest where
  refundId := ⟨9⟩
  chargeId := sampleCharge.id
  amountCents := 348000
  currency := "EUR"
  actor := "carol"
  reasonCode := none

/-- Another request overtakes it. -/
def overtaken : List EngineEvent × EngineState :=
  ((engine sampleHmac).play NoCancel
    (.start 10 overtakenRequest.operation ::
      uninterrupted 11 (.requestRefund ⟨10⟩ sampleCharge.id 1000 "EUR" "dave" none) 6 ++
      [.execute 10, .execute 10, .execute 10, .execute 10, .finish 10])
    ([], sampleEnd.2)).get (by decide +kernel)

theorem overtaken_continued :
    (engine sampleHmac).Run NoCancel sampleEnd.2 overtaken.1 overtaken.2 :=
  Machine.play_run .nil (Option.some_get _).symm

theorem room_accounted_overtaken :
    RefundEngine.refundedSoFar overtaken.2.world.rows sampleCharge.id =
      RefundEngine.refundedSoFar sampleEnd.2.world.rows sampleCharge.id +
        reserved sampleCharge.id overtaken.1 :=
  (room_accounted sampleEnd_run overtaken_continued sampleCharge.id).2 (by decide +kernel)

theorem refused_only_when_taken_overtaken :
    (sampleCharge.amountCaptured - 152000).toInt <
      overtakenRequest.amountCents.toInt + reserved overtakenRequest.chargeId overtaken.1 := by
  have finished : .finished 10 overtakenRequest.operation (.error (.overRefund
      overtakenRequest.chargeId overtakenRequest.amountCents 347000)) ∈ overtaken.1 :=
    finished_of_ending (by decide +kernel)
  have read : sampleEnd.2.world.getCharge overtakenRequest.chargeId = .ok sampleCharge := by
    decide +kernel
  have summed : sampleEnd.2.world.refundedSoFar overtakenRequest.chargeId = .ok 152000 := by
    decide +kernel
  have idle : sampleEnd.2.calls 10 = .idle := sampleEnd_run.idle_of_absent (by decide +kernel)
  exact refused_only_when_taken sampleEnd_run overtaken_continued read summed idle finished

end RefundEngine
