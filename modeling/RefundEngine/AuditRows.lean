import RefundEngine.Issued
import RefundEngine.Linearizable
import RefundEngine.Settlement

/-!
# What the audit rows tell

The first audit row of a refund and the ones that decide it are written in the transaction
that writes the refund, so they are exact in every interleaving, whatever fails or dies: one
opening row a refund, and a decision exactly where a decision was applied.  Every other audit
row was written by the call that its actor names.
-/

namespace RefundEngine

open Interleaving (CallId Machine mem_own own)

/-- The first audit row of a refund. -/
def Refund.opening (row : Refund) : AuditLine where
  fromStatus := none
  toStatus := initialStatus row.amountCents
  actor := row.requestedBy
  reason := row.reasonCode

/-- The decisions that the audit rows of a refund tell, with their reasons. -/
def decisions (transitions : List Transition) (refundId : Uuid) :
    List (Status × Option String) :=
  (transitions.filter fun audit =>
    audit.refundId = refundId ∧ (audit.toStatus = .settled ∨ audit.toStatus = .failed)).map
      fun audit => (audit.toStatus, audit.reason)

/-- A refund is as its decisions say: settled once, failed with the last reason given, or not
decided. -/
def Refund.Decided (row : Refund) (decisions : List (Status × Option String)) : Prop :=
  match row.status with
  | .settled => decisions = [(.settled, none)] ∧ row.failureReason = none
  | .failed => ∃ earlier, decisions = earlier ++ [(.failed, row.failureReason)] ∧
      ∀ decision ∈ earlier, decision.1 = .failed
  | .pendingReview | .requested | .submitted | .canceled =>
      decisions = [] ∧ row.failureReason = none

section Newest

variable {transitions : List Transition} {audit : Transition} {refundId : Uuid}

theorem newestStatus_ne_none (member : audit ∈ transitions) (names : audit.refundId = refundId) :
    newestStatus transitions refundId ≠ none := by
  intro none
  have empty := List.argmax_eq_none.mp (Option.map_eq_none_iff.mp none)
  have listed : audit ∈ transitions.filter fun row => row.refundId = refundId :=
    List.mem_filter.mpr ⟨member, decide_eq_true names⟩
  rw [empty] at listed
  cases listed

theorem decisions_append (more : List Transition) :
    decisions (transitions ++ more) refundId =
      decisions transitions refundId ++ decisions more refundId := by
  simp only [decisions, List.filter_append, List.map_append]

theorem decisions_undecided (silent : audit.refundId = refundId →
    audit.toStatus ≠ .settled ∧ audit.toStatus ≠ .failed) : decisions [audit] refundId = [] := by
  have excluded : ¬(audit.refundId = refundId ∧
      (audit.toStatus = .settled ∨ audit.toStatus = .failed)) := by
    rintro ⟨own, decides⟩
    rcases decides with settled | failed
    · exact (silent own).1 settled
    · exact (silent own).2 failed
  simp only [decisions, List.filter_cons, excluded, decide_false, List.filter_nil,
    Bool.false_eq_true, ↓reduceIte, List.map_nil]

theorem decisions_decided (names : audit.refundId = refundId)
    (decides : audit.toStatus = .settled ∨ audit.toStatus = .failed) :
    decisions [audit] refundId = [(audit.toStatus, audit.reason)] := by
  simp only [decisions, List.filter_cons, names, decides, and_self, decide_true, List.filter_nil,
    ↓reduceIte, List.map_cons, List.map_nil]

end Newest

section Commit

variable {hmac : Hmac} {trace : List EngineEvent} {state next : EngineState} {call : CallId}
variable {operation : Operation} {transaction : Transaction} {answer : Except DbError Unit}

/-- A refund is committed by the request for it, with its opening row. -/
theorem EngineRun.staged_of_insert (run : EngineRun hmac trace state)
    (step : (engine hmac).Step state
      (.answered call operation (.sql .commit) answer state.world) next)
    (opened : state.world.transaction call = some transaction) {row : Refund}
    (writes : transaction.refundWrites = [.insert row]) :
    operation = .requestRefund row.id row.chargeId row.amountCents row.currency row.requestedBy
      row.reasonCode ∧
    row.failureReason = none ∧ ∃ audit, transaction.transitionWrites = [audit] ∧
      audit.refundId = row.id ∧ audit.line = row.opening := by
  have written : .insert row ∈ transaction.refundWrites := by
    rw [writes]
    exact List.mem_singleton.mpr rfl
  rcases run.request_of_insert opened written with ⟨rest, stands⟩
  have permits := run.intake step
  cases step with
  | answer running executed =>
      cases running.symm.trans stands
      let request : RefundRequest := {
        refundId := row.id, chargeId := row.chargeId, amountCents := row.amountCents
        currency := row.currency, actor := row.requestedBy, reasonCode := row.reasonCode }
      rcases permits.1 request rfl with ⟨_, same, requests⟩
      cases same
      have linked := run.recalled.linked call
      generalize own call trace = events at requests linked
      cases requests with
      | commit =>
          rcases Reading.of_recorded linked with ⟨_, audit, opened', names, line, _⟩
          cases opened.symm.trans opened'
          have fresh := congrArg Refund.failureReason
            (RefundWrite.insert.inj (List.singleton_inj.mp writes))
          exact ⟨rfl, fresh.symm, audit, rfl, names, line⟩

/-- Every refund has an audit row. -/
theorem EngineRun.audited (run : EngineRun hmac trace state) :
    ∀ row ∈ state.world.rows,
      newestStatus state.world.database.transitions row.id ≠ none := by
  refine run.preserves (fun _ state => ∀ row ∈ state.world.rows,
    newestStatus state.world.database.transitions row.id ≠ none) ?_ ?_
  · intro charges config now row member
    cases member
  · intro trace state event next run ih step permitted row member
    have appends := transitions_of_step step
    have kept : ∀ earlier ∈ state.world.rows,
        newestStatus next.world.database.transitions earlier.id ≠ none := by
      intro earlier earlierIn
      have before := ih earlier earlierIn
      intro none
      apply before
      have empty := List.argmax_eq_none.mp (Option.map_eq_none_iff.mp none)
      rw [appends, List.filter_append, List.append_eq_nil_iff] at empty
      rw [newestStatus, empty.1]
      rfl
    cases rowOrigin run.worldOk step member with
    | kept earlier => exact kept row earlier
    | updated earlier | decided _ _ earlier =>
        rw [RefundUpdate.assign_id]
        exact kept _ earlier
    | @canceled earlier _ earlierIn => exact kept earlier earlierIn
    | @inserted call operation transaction _ opened writes =>
        rcases run.staged_of_insert step opened writes with ⟨_, _, audit, staged, names, _⟩
        refine newestStatus_ne_none ?_ names
        rw [appends, appended, World.staged_of_opened opened, staged]
        exact List.mem_append_right _ (List.mem_singleton.mpr rfl)

/-- A statement that decides a refund saw an audit row of it when it began to wait. -/
theorem EngineRun.audited_of_suspended (run : EngineRun hmac trace state) {update : RefundUpdate}
    {snapshot : List Transition} {gatewayRef : String} {status : Status}
    (waits : state.world.suspended call = some (update, snapshot))
    (decides : update.decision = some (gatewayRef, status)) :
    ∃ row ∈ state.world.rows, row.gatewayRef = some gatewayRef ∧
      newestStatus snapshot row.id ≠ none := by
  refine run.preserves (fun _ state => state.world.suspended call = some (update, snapshot) →
    ∃ row ∈ state.world.rows, row.gatewayRef = some gatewayRef ∧
      newestStatus snapshot row.id ≠ none) ?_ ?_ waits
  · intro charges config now waits
    cases waits
  · intro trace state event next run ih step permitted waits
    rcases suspended_of_step step waits with ⟨before, _⟩ | ⟨_, locked, fixed, same⟩
    · rcases ih before with ⟨row, member, recorded, seen⟩
      rcases (run.later (.cons .nil step permitted.anywhere)).forward row member with
        ⟨row', member', advances⟩
      exact ⟨row', member', advances.gatewayRef _ recorded, by rwa [advances.id]⟩
    · rcases locked with ⟨row, member, applies, _⟩
      cases fixed
      rw [same]
      exact ⟨row, member, RefundUpdate.gatewayRef_of_decision decides applies,
        run.audited row member⟩

theorem EngineRun.audited_of_visible (run : EngineRun hmac trace state) {update : RefundUpdate}
    {gatewayRef : String} {status : Status} (decides : update.decision = some (gatewayRef, status))
    {row : Refund} (member : row ∈ state.world.rows) (applies : update.Applies row) :
    newestStatus (state.world.visible call update) row.id ≠ none := by
  cases waits : state.world.suspended call with
  | none =>
      rw [World.visible_of_resumed waits]
      exact run.audited row member
  | some waiting =>
      rcases waiting with ⟨waiting, snapshot⟩
      simp only [World.visible, waits]
      split_ifs with same
      · subst same
        rcases run.audited_of_suspended waits decides with ⟨row', member', recorded, seen⟩
        have recorded' := RefundUpdate.gatewayRef_of_decision decides applies
        rwa [state.world.database.refunds.eq_of_gatewayRef member member' recorded' recorded]
      · exact run.audited row member

/-- Only a request stages an opening row, and that says what the request asks for. -/
theorem EngineRun.opening_of_staged (run : EngineRun hmac trace state)
    (opened : state.world.transaction call = some transaction) {audit : Transition}
    (staged : audit ∈ transaction.transitionWrites) (fromNothing : audit.fromStatus = none) :
    ∃ chargeId amountCents currency rest,
      state.calls call = .running (.requestRefund audit.refundId chargeId amountCents currency
        audit.actor audit.reason) rest := by
  have held := run.transaction_invariant
    (fun operation transaction => ∀ audit ∈ transaction.transitionWrites,
      audit.fromStatus = none → ∃ chargeId amountCents currency, operation =
        .requestRefund audit.refundId chargeId amountCents currency audit.actor audit.reason)
    (fun _ _ _ _ member => nomatch member) ?_ opened
  · rcases held with ⟨operation, rest, stands, _, opens⟩
    rcases opens audit staged fromNothing with ⟨chargeId, amountCents, currency, rfl⟩
    exact ⟨chargeId, amountCents, currency, rest, stands⟩
  · intro trace state caller operation command earlier transaction run issued stepped held audit
      member fromNothing
    cases stepped with
    | same | locked | inserted => exact held audit member fromNothing
    | begun => cases member
    | opened =>
        rcases List.mem_append.mp member with before | last
        · exact held audit before fromNothing
        · cases List.mem_singleton.mp last
          rcases issued with ⟨chargeId, amountCents, currency, rfl, _⟩
          exact ⟨chargeId, amountCents, currency, rfl⟩
    | moved _ audited =>
        rcases List.mem_append.mp member with before | last
        · exact held audit before fromNothing
        · rcases audited audit last with ⟨row, inside, applies, _, source, _⟩
          rcases issued with ⟨event, _, _, _, _, asks⟩
          rcases event.decision_of_update asks with ⟨status, decides⟩
          exact (run.audited_of_visible decides inside applies (source.symm.trans fromNothing)).elim

/-- A refund is decided by a verified delivery that asks for it, with its audit row. -/
theorem EngineRun.staged_of_update (run : EngineRun hmac trace state)
    (step : (engine hmac).Step state
      (.answered call operation (.sql .commit) answer state.world) next)
    (opened : state.world.transaction call = some transaction) {id : Uuid}
    {update : RefundUpdate} {writtenAt : Timestamp}
    (writes : transaction.refundWrites = [.update id update writtenAt]) :
    ∃ webhook rawBody sig secret reason gatewayRef status audit,
      operation = .handleWebhook webhook rawBody sig secret ∧
      verifySignature hmac rawBody sig secret = true ∧
      webhook.update = some (update, reason) ∧ update.decision = some (gatewayRef, status) ∧
      transaction.transitionWrites = [audit] ∧ audit.refundId = id ∧
      audit.fromStatus ≠ none ∧ audit.toStatus = status ∧ audit.actor = "webhook" ∧
      audit.reason = reason := by
  have written : .update id update writtenAt ∈ transaction.refundWrites := by
    rw [writes]
    exact List.mem_singleton.mpr rfl
  rcases run.delivery_of_update opened written with
    ⟨webhook, rawBody, sig, secret, reason, rest, stands, asks⟩
  have isOpen : state.world.writes call = true := by
    rw [World.writes, opened]
    simp only [writes, List.isEmpty_cons, Bool.not_false]
  have running : operation = .handleWebhook webhook rawBody sig secret := by
    cases step with
    | answer running => cases running.symm.trans stands; rfl
  subst running
  rcases run.delivery step isOpen with ⟨update', reason', applied, began, _, _, asks', behind⟩
  cases asks.symm.trans asks'
  have linked := run.recalled.linked call
  rw [behind] at linked
  rcases transaction_of_delivery linked with ⟨audits, opened', ids, lines⟩
  cases opened.symm.trans opened'
  have inTrace := (mem_own.mp (behind ▸ List.mem_cons_self ..)).1
  rcases List.append_of_mem inTrace with ⟨newer, older, split⟩
  rcases run.licensed split with ⟨_, _, _, _, _, _, _, same, verified, _⟩
  cases same
  rcases List.map_eq_singleton_iff.mp writes with ⟨row, only, isRow⟩
  cases isRow
  rw [only] at ids
  rcases List.map_eq_singleton_iff.mp ids with ⟨audit, rfl, names⟩
  rcases lines audit (List.mem_cons_self ..) with ⟨actor, reason⟩
  have accompanies := (run.numbered.staged call _ opened audit (List.mem_cons_self ..)).2
  rw [show _ = _ from writes] at accompanies
  cases accompanies with
  | deciding decides _ reached =>
      refine ⟨webhook, rawBody, sig, secret, _, _, _, audit, rfl, verified, asks, decides, rfl,
        names, ?_, reached, actor, reason⟩
      intro fromNothing
      rcases run.opening_of_staged opened (List.mem_cons_self ..) fromNothing with
        ⟨_, _, _, _, stands'⟩
      cases stands.symm.trans stands'

end Commit

/-! ## What a step records -/

/-- A change of a refund that decides nothing. -/
structure Undeciding (before after : Refund) : Prop where
  id : after.id = before.id
  opening : after.opening = before.opening
  failureReason : after.failureReason = before.failureReason
  status : after.status = before.status ∨
    ∀ decided ∈ [Status.settled, .failed], before.status ≠ decided ∧ after.status ≠ decided

theorem RefundUpdate.opening_assign (update : RefundUpdate) (now : Timestamp) (row : Refund) :
    (update.assign now row).opening = row.opening := by
  cases update <;> rfl

theorem undeciding_of_assign {gateway : MockGateway} {row : Refund} {update : RefundUpdate}
    (ok : RowOk gateway row) (undecided : update.decision = none) (applies : update.Applies row)
    (now : Timestamp) : Undeciding row (update.assign now row) where
  id := update.assign_id now row
  opening := update.opening_assign now row
  failureReason := by
    cases update with
    | fail => cases undecided
    | markSubmitted | recordRef | recoverRef | markRequested | settle => rfl
  status := by
    cases update with
    | settle | fail => cases undecided
    | recordRef => exact .inl rfl
    | markSubmitted =>
        right
        rcases applies with ⟨_, status | status⟩
        all_goals simp [status, RefundUpdate.assign]
    | markRequested => simp [applies.2, RefundUpdate.assign]
    | recoverRef =>
        right
        -- A decided refund has a reference, so it is not recovered.
        have live : row.status ≠ .settled ∧ row.status ≠ .failed := by
          constructor
          · intro settled
            exact ok.decided (.inl settled) applies.2
          · intro failed
            exact ok.decided (.inr failed) applies.2
        simp [live, RefundUpdate.assign]

/-- What a step does to the refunds and their audit rows. -/
inductive TrailStep (hmac : Hmac) (before : World) : EngineEvent → World → Prop where
  | still {event : EngineEvent} {after : World} (rows : after.rows = before.rows)
      (audits : after.database.transitions = before.database.transitions) :
      TrailStep hmac before event after
  | updated {call : CallId} {operation : Operation} {update : RefundUpdate} {after : World}
      (updates : operation.Updates update)
      (rows : after.rows = before.rows.map (update.change before.now).apply)
      (audits : after.database.transitions = before.database.transitions)
      (keeps : ∀ row ∈ before.rows, Undeciding row ((update.change before.now).apply row)) :
      TrailStep hmac before
        (.answered call operation (.sql (.updateRefunds update)) (.ok ()) before) after
  | noted {call : CallId} {operation : Operation} {refundId : Uuid} {fromStatus : Option Status}
      {toStatus : Status} {actor : String} {after : World} (rows : after.rows = before.rows)
      (audits : after.database.transitions = before.database.transitions ++
        [before.auditRow refundId fromStatus toStatus actor])
      (notes : operation.Notes refundId fromStatus toStatus actor) :
      TrailStep hmac before (.answered call operation
        (.sql (.recordTransition refundId fromStatus toStatus actor)) (.ok ()) before) after
  | opened {call : CallId} {row : Refund} {audit : Transition} {after : World} (new : row.New)
      (unused : row.id ∉ before.rows.map Refund.id) (unfailed : row.failureReason = none)
      (rows : after.rows = before.rows ++ [row])
      (audits : after.database.transitions = before.database.transitions ++ [audit])
      (names : audit.refundId = row.id) (line : audit.line = row.opening) :
      TrailStep hmac before (.answered call (.requestRefund row.id row.chargeId row.amountCents
        row.currency row.requestedBy row.reasonCode) (.sql .commit) (.ok ()) before) after
  | decided {call : CallId} {webhook : WebhookEvent} {rawBody secret : Bytes} {sig : String}
      {update : RefundUpdate} {reason : Option String} {gatewayRef : String} {status : Status}
      {row : Refund} {writtenAt : Timestamp} {audit : Transition} {after : World}
      (verified : verifySignature hmac rawBody sig secret = true)
      (asks : webhook.update = some (update, reason))
      (decides : update.decision = some (gatewayRef, status))
      (member : row ∈ before.rows) (applies : update.Applies row)
      (rows : after.rows = before.rows.map fun other =>
        if other.id = row.id then update.assign writtenAt other else other)
      (audits : after.database.transitions = before.database.transitions ++ [audit])
      (names : audit.refundId = row.id) (source : audit.fromStatus ≠ none)
      (reached : audit.toStatus = status) (actor : audit.actor = "webhook")
      (given : audit.reason = reason) :
      TrailStep hmac before (.answered call (.handleWebhook webhook rawBody sig secret)
        (.sql .commit) (.ok ()) before) after

section Step

variable {hmac : Hmac} {trace : List EngineEvent} {state next : EngineState}
variable {event : EngineEvent}

/-- A commit opens a refund, decides one, or leaves both tables alone. -/
private theorem EngineRun.trail_of_commit (run : EngineRun hmac trace state) {call : CallId}
    {operation : Operation} {answer : Except DbError Unit}
    (step : (engine hmac).Step state
      (.answered call operation (.sql .commit) answer state.world) next) :
    TrailStep hmac state.world (.answered call operation (.sql .commit) answer state.world)
      next.world := by
  have appends := transitions_of_step step
  cases opened : state.world.transaction call with
  | none =>
      cases step with
      | answer running executed =>
          simp only [engine, Command.execute, World.execute, World.commit, World.inTransaction,
            opened] at executed
          cases executed
          exact .still rfl rfl
  | some transaction =>
      have pending := run.worldOk.pending call transaction opened
      have executed : state.world.commit call = some (answer, next.world) := by
        cases step with
        | answer running executed => exact executed
      have committed := (commit_rows pending opened executed).1
      generalize isRows : next.world.rows = rows at committed
      cases committed with
      | failed => exact .still isRows (appends.trans (List.append_nil _))
      | nothing empty =>
          refine .still isRows ?_
          rw [appends, appended, World.staged_of_opened opened,
            run.numbered.unstaged opened empty, List.append_nil]
      | @inserted row writes unused =>
          rcases run.staged_of_insert step opened writes with
            ⟨rfl, unfailed, audit, staged, names, line⟩
          rw [appended, World.staged_of_opened opened, staged] at appends
          rw [writes] at pending
          cases pending with
          | insert new =>
              refine .opened new ?_ unfailed isRows appends names line
              exact ((ids_of_commitRows run.worldOk opened
                (commit_rows (run.worldOk.pending call transaction opened) opened executed).1).2
                  rfl row writes).1
      | @decided row update writtenAt writes =>
          rcases run.staged_of_update step opened writes with
            ⟨webhook, rawBody, sig, secret, reason, gatewayRef, status, audit, rfl, verified, asks,
              decides, staged, names, source, reached, actor, given⟩
          rw [appended, World.staged_of_opened opened, staged] at appends
          rw [writes] at pending
          generalize isId : row.id = id at pending
          cases pending with
          | update member applies =>
              rw [isId] at isRows names
              exact .decided verified asks decides member applies isRows appends names source
                reached actor given

theorem EngineRun.trailStep (run : EngineRun hmac trace state)
    (step : (engine hmac).Step state event next) (permitted : NoCancel trace event) :
    TrailStep hmac state.world event next.world := by
  have appends := transitions_of_step step
  have same := stepEffect step
  cases step with
  | start | fail | finish | die => exact .still rfl rfl
  | act acted =>
      cases same with
      | same tables =>
          exact .still (congrArg RefundTable.rows tables.refunds)
            (appends.trans (List.append_nil _))
      | configured | charged => exact .still rfl rfl
      | canceled => exact permitted.elim
  | @answer call operation command next' answer world running executed =>
      have step : (engine hmac).Step state _ _ := .answer running executed
      have issued := (run.mayIssue running).1
      cases command with
      | createRefund | lookupByKey => cases executed; exact .still rfl rfl
      | sql statement =>
          have executed : state.world.execute call statement = some (answer, world) := executed
          cases statement with
          | commit => exact run.trail_of_commit step
          | updateRefunds update =>
              have undecided : update.decision = none := by
                cases update with
                | settle | fail => exact issued.elim
                | markSubmitted | recordRef | recoverRef | markRequested => rfl
              cases statementEffect executed with
              | same tables =>
                  exact .still (congrArg RefundTable.rows tables.refunds)
                    (appends.trans (List.append_nil _))
              | updated revised =>
                  refine .updated issued (RefundTable.rows_of_revise revised) rfl ?_
                  intro row member
                  simp only [RefundUpdate.change]
                  split
                  · exact undeciding_of_assign (run.worldOk.row row member) undecided ‹_› _
                  · exact ⟨rfl, rfl, rfl, .inl rfl⟩
          | recordTransition refundId fromStatus toStatus actor =>
              cases statementEffect executed with
              | same tables =>
                  have rows : world.rows = state.world.rows :=
                    congrArg RefundTable.rows tables.refunds
                  cases answer with
                  | error => exact .still rows (appends.trans (List.append_nil _))
                  | ok value => exact .noted rows appends issued
          | getRefund | selectStuck | selectAmount | insertWebhookEvent | selectSettled | begin
          | lockCharge | sumRefunds | insertRefund | insertTransition | applyMoved | rollback =>
              have plain : world.rows = state.world.rows ∧ appended
                  (.answered call operation (.sql _) answer state.world) = [] :=
                tables_of_plain trivial (by simp) executed
              exact .still plain.1 (by rw [appends, plain.2, List.append_nil])

end Step

/-- The opening rows of the trail, in the order of their commits. -/
def openings (transitions : List Transition) : List (Uuid × AuditLine) :=
  (transitions.filter fun audit => audit.fromStatus = none).map fun audit =>
    (audit.refundId, audit.line)

theorem openings_concat_of_source {transitions : List Transition} {audit : Transition}
    (source : audit.fromStatus ≠ none) :
    openings (transitions ++ [audit]) = openings transitions := by
  simp only [openings, List.filter_append, List.filter_cons, source, decide_false,
    List.filter_nil, Bool.false_eq_true, ↓reduceIte, List.append_nil]

theorem openings_concat_of_opening {transitions : List Transition} {audit : Transition}
    {row : Refund} (names : audit.refundId = row.id) (line : audit.line = row.opening) :
    openings (transitions ++ [audit]) = openings transitions ++ [(row.id, row.opening)] := by
  have source : audit.fromStatus = none := congrArg AuditLine.fromStatus line
  simp only [openings, List.filter_append, List.filter_cons, source, decide_true, List.filter_nil,
    ↓reduceIte, List.map_append, List.map_cons, List.map_nil, names, line]

theorem Refund.Decided.undeciding {row after : Refund} {told : List (Status × Option String)}
    (decided : row.Decided told) (keeps : Undeciding row after) : after.Decided told := by
  unfold Refund.Decided at decided ⊢
  rw [keeps.failureReason]
  rcases keeps.status with same | undecided
  · rw [same]
    exact decided
  · have before := undecided .settled (by simp)
    have before' := undecided .failed (by simp)
    revert decided before before'
    cases row.status <;> cases after.status <;> simp

theorem WebhookEvent.reason_of_update {webhook : WebhookEvent} {update : RefundUpdate}
    {reason : Option String} (asks : webhook.update = some (update, reason)) :
    (∃ gatewayRef, update = .settle gatewayRef ∧ reason = none) ∨
      ∃ gatewayRef, update = .fail gatewayRef reason := by
  unfold WebhookEvent.update at asks
  repeat' split at asks
  all_goals cases asks
  · exact .inl ⟨_, rfl, rfl⟩
  · exact .inr ⟨_, rfl⟩

theorem Refund.Decided.decide {row : Refund} {told : List (Status × Option String)}
    (decided : row.Decided told) {webhook : WebhookEvent} {update : RefundUpdate}
    {reason : Option String} {gatewayRef : String} {status : Status}
    (asks : webhook.update = some (update, reason))
    (decides : update.decision = some (gatewayRef, status)) (applies : update.Applies row)
    (writtenAt : Timestamp) :
    (update.assign writtenAt row).Decided (told ++ [(status, reason)]) := by
  unfold Refund.Decided at decided
  rcases webhook.reason_of_update asks with ⟨gatewayRef, rfl, rfl⟩ | ⟨gatewayRef, rfl⟩
  all_goals cases decides
  · rcases applies.2 with status | status
    all_goals
      rw [status] at decided
      rcases decided with ⟨rfl, unfailed⟩
      exact ⟨rfl, unfailed⟩
  · refine ⟨told, rfl, ?_⟩
    cases status : row.status with
    | settled => exact (applies.2.1 status).elim
    | canceled => exact (applies.2.2 status).elim
    | failed =>
        rw [status] at decided
        rcases decided with ⟨earlier, rfl, failed⟩
        intro decision member
        rcases List.mem_append.mp member with before | last
        · exact failed decision before
        · rw [List.mem_singleton.mp last]
    | pendingReview | requested | submitted =>
        rw [status] at decided
        rw [decided.1]
        intro decision member
        cases member

theorem Refund.Decided.of_initial {row : Refund}
    (initial : row.status = .pendingReview ∨ row.status = .requested)
    (unfailed : row.failureReason = none) : row.Decided [] := by
  unfold Refund.Decided
  rcases initial with status | status
  all_goals
    rw [status]
    exact ⟨rfl, unfailed⟩

theorem decisions_unknown {transitions : List Transition} {refundId : Uuid}
    (unknown : ∀ audit ∈ transitions, audit.refundId ≠ refundId) :
    decisions transitions refundId = [] := by
  rw [decisions, List.map_eq_nil_iff, List.filter_eq_nil_iff]
  intro audit inside listed
  exact unknown audit inside (of_decide_eq_true listed).1

theorem RefundUpdate.decided_of_decision {update : RefundUpdate} {gatewayRef : String}
    {status : Status} (decides : update.decision = some (gatewayRef, status)) :
    status = .settled ∨ status = .failed := by
  cases update with
  | settle =>
      cases decides
      exact .inl rfl
  | fail =>
      cases decides
      exact .inr rfl
  | markSubmitted | recordRef | recoverRef | markRequested => cases decides

/-- The opening rows are those of the refunds, one for each, and the decisions those that made
them what they are. -/
structure TrailExact (world : World) : Prop where
  openings : openings world.database.transitions =
    world.rows.map fun row => (row.id, row.opening)
  decided : ∀ row ∈ world.rows, row.Decided (decisions world.database.transitions row.id)

section TrailExact

variable {hmac : Hmac} {before after : World} {event : EngineEvent}

theorem TrailExact.trailStep (recorded : TrailExact before)
    (known : ∀ audit ∈ before.database.transitions, audit.refundId ∈ before.rows.map Refund.id)
    (stepped : TrailStep hmac before event after) : TrailExact after := by
  cases stepped with
  | still rows audits =>
      constructor
      · rw [audits, rows, recorded.openings]
      · intro row member
        rw [rows] at member
        rw [audits]
        exact recorded.decided row member
  | updated updates rows audits keeps =>
      constructor
      · rw [audits, rows, recorded.openings, List.map_map]
        apply List.map_congr_left
        intro row member
        have kept := keeps row member
        simp only [Function.comp_apply, kept.id, kept.opening]
      · intro row member
        rw [rows] at member
        rcases List.mem_map.mp member with ⟨earlier, inside, rfl⟩
        rw [audits, (keeps earlier inside).id]
        exact (recorded.decided earlier inside).undeciding (keeps earlier inside)
  | noted rows audits notes =>
      rcases notes.between with ⟨source, unsettled, unfailed⟩
      constructor
      · rw [audits, rows, openings_concat_of_source source, recorded.openings]
      · intro row member
        rw [rows] at member
        rw [audits, decisions_append, decisions_undecided fun _ => ⟨unsettled, unfailed⟩,
          List.append_nil]
        exact recorded.decided row member
  | @opened _ row audit _ new unused unfailed rows audits names line =>
      have initial : row.status = .pendingReview ∨ row.status = .requested := by
        rw [new.status]
        split
        · exact .inl rfl
        · exact .inr rfl
      have reached : audit.toStatus ≠ .settled ∧ audit.toStatus ≠ .failed := by
        rw [show audit.toStatus = row.status from
          (congrArg AuditLine.toStatus line).trans new.status.symm]
        rcases initial with status | status
        all_goals simp [status]
      constructor
      · rw [audits, rows, List.map_append, openings_concat_of_opening names line,
          recorded.openings, List.map_singleton]
      · intro other member
        rw [rows] at member
        rw [audits, decisions_append, decisions_undecided fun _ => reached, List.append_nil]
        rcases List.mem_append.mp member with inside | last
        · exact recorded.decided other inside
        · cases List.mem_singleton.mp last
          have untold : decisions before.database.transitions row.id = [] := by
            apply decisions_unknown
            rintro audit inside same
            exact unused (same ▸ known audit inside)
          rw [untold]
          exact .of_initial initial unfailed
  | @decided _ _ _ _ _ update reason gatewayRef status row writtenAt audit _ _ asks decides member
      applies rows audits names source reached _ given =>
      constructor
      · rw [audits, rows, openings_concat_of_source source, recorded.openings, List.map_map]
        apply List.map_congr_left
        intro other _
        simp only [Function.comp_apply]
        split
        · rw [RefundUpdate.assign_id, RefundUpdate.opening_assign]
        · rfl
      · intro changed inside
        rw [rows] at inside
        rcases List.mem_map.mp inside with ⟨other, otherIn, rfl⟩
        rw [audits, decisions_append]
        by_cases own : other.id = row.id
        · have isRow := before.database.refunds.eq_of_id otherIn member own
          have isDecision := RefundUpdate.decided_of_decision decides
          rw [if_pos own, isRow, RefundUpdate.assign_id,
            decisions_decided names (reached.symm ▸ isDecision), reached, given]
          exact (recorded.decided row member).decide asks decides applies writtenAt
        · rw [if_neg own, decisions_undecided fun same => (own (same.symm.trans names)).elim,
            List.append_nil]
          exact recorded.decided other otherIn

end TrailExact

theorem EngineRun.trailExact {hmac : Hmac} {trace : List EngineEvent} {state : EngineState}
    (run : EngineRun hmac trace state) : TrailExact state.world := by
  refine run.preserves (fun _ state => TrailExact state.world) ?_ ?_
  · intro charges config now
    exact ⟨rfl, fun row member => nomatch member⟩
  · intro trace state event next run recorded step permitted
    exact recorded.trailStep run.numbered.known (run.trailStep step permitted)

/-- In every state that is reached, whatever is interleaved, fails or dies, the audit rows that
open are one for each refund, in the order of the refunds, and say what was requested; a refund
is settled exactly when one audit row says so, failed exactly when the last that decides it says
so with its reason, and undecided when none does. -/
theorem trail_exact {hmac : Hmac} {trace : List EngineEvent} {state : EngineState}
    (run : EngineRun hmac trace state) :
    openings state.world.database.transitions =
        state.world.rows.map (fun row => (row.id, row.opening)) ∧
      ∀ row ∈ state.world.rows,
        row.Decided (decisions state.world.database.transitions row.id) :=
  ⟨run.trailExact.openings, run.trailExact.decided⟩

/-- In the sample, where a response is dropped, the settled refund has been settled once. -/
theorem trail_exact_sample :
    openings sampleEnd.2.world.database.transitions =
        sampleEnd.2.world.rows.map (fun row => (row.id, row.opening)) ∧
      ∃ row ∈ sampleEnd.2.world.rows, row.amountCents = 150000 ∧
        decisions sampleEnd.2.world.database.transitions row.id = [(.settled, none)] := by
  rcases trail_exact sampleEnd_run with ⟨opens, decided⟩
  have settled : ∃ row ∈ sampleEnd.2.world.rows, row.amountCents = 150000 ∧
      row.status = .settled := by
    decide +kernel
  rcases settled with ⟨row, member, amount, status⟩
  have told := decided row member
  unfold Refund.Decided at told
  rw [status] at told
  exact ⟨opens, row, member, amount, told.1⟩

/-! ## Who wrote an audit row -/

/-- The call that wrote an audit row of a refund, as its columns name it. -/
inductive Authored (hmac : Hmac) (trace : List EngineEvent) (row : Refund) (audit : Transition) :
    Prop where
  | requester {call : CallId} {before : World}
      (committed : .answered call (.requestRefund audit.refundId row.chargeId row.amountCents
        row.currency audit.actor audit.reason) (.sql .commit) (.ok ()) before ∈ trace)
      (staged : audit ∈ before.staged call)
      (source : audit.fromStatus = none) (reached : audit.toStatus = initialStatus row.amountCents)
      (actor : audit.actor = row.requestedBy)
  | approver {call : CallId} {approver : String} {found before : World}
      (released : .answered call (.approve audit.refundId approver)
        (.sql (.updateRefunds (.markRequested audit.refundId))) (.ok ()) found ∈ trace)
      (recorded : .answered call (.approve audit.refundId approver)
        (.sql (.recordTransition audit.refundId audit.fromStatus audit.toStatus audit.actor))
        (.ok ()) before ∈ trace)
      (source : audit.fromStatus = some .pendingReview) (reached : audit.toStatus = .requested)
      (actor : audit.actor = "approver:" ++ approver) (other : approver ≠ row.requestedBy)
  | submitter {call : CallId} {before : World}
      (recorded : .answered call (.submitRefund audit.refundId)
        (.sql (.recordTransition audit.refundId audit.fromStatus audit.toStatus audit.actor))
        (.ok ()) before ∈ trace)
      (source : audit.fromStatus = some .requested) (reached : audit.toStatus = .submitted)
      (actor : audit.actor = "job:submit")
  | recoverer {call : CallId} {before : World}
      (recorded : .answered call .recoverSubmitted
        (.sql (.recordTransition audit.refundId audit.fromStatus audit.toStatus audit.actor))
        (.ok ()) before ∈ trace)
      (source : audit.fromStatus ≠ none ∧ audit.fromStatus ≠ some .pendingReview)
      (reached : audit.toStatus = .submitted)
      (actor : audit.actor = "job:recover" ∨ audit.actor = "job:recover-resubmit")
  | gateway {call : CallId} {webhook : WebhookEvent} {rawBody secret : Bytes} {sig : String}
      {before : World}
      (committed : .answered call (.handleWebhook webhook rawBody sig secret) (.sql .commit)
        (.ok ()) before ∈ trace)
      (staged : audit ∈ before.staged call)
      (verified : verifySignature hmac rawBody sig secret = true)
      (asks : webhook.Asks audit.toStatus)
      (reference : row.gatewayRef = some webhook.data.gatewayRef)
      (source : audit.fromStatus ≠ none) (actor : audit.actor = "webhook")

section Authored

variable {hmac : Hmac} {trace : List EngineEvent} {state next : EngineState}
variable {event : EngineEvent} {row : Refund} {audit : Transition}

theorem Authored.later {after : Refund} (authored : Authored hmac trace row audit)
    (advances : Advances row after) : Authored hmac (event :: trace) after audit := by
  cases authored with
  | requester committed staged source reached actor =>
      rw [← advances.chargeId, ← advances.amountCents, ← advances.currency] at committed
      exact .requester (List.mem_cons_of_mem _ committed) staged source
        (by rw [reached, advances.amountCents]) (by rw [actor, advances.requestedBy])
  | approver released recorded source reached actor other =>
      exact .approver (List.mem_cons_of_mem _ released) (List.mem_cons_of_mem _ recorded) source
        reached actor (by rwa [advances.requestedBy])
  | submitter recorded source reached actor =>
      exact .submitter (List.mem_cons_of_mem _ recorded) source reached actor
  | recoverer recorded source reached actor =>
      exact .recoverer (List.mem_cons_of_mem _ recorded) source reached actor
  | gateway committed staged verified asks reference source actor =>
      exact .gateway (List.mem_cons_of_mem _ committed) staged verified asks
        (advances.gatewayRef _ reference) source actor

/-- An audit row inserted outside of a transaction has an author. -/
private theorem EngineRun.authored_of_noted (run : EngineRun hmac trace state) {call : CallId}
    {operation : Operation} {refundId : Uuid} {fromStatus : Option Status} {toStatus : Status}
    {actor : String} {before : World}
    (step : (engine hmac).Step state (.answered call operation
      (.sql (.recordTransition refundId fromStatus toStatus actor)) (.ok ()) before) next)
    (notes : operation.Notes refundId fromStatus toStatus actor) {row : Refund}
    (member : row ∈ state.world.rows) (names : row.id = refundId) :
    Authored hmac (.answered call operation
        (.sql (.recordTransition refundId fromStatus toStatus actor)) (.ok ()) before :: trace)
      row (before.auditRow refundId fromStatus toStatus actor) := by
  have recording := (run.cons step trivial).recording (List.nil_append _).symm
  cases operation with
  | requestRefund | handleWebhook | reconcile => exact notes.elim
  | approve approved approver =>
      rcases notes with ⟨rfl, rfl, rfl, rfl⟩
      rcases recording with ⟨_, read, found, asked, same, _, _, _, _, other, behind⟩ | ⟨_, isTo, _⟩
      case inr => cases isTo
      cases same
      have inOwn : ∀ event ∈ own call trace, event ∈ trace :=
        fun event inside => (mem_own.mp inside).1
      rw [behind] at inOwn
      have answered : Answered call (.approve approved approver) (own call trace)
          (.sql (.getRefund approved)) (.ok (some read)) := by
        rw [behind]
        exact ⟨asked, List.mem_cons_of_mem _ (List.mem_cons_self ..)⟩
      rcases answered.getRefund run.recalled with ⟨isRead, row', inside, advances⟩
      have isRow : row' = row := state.world.database.refunds.eq_of_id inside member
        (advances.id.trans (isRead.trans names.symm))
      refine .approver (List.mem_cons_of_mem _ (inOwn _ (List.mem_cons_self ..)))
        (List.mem_cons_self ..) rfl rfl rfl ?_
      rw [← isRow, advances.requestedBy]
      exact other
  | submitRefund submitted =>
      rcases notes with ⟨rfl, rfl, rfl, rfl⟩
      exact .submitter (List.mem_cons_self ..) rfl rfl rfl
  | recoverSubmitted =>
      rcases notes with ⟨source, rfl, actor⟩
      rcases recording with ⟨_, _, _, _, same, _⟩ | ⟨unpending, _, _⟩
      case inl => cases same
      exact .recoverer (List.mem_cons_self ..) ⟨source, unpending⟩ rfl actor

private theorem EngineRun.authored_step (run : EngineRun hmac trace state)
    (step : (engine hmac).Step state event next) (permitted : NoCancel trace event)
    (authored : ∀ audit ∈ state.world.database.transitions, ∃ row ∈ state.world.rows,
      row.id = audit.refundId ∧ Authored hmac trace row audit) :
    ∀ audit ∈ next.world.database.transitions, ∃ row ∈ next.world.rows,
      row.id = audit.refundId ∧ Authored hmac (event :: trace) row audit := by
  have later := run.later (.cons .nil step permitted.anywhere)
  have kept : ∀ audit ∈ state.world.database.transitions, ∃ row ∈ next.world.rows,
      row.id = audit.refundId ∧ Authored hmac (event :: trace) row audit := by
    intro audit member
    rcases authored audit member with ⟨row, inside, names, isAuthored⟩
    rcases later.forward row inside with ⟨row', inside', advances⟩
    exact ⟨row', inside', advances.id.trans names, isAuthored.later advances⟩
  have known := (run.cons step permitted).numbered.known
  intro audit member
  cases run.trailStep step permitted with
  | still rows audits | updated updates rows audits =>
      rw [audits] at member
      exact kept audit member
  | noted rows audits notes =>
      have named := known audit member
      rw [audits] at member
      rcases List.mem_append.mp member with before | last
      · exact kept audit before
      · cases List.mem_singleton.mp last
        rcases List.mem_map.mp named with ⟨row, inside, names⟩
        refine ⟨row, inside, names, run.authored_of_noted step notes ?_ names⟩
        rwa [← rows]
  | @opened call row _ _ new unused unfailed rows audits names line =>
      rw [audits] at member
      rcases List.mem_append.mp member with before | last
      · exact kept audit before
      · cases List.mem_singleton.mp last
        have actor : audit.actor = row.requestedBy := congrArg AuditLine.actor line
        have reason : audit.reason = row.reasonCode := congrArg AuditLine.reason line
        have committed : .answered call (.requestRefund audit.refundId row.chargeId
            row.amountCents row.currency audit.actor audit.reason) (.sql .commit) (.ok ())
            state.world ∈ .answered call (.requestRefund row.id row.chargeId row.amountCents
              row.currency row.requestedBy row.reasonCode) (.sql .commit) (.ok ())
              state.world :: trace := by
          rw [names, actor, reason]
          exact List.mem_cons_self ..
        have staged : state.world.staged call = [audit] :=
          List.append_cancel_left ((transitions_of_step step).symm.trans audits)
        refine ⟨row, ?_, names.symm, .requester committed (staged ▸ List.mem_cons_self ..)
          (congrArg AuditLine.fromStatus line) (congrArg AuditLine.toStatus line) actor⟩
        rw [rows]
        exact List.mem_append_right _ (List.mem_singleton.mpr rfl)
  | @decided call webhook rawBody secret sig update reason gatewayRef status row writtenAt _ _
      verified asks decides inside applies rows audits names source reached actor _ =>
      rw [audits] at member
      rcases List.mem_append.mp member with before | last
      · exact kept audit before
      · cases List.mem_singleton.mp last
        rcases webhook.asks_of_decision asks decides with ⟨rfl, isAsked⟩
        have staged : state.world.staged call = [audit] :=
          List.append_cancel_left ((transitions_of_step step).symm.trans audits)
        rcases later.forward row inside with ⟨row', inside', advances⟩
        refine ⟨row', inside', advances.id.trans names.symm, .gateway (List.mem_cons_self ..)
          (staged ▸ List.mem_cons_self ..) verified (reached ▸ isAsked)
          (advances.gatewayRef _ ?_) source actor⟩
        exact RefundUpdate.gatewayRef_of_decision decides applies

/-- Every audit row has an author. -/
theorem EngineRun.authored (run : EngineRun hmac trace state) :
    ∀ audit ∈ state.world.database.transitions, ∃ row ∈ state.world.rows,
      row.id = audit.refundId ∧ Authored hmac trace row audit := by
  refine run.preserves (fun trace state => ∀ audit ∈ state.world.database.transitions,
    ∃ row ∈ state.world.rows, row.id = audit.refundId ∧ Authored hmac trace row audit) ?_ ?_
  · intro charges config now audit member
    cases member
  · intro trace state event next run authored step permitted
    exact run.authored_step step permitted authored

/-- A decided refund has the audit row of its decision. -/
theorem EngineRun.audit_of_decided (run : EngineRun hmac trace state) {row : Refund}
    (member : row ∈ state.world.rows) (decided : row.status = .settled ∨ row.status = .failed) :
    ∃ audit ∈ state.world.database.transitions,
      audit.refundId = row.id ∧ audit.toStatus = row.status := by
  have told := run.trailExact.decided row member
  have listed : ∃ reason,
      (row.status, reason) ∈ decisions state.world.database.transitions row.id := by
    unfold Refund.Decided at told
    rcases decided with status | status
    all_goals rw [status] at told ⊢
    · rw [told.1]
      exact ⟨none, List.mem_singleton.mpr rfl⟩
    · rcases told with ⟨earlier, told, _⟩
      rw [told]
      exact ⟨row.failureReason, List.mem_append_right _ (List.mem_singleton.mpr rfl)⟩
  rcases listed with ⟨reason, listed⟩
  rcases List.mem_map.mp listed with ⟨audit, inside, same⟩
  rcases List.mem_filter.mp inside with ⟨inTable, decides⟩
  exact ⟨audit, inTable, (of_decide_eq_true decides).1, congrArg Prod.fst same⟩

end Authored

/-- In every state that is reached, whatever is interleaved, fails or dies, every audit row
belongs to a refund and was written by the call its columns name: the opening row by the request
for that refund, a release by an approval of someone else's request after its guarded update, a
submission by a submission or a recovery, and a decision by a verified delivery that asks for it
under the reference of the refund. -/
theorem audit_authored {hmac : Hmac} {trace : List EngineEvent} {state : EngineState}
    (run : EngineRun hmac trace state) {audit : Transition}
    (member : audit ∈ state.world.database.transitions) :
    ∃ row ∈ state.world.rows, row.id = audit.refundId ∧ Authored hmac trace row audit :=
  run.authored audit member

/-- The release of the large refund of the sample names an approver other than its requester. -/
theorem audit_authored_sample : ∃ row ∈ sampleEnd.2.world.rows, row.amountCents = 150000 ∧
    ∃ audit ∈ sampleEnd.2.world.database.transitions, audit.refundId = row.id ∧
      audit.actor = "approver:bob" ∧ Authored sampleHmac sampleEnd.1 row audit := by
  have found : ∃ audit ∈ sampleEnd.2.world.database.transitions, audit.actor = "approver:bob" ∧
      ∀ row ∈ sampleEnd.2.world.rows, row.id = audit.refundId → row.amountCents = 150000 := by
    decide +kernel
  rcases found with ⟨audit, inside, actor, large⟩
  rcases audit_authored sampleEnd_run inside with ⟨row, member, names, authored⟩
  exact ⟨row, member, large row member names, audit, inside, names.symm, actor, authored⟩

end RefundEngine
