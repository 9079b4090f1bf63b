import RefundEngine.Interleaving.Linearization
import RefundEngine.RequestDecision

/-!
# Requests are linearizable

Requests that run at the same time, with webhooks that change refunds between their statements,
do what they would do one after the other.  A webhook that frees capacity takes no lock, so the
order is that of the statements at which requests are decided, and of the commits of webhooks.
The one exception is a webhook that waits for another: once it goes on it may still see audit
rows from before the wait, and then its own row leads on from a status that is no longer the last.
-/

namespace RefundEngine

open Interleaving (CallId Explains Follows Machine Precedes mem_own mem_points own points)

/-- What the intake of refunds consists of. -/
def Operation.Intake : Operation → Prop
  | .requestRefund _ _ _ _ _ _ | .handleWebhook _ _ _ _ => True
  | _ => False

instance (operation : Operation) : Decidable operation.Intake :=
  match operation with
  | .requestRefund .. | .handleWebhook .. => isTrue trivial
  | .approve .. | .submitRefund .. | .recoverSubmitted | .reconcile .. => isFalse id

/-- Only requests and webhooks start, and none of their statements fails, but they may die.
Meanwhile the gateway may be reconfigured, and time passes. -/
def Intake (_ : List EngineEvent) : EngineEvent → Prop
  | .started _ operation => operation.Intake
  | .failed _ _ _ => False
  | .acted (.createCharge _) _ | .acted (.cancel _) _ => False
  | _ => True

instance (trace : List EngineEvent) (event : EngineEvent) : Decidable (Intake trace event) :=
  match event with
  | .started _ operation => inferInstanceAs (Decidable operation.Intake)
  | .failed .. | .acted (.createCharge _) _ | .acted (.cancel _) _ => isFalse id
  | .answered .. | .finished .. | .died .. | .acted (.setConfig _) _ | .acted (.setClock _) _
  | .acted (.suspend _ _) _ => isTrue trivial

/-- The statement that applies an event has not missed the newest audit row of a refund it moves
while it waited. -/
def Informed : EngineEvent → Prop
  | .answered call _ (.sql (.applyMoved update _)) _ before =>
      ∀ row ∈ before.rows, update.Applies row → before.Sees call update row.id
  | _ => True

/-- An intake in which no webhook misses an audit row. -/
def InformedIntake (trace : List EngineEvent) (event : EngineEvent) : Prop :=
  Intake trace event ∧ Informed event

instance : DecidablePred Informed
  | .answered _ _ (.sql (.applyMoved _ _)) _ _ => inferInstanceAs (Decidable (∀ row ∈ _, _ → _))
  | .answered _ _ (.sql (.getRefund _)) _ _ | .answered _ _ (.sql (.updateRefunds _)) _ _
  | .answered _ _ (.sql .selectStuck) _ _ | .answered _ _ (.sql (.selectAmount _)) _ _
  | .answered _ _ (.sql (.insertWebhookEvent _)) _ _ | .answered _ _ (.sql .selectSettled) _ _
  | .answered _ _ (.sql .begin) _ _ | .answered _ _ (.sql (.lockCharge _)) _ _
  | .answered _ _ (.sql (.sumRefunds _)) _ _ | .answered _ _ (.sql (.insertRefund _)) _ _
  | .answered _ _ (.sql (.insertTransition _ _ _ _)) _ _ | .answered _ _ (.sql .commit) _ _
  | .answered _ _ (.sql (.recordTransition _ _ _ _)) _ _ | .answered _ _ (.sql .rollback) _ _
  | .answered _ _ (.createRefund _ _ _) _ _ | .answered _ _ (.lookupByKey _) _ _ => isTrue trivial
  | .started .. | .failed .. | .finished .. | .died .. | .acted .. => isTrue trivial

instance (trace : List EngineEvent) (event : EngineEvent) :
    Decidable (InformedIntake trace event) :=
  inferInstanceAs (Decidable (_ ∧ _))

theorem intake_of_informed {hmac : Hmac} {more : List EngineEvent} {state final : EngineState}
    (continued : (engine hmac).Run InformedIntake state more final) :
    (engine hmac).Run Intake state more final :=
  continued.mono fun _ _ => And.left

/-- An entry of the serial history: a request with what it returns, or a webhook that changes
refunds, each with the time at which its transaction began. -/
inductive Entry where
  | request (call : CallId) (request : RefundRequest) (began : Timestamp)
      (result : Except RefundError Reply)
  | webhook (call : CallId) (event : WebhookEvent) (began : Timestamp)

namespace Entry

def call : Entry → CallId
  | .request call _ _ _ => call
  | .webhook call _ _ => call

/-- The entry taken at once. -/
def Takes : Entry → Ledger → Ledger → Prop
  | .request _ asked began result, before, after => before.request asked began = (result, after)
  | .webhook _ event began, before, after => after = before.webhook event began

end Entry

/-- The transaction of a call has written to `refunds`. -/
def World.writes (world : World) (call : CallId) : Bool :=
  match world.transaction call with
  | some transaction => !transaction.refundWrites.isEmpty
  | none => false

/-- The entry of a request that is decided at a statement. -/
def RefundRequest.point (request : RefundRequest) (call : CallId) (statement : Statement)
    (before : World) : Option Entry :=
  if statement.decides (request.atOnce call before).1 then
    some (.request call request (before.began call) (request.atOnce call before).1)
  else none

/-- Where an entry is taken: a request where it is decided, a webhook where it commits a
change. -/
def point : EngineEvent → Option Entry
  | .answered call (.requestRefund refundId chargeId amountCents currency actor reasonCode)
      (.sql statement) _ before =>
      RefundRequest.point { refundId, chargeId, amountCents, currency, actor, reasonCode } call
        statement before
  | .answered call (.handleWebhook event _ _ _) (.sql .commit) (.ok _) before =>
      if before.writes call then some (.webhook call event (before.began call)) else none
  | _ => none

/-- The entry is of a call that has returned its result, or committed. -/
def Entry.Witnessed (trace : List EngineEvent) : Entry → Prop
  | .request call asked _ result =>
      .finished call asked.operation result ∈ trace ∨
        result = .ok (.refundId asked.refundId) ∧ ∃ before,
          .answered call asked.operation (.sql .commit) (.ok ()) before ∈ trace
  | .webhook call event began =>
      ∃ rawBody sig secret before,
        .answered call (.handleWebhook event rawBody sig secret) (.sql .commit) (.ok ()) before ∈
          trace ∧ before.writes call ∧ began = before.began call

section Points

variable {call : CallId} {request : RefundRequest} {event : EngineEvent}

theorem point_request {statement : Statement} {answer : Except DbError statement.Value}
    {before : World} :
    point (.answered call request.operation (.sql statement) answer before) =
      request.point call statement before := rfl

theorem point_webhook {delivered : WebhookEvent} {rawBody : Bytes} {sig : String} {secret : Bytes}
    {value : Unit} {before : World} :
    point (.answered call (.handleWebhook delivered rawBody sig secret) (.sql .commit) (.ok value)
        before) =
      if before.writes call then some (.webhook call delivered (before.began call))
      else none := rfl

theorem RefundRequest.point_eq_some {statement : Statement} {before : World} {entry : Entry}
    (taken : request.point call statement before = some entry) :
    statement.decides (request.atOnce call before).1 = true ∧
      entry = .request call request (before.began call) (request.atOnce call before).1 := by
  unfold RefundRequest.point at taken
  split at taken
  · rename_i decided
    cases taken
    exact ⟨decided, rfl⟩
  · cases taken

theorem point_eq_some {entry : Entry} (taken : point event = some entry) :
    (∃ call request statement answer before,
      event = .answered call (RefundRequest.operation request) (.sql statement) answer before ∧
      statement.decides (request.atOnce call before).1 = true ∧
      entry = .request call request (before.began call) (request.atOnce call before).1) ∨
    ∃ call delivered rawBody sig secret before,
      event = .answered call (.handleWebhook delivered rawBody sig secret) (.sql .commit) (.ok ())
        before ∧ before.writes call = true ∧
      entry = .webhook call delivered (before.began call) := by
  unfold point at taken
  split at taken
  · rcases RefundRequest.point_eq_some taken with ⟨decided, isEntry⟩
    exact .inl ⟨_, _, _, _, _, rfl, decided, isEntry⟩
  · split at taken
    · rename_i written
      cases taken
      exact .inr ⟨_, _, _, _, _, _, rfl, written, rfl⟩
    · cases taken
  · cases taken

theorem caller_of_point {entry : Entry} (taken : point event = some entry) :
    event.caller = some entry.call := by
  rcases point_eq_some taken with ⟨_, _, _, _, _, rfl, _, rfl⟩ | ⟨_, _, _, _, _, _, rfl, _, rfl⟩
  · rfl
  · rfl

end Points

/-! ## A request is decided once -/

section Once

variable {hmac : Hmac} {trace : List EngineEvent} {state : EngineState} {call : CallId}
variable {request : RefundRequest} {reading : Reading}

theorem point_eq_none {statement : Statement} {answer : Except DbError statement.Value}
    {before : World} (undecided : statement.decides (request.atOnce call before).1 = false) :
    point (.answered call request.operation (.sql statement) answer before) = none := by
  rw [point_request, RefundRequest.point, undecided]
  rfl

theorem EngineRun.undecided_locked (run : EngineRun hmac trace state) {began locked : World}
    {found : Int64 × String}
    (behind : own call trace =
      [.answered call request.operation (.sql (.lockCharge request.chargeId)) (.ok (some found))
          locked,
        .answered call request.operation (.sql .begin) (.ok ()) began,
        .started call request.operation]) :
    ∀ other ∈ own call trace, point other = none := by
  rcases run.reached_of_own behind with ⟨_, _, _, reached, begun, rfl, executed⟩
  intro other member
  rw [behind] at member
  rcases List.mem_cons.mp member with rfl | older
  · rcases reached.lock_decides begun executed with ⟨answer, _⟩ | ⟨_, undecided⟩
    · cases answer
    · exact point_eq_none undecided
  · rcases List.mem_cons.mp older with rfl | oldest
    · exact point_eq_none rfl
    · rw [List.mem_singleton.mp oldest]
      rfl

theorem EngineRun.undecided_reading (run : EngineRun hmac trace state)
    (behind : own call trace = reading.events call request) (admits : reading.Admits request) :
    ∀ other ∈ own call trace, point other = none := by
  rcases reading with ⟨captured, currency, total, began, lockedIn, summed⟩
  rcases run.reached_of_own behind with ⟨_, _, _, reached, locked, rfl, executed⟩
  intro other member
  rw [behind] at member
  rcases List.mem_cons.mp member with rfl | older
  · rcases reached.sum_decides locked executed with ⟨total, answer, _, _, undecided⟩
    cases answer
    exact point_eq_none (undecided admits.currency admits.room)
  · rw [← locked] at older
    exact reached.undecided_locked locked other older

theorem EngineRun.undecided_inserted (run : EngineRun hmac trace state) {inserting : World}
    (behind : own call trace = reading.inserted call request inserting)
    (admits : reading.Admits request) : ∀ other ∈ own call trace, point other = none := by
  rcases run.reached_of_own behind with ⟨_, _, _, reached, read, rfl, executed⟩
  intro other member
  rw [behind] at member
  rcases List.mem_cons.mp member with rfl | older
  · rcases reached.insert_decides read admits executed with ⟨_, undecided⟩ | ⟨_, answer, _⟩
    · exact point_eq_none undecided
    · cases answer
  · rw [← read] at older
    exact reached.undecided_reading read admits other older

theorem EngineRun.undecided_recorded (run : EngineRun hmac trace state)
    {inserting recording : World}
    (behind : own call trace = reading.recorded call request inserting recording)
    (admits : reading.Admits request) : ∀ other ∈ own call trace, point other = none := by
  rcases run.reached_of_own behind with ⟨_, _, _, reached, inserted, rfl, _⟩
  intro other member
  rw [behind] at member
  rcases List.mem_cons.mp member with rfl | older
  · exact point_eq_none rfl
  · rw [← inserted] at older
    exact reached.undecided_inserted inserted admits other older

/-- A statement that decides a request is the first to do so. -/
theorem EngineRun.undecided (run : EngineRun hmac trace state) {statement : Statement}
    (next : RequestStep call request (own call trace) statement)
    (decided : statement.decides (request.atOnce call state.world).1 = true) :
    ∀ other ∈ own call trace, point other = none := by
  generalize behind : own call trace = events at next
  rw [← behind]
  cases next with
  | begin | rollback | insertTransition => cases decided
  | lockCharge =>
      intro other member
      rw [behind] at member
      rcases List.mem_cons.mp member with rfl | older
      · exact point_eq_none rfl
      · rw [List.mem_singleton.mp older]
        rfl
  | sumRefunds => exact run.undecided_locked behind
  | insertRefund admits => exact run.undecided_reading behind admits
  | commit admits => exact run.undecided_recorded behind admits

theorem exists_point {statement : Statement} {answer : Except DbError statement.Value}
    {before : World} {result : Except RefundError Reply} {events : List EngineEvent}
    (gets : (request.atOnce call before).1 = result) (decides : statement.decides result = true)
    (member : .answered call request.operation (.sql statement) answer before ∈ events) :
    ∃ event ∈ events, ∃ began, point event = some (.request call request began result) := by
  refine ⟨_, member, before.began call, ?_⟩
  rw [point_request, RefundRequest.point, gets, if_pos decides]

/-- A request that returns has been decided, as it returns. -/
theorem EngineRun.decided (run : EngineRun hmac trace state)
    {result : Except RefundError Reply}
    (outcome : RequestOutcome call request result (own call trace))
    (unfailed : ∀ command, .failed call request.operation command ∉ own call trace) :
    ∃ event ∈ own call trace, ∃ began,
      point event = some (.request call request began result) := by
  generalize behind : own call trace = events at outcome
  rw [behind] at unfailed
  cases outcome with
  | accepted admits =>
      rcases run.reached_of_own behind with ⟨_, _, _, reached, recorded, rfl, executed⟩
      have accepted := congrArg Prod.fst (reached.commit_decides recorded admits executed)
      exact exists_point accepted rfl (List.mem_cons_self ..)
  | missing =>
      rcases run.reached_of_own behind with ⟨_, _, _, reached, begun, rfl, executed⟩
      rcases reached.lock_decides begun executed with ⟨_, missing⟩ | ⟨⟨_, answer⟩, _⟩
      · exact exists_point missing rfl (List.mem_cons_self ..)
      · cases answer
  | @mismatched reading differs =>
      rcases reading with ⟨captured, currency, total, began, lockedIn, summed⟩
      rcases run.reached_of_own behind with ⟨_, _, _, reached, locked, rfl, executed⟩
      rcases reached.sum_decides locked executed with ⟨_, _, mismatched, _⟩
      exact exists_point (mismatched differs) rfl (List.mem_cons_self ..)
  | @exceeded reading rolledBack agrees exceeds =>
      rcases reading with ⟨captured, currency, total, began, lockedIn, summed⟩
      rcases run.reached_of_own behind with ⟨_, _, _, earlier, read, _, _⟩
      rcases earlier.reached_of_own read with ⟨_, _, _, reached, locked, rfl, executed⟩
      rcases reached.sum_decides locked executed with ⟨_, answer, _, exceeded, _⟩
      cases answer
      exact exists_point (exceeded agrees exceeds) rfl
        (List.mem_cons_of_mem _ (List.mem_cons_self ..))
  | refused step =>
      rcases run.reached_of_own behind with ⟨_, _, _, reached, earlier, rfl, executed⟩
      rw [← earlier] at step
      rcases reached.request_refused step executed with ⟨decides, refused⟩
      rw [refused] at decides
      exact exists_point refused decides (List.mem_cons_self ..)
  | lost => exact (unfailed _ (List.mem_cons_self ..)).elim

end Once

section Webhook

variable {hmac : Hmac} {trace : List EngineEvent} {state next : EngineState} {call : CallId}
variable {delivered : WebhookEvent} {rawBody : Bytes} {sig : String} {secret : Bytes}

theorem EngineRun.webhookStatement (run : EngineRun hmac trace state) {command : Command}
    {answer : command.Answer} {before : World}
    (member : .answered call (.handleWebhook delivered rawBody sig secret) command answer before ∈
      trace) : ∃ statement, command = .sql statement ∧ WebhookStatement statement := by
  rcases run with ⟨_, _, _, run⟩
  rcases List.append_of_mem member with ⟨newer, earlier, split⟩
  have respected := (intakeContract_upheld hmac).respected (fun _ => rfl) run
  rw [split] at respected
  exact respected.permits_of_append.2 _ _ _ _ rfl

/-- A webhook that commits a change has applied its event, in a transaction begun for it. -/
theorem EngineRun.delivery (run : EngineRun hmac trace state) {answer : Except DbError Unit}
    (step : (engine hmac).Step state
      (.answered call (.handleWebhook delivered rawBody sig secret) (.sql .commit) answer
        state.world) next)
    (writes : state.world.writes call = true) :
    ∃ update reason applied began seen deduped,
      delivered.update = some (update, reason) ∧
      own call trace =
        [.answered call (.handleWebhook delivered rawBody sig secret)
            (.sql (.applyMoved update reason)) (.ok ()) applied,
          .answered call (.handleWebhook delivered rawBody sig secret) (.sql .begin) (.ok ()) began,
          .answered call (.handleWebhook delivered rawBody sig secret)
            (.sql (.insertWebhookEvent delivered.id)) (.ok (some seen)) deduped,
          .started call (.handleWebhook delivered rawBody sig secret)] := by
  have linked := run.recalled.linked call
  rcases run.permits step with ⟨⟨_, _, latest⟩, _⟩ | ⟨update, reason, applied, rest, latest⟩ |
    ⟨_, _, _, _, _, _, _, _, _, latest⟩
  · rw [latest] at linked
    rw [World.writes, transaction_of_began linked] at writes
    cases writes
  · rcases List.filter_eq_cons_iff.mp latest with ⟨newer, earlier, split, _, _, same⟩
    rcases run.licensed split with
      ⟨_, _, _, _, seen, deduped, began, same', _, updates, behind⟩
    cases same'
    refine ⟨update, reason, applied, began, seen, deduped, updates, ?_⟩
    rw [latest, ← same, ← own, behind]
  · exfalso
    have member : _ ∈ own call trace := latest ▸ List.mem_cons_self ..
    rcases run.webhookStatement (mem_own.mp member).1 with ⟨_, same, runs⟩
    cases same
    exact runs

/-- The commit of a webhook changes the ledger as the webhook would. -/
theorem EngineRun.webhook_step (run : EngineRun hmac trace state)
    (numbered : Numbered True state.world)
    (step : (engine hmac).Step state
      (.answered call (.handleWebhook delivered rawBody sig secret) (.sql .commit) (.ok ())
        state.world) next) :
    Ledger.of next.world =
      if state.world.writes call then
        (Ledger.of state.world).webhook delivered (state.world.began call)
      else Ledger.of state.world := by
  have delivery := run.delivery step
  cases step with
  | answer running executed =>
      have executed : state.world.execute call .commit = some (.ok (), _) := executed
      rcases commit_ok executed with ⟨transaction, refunds, opened, written, tables⟩
      have began : state.world.began call = transaction.began := by
        rw [World.began, opened]
      split
      · rename_i writes
        rcases delivery writes with ⟨update, reason, applied, begun, _, _, updates, behind⟩
        have linked := run.recalled.linked call
        rw [behind] at linked
        rcases transaction_of_delivery linked with ⟨audits, opened', ids, lines⟩
        have applies := run.invariant.founded _ _ _ _ _
          (mem_own.mp (behind ▸ List.mem_cons_self ..)).1
        rcases Option.ne_none_iff_exists'.mp applies.1 with ⟨⟨gatewayRef, status⟩, decides⟩
        rcases applied.database.refunds.filter_of_decision decides with none | ⟨row, _, _, only⟩
        · rw [World.writes, opened', World.rows, none] at writes
          cases writes
        · rw [World.rows, only] at opened' ids
          rcases List.map_eq_singleton_iff.mp ids with ⟨audit, rfl, _⟩
          rcases lines audit (List.mem_cons_self ..) with ⟨actor, reason'⟩
          cases opened.symm.trans opened'
          rw [began]
          exact Ledger.of_commit_webhook run.worldOk numbered opened updates rfl rfl actor reason'
            executed
      · rename_i unwritten
        have empty : transaction.refundWrites = [] := by
          simpa [World.writes, opened] using unwritten
        have unstaged := numbered.unstaged opened empty
        rw [empty] at written
        cases written
        apply Ledger.of_congr
        · rw [tables]
        · rw [tables]
          rfl
        · rw [tables, unstaged, List.append_nil]

end Webhook

section Follows

variable {hmac : Hmac} {trace : List EngineEvent} {state next : EngineState}
variable {event : EngineEvent}

theorem Intake.noCancel {other : List EngineEvent} (permitted : Intake trace event) :
    NoCancel other event := by
  cases event with
  | acted action =>
      cases action with
      | cancel => exact permitted.elim
      | _ => trivial
  | _ => trivial

theorem EngineRun.intake (run : EngineRun hmac trace state)
    (step : (engine hmac).Step state event next) : (intakeContract hmac).Permits trace event := by
  rcases run with ⟨_, _, _, run⟩
  exact (intakeContract_upheld hmac).permits (fun _ => rfl) run step

/-- The ledger changes at points only, and there as the entry says. -/
theorem EngineRun.follows (run : EngineRun hmac trace state)
    (numbered : Numbered True state.world)
    (taken : ∀ call operation rest, state.calls call = .running operation rest → operation.Intake)
    (step : (engine hmac).Step state event next) (permitted : Intake trace event) :
    Follows Entry.Takes (Ledger.of state.world) (Ledger.of next.world) (point event) := by
  have permits := run.intake step
  cases step with
  | start | finish | die => rfl
  | fail => exact permitted.elim
  | @act action world acted =>
      cases action with
      | setConfig | setClock =>
          cases acted
          rfl
      | createCharge | cancel => exact permitted.elim
      | suspend =>
          rcases Environment.of_suspend acted with ⟨_, _, _, rfl⟩
          rfl
  | @answer call operation command next' answer world running executed =>
      have isIntake := taken call operation _ running
      have step := Machine.Step.answer running executed
      cases operation with
      | approve | submitRefund | recoverSubmitted | reconcile => exact isIntake.elim
      | requestRefund refundId chargeId amountCents currency actor reasonCode =>
          let request : RefundRequest :=
            ⟨refundId, chargeId, amountCents, currency, actor, reasonCode⟩
          rcases permits.1 request rfl with ⟨statement, rfl, requests⟩
          have effect := run.request_step requests executed
          show Follows _ _ _ (request.point call statement state.world)
          unfold RefundRequest.point
          split
          · rename_i decided
            rw [if_pos decided] at effect
            exact Prod.ext rfl effect.symm
          · rename_i undecided
            rw [if_neg undecided] at effect
            exact effect
      | handleWebhook delivered rawBody sig secret =>
          rcases permits.2 delivered rawBody sig secret rfl with ⟨statement, rfl, runs⟩
          have executed : state.world.execute call statement = some (answer, world) := executed
          by_cases commits : statement = .commit
          · subst commits
            cases answer with
            | error error => exact Ledger.of_uncommitted executed
            | ok value =>
                have effect := run.webhook_step numbered step
                rw [point_webhook]
                split
                · rename_i writes
                  rw [if_pos writes] at effect
                  exact effect
                · rename_i unwritten
                  rw [if_neg unwritten] at effect
                  exact effect
          · have silent : point (.answered call (.handleWebhook delivered rawBody sig secret)
                (.sql statement) answer state.world) = none := by
              cases statement with
              | commit => exact (commits rfl).elim
              | _ => rfl
            have plain : Plain statement := by
              cases statement with
              | updateRefunds | recordTransition => exact runs.elim
              | _ => trivial
            rw [silent]
            exact Ledger.of_plain .recoverSubmitted plain commits executed

end Follows

/-! ## The intake as a whole -/

section Intake

variable {hmac : Hmac} {earlier more : List EngineEvent} {state final : EngineState}

theorem EngineRun.whole (run : EngineRun hmac earlier state)
    (continued : (engine hmac).Run Intake state more final) :
    EngineRun hmac (more ++ earlier) final :=
  run.append (continued.mono fun _ _ permitted => permitted.noCancel)

theorem started_of_running (quiet : state.Quiet)
    (continued : (engine hmac).Run Intake state more final) {call : CallId}
    {operation : Operation} {rest : Interleaving.Program Command.Answer (Except RefundError Reply)}
    (running : final.calls call = .running operation rest) :
    .started call operation ∈ more ∧ operation.Intake := by
  rcases continued.origin_of_running running with ⟨_, started⟩ | ⟨rest, before⟩
  · rcases continued.exists_step_of_mem started with ⟨_, _, _, _, _, permitted⟩
    exact ⟨started, permitted⟩
  · exfalso
    apply quiet call
    rw [before]
    trivial

/-- No audit row is written from outside during the intake. -/
theorem EngineRun.watched (run : EngineRun hmac earlier state) (quiet : state.Quiet)
    (continued : (engine hmac).Run InformedIntake state more final) :
    Numbered True final.world := by
  induction continued with
  | nil => exact run.numbered.watch (run.unlocked quiet)
  | @cons more state' next event continued step permitted ih =>
      rcases permitted with ⟨permitted, informed⟩
      have continued := intake_of_informed continued
      have whole := run.whole continued
      apply whole.numbered_of_step ih step permitted.noCancel
      · intro _ refundId fromStatus toStatus actor records
        exfalso
        have permits := whole.intake step
        cases step with
        | start | finish | die | act => cases records
        | fail => exact permitted
        | @answer call operation command next' answer world running executed =>
            cases records
            have isIntake := (started_of_running quiet continued running).2
            cases operation with
            | approve | submitRefund | recoverSubmitted | reconcile => exact isIntake
            | requestRefund refundId chargeId amountCents currency actor reasonCode =>
                rcases permits.1 ⟨refundId, chargeId, amountCents, currency, actor, reasonCode⟩ rfl
                  with ⟨_, same, requests⟩
                cases same
                generalize own call (more ++ earlier) = events at requests
                cases requests
            | handleWebhook delivered rawBody sig secret =>
                rcases permits.2 delivered rawBody sig secret rfl with ⟨_, same, runs⟩
                cases same
                exact runs
      · rintro _ call operation update reason answer rfl
        exact informed

theorem EngineRun.explained (run : EngineRun hmac earlier state) (quiet : state.Quiet)
    (continued : (engine hmac).Run InformedIntake state more final) :
    Explains Entry.Takes (Ledger.of state.world) (points point more) (Ledger.of final.world) := by
  apply continued.explained
  intro trace before after event reached step permitted
  have intake := intake_of_informed reached
  apply (run.whole intake).follows (run.watched quiet reached) _ step permitted.1
  intro call operation rest running
  exact (started_of_running quiet intake running).2

/-- Every call is decided, or commits a change, once. -/
theorem EngineRun.taken_once (run : EngineRun hmac earlier state)
    (continued : (engine hmac).Run Intake state more final) :
    ((points point more).map Entry.call).Nodup := by
  apply Interleaving.points_nodup
  · intro event entry taken
    exact caller_of_point taken
  · intro newer event older entry split taken other member
    rcases continued.step_of_split split with ⟨before, after, reached, step, _⟩
    have whole := run.whole reached
    have permits := whole.intake step
    have inWhole : other ∈ own entry.call (older ++ earlier) := by
      rw [mem_own] at member ⊢
      exact ⟨List.mem_append_left _ member.1, member.2⟩
    rcases point_eq_some taken with ⟨call, request, statement, answer, world, rfl, decides, rfl⟩ |
      ⟨call, delivered, rawBody, sig, secret, world, rfl, writes, rfl⟩
    · rcases permits.1 request rfl with ⟨_, same, requests⟩
      cases same
      cases step with
      | answer => exact whole.undecided requests decides other inWhole
    · cases step with
      | answer running executed =>
          have step := Machine.Step.answer running executed
          rcases whole.delivery step writes with ⟨_, _, _, _, _, _, _, behind⟩
          simp only [Entry.call, behind, List.mem_cons, List.not_mem_nil, or_false] at inWhole
          rcases inWhole with rfl | rfl | rfl | rfl
          all_goals rfl

theorem EngineRun.point_of_finished (run : EngineRun hmac earlier state) (quiet : state.Quiet)
    (continued : (engine hmac).Run Intake state more final) {call : CallId}
    {request : RefundRequest} {result : Except RefundError Reply}
    (finished : .finished call request.operation result ∈ more) :
    ∃ began, .request call request began result ∈ points point more := by
  rcases List.append_of_mem finished with ⟨newer, older, split⟩
  rcases continued.step_of_split split with ⟨before, after, reached, step, _⟩
  have whole := run.whole reached
  have outcome := whole.intake step request rfl
  cases step with
  | finish running =>
      have started := (started_of_running quiet reached running).1
      have inOlder := run.own_of_started reached started
      have unfailed : ∀ command,
          .failed call request.operation command ∉ own call (older ++ earlier) := by
        intro command failed
        rw [inOlder, mem_own] at failed
        rcases reached.exists_step_of_mem failed.1 with ⟨_, _, _, _, _, permitted⟩
        exact permitted
      rcases whole.decided outcome unfailed with ⟨event, member, began, taken⟩
      rw [inOlder, mem_own] at member
      refine ⟨began, mem_points.mpr ⟨event, ?_, taken⟩⟩
      rw [split]
      exact List.mem_append_right _ (List.mem_cons_of_mem _ member.1)

/-- An entry is of a call that has returned or committed, or it refuses a request. -/
theorem EngineRun.witnessed_or_refused (run : EngineRun hmac earlier state)
    (continued : (engine hmac).Run Intake state more final) {entry : Entry}
    (member : entry ∈ points point more) :
    entry.Witnessed more ∨
      ∃ call request began error, entry = .request call request began (.error error) := by
  rcases mem_points.mp member with ⟨event, inside, taken⟩
  rcases point_eq_some taken with ⟨call, request, statement, answer, world, rfl, decides, rfl⟩ |
    ⟨call, delivered, rawBody, sig, secret, world, rfl, writes, rfl⟩
  · cases gets : (request.atOnce call world).1 with
    | error error => exact .inr ⟨call, request, _, error, rfl⟩
    | ok reply =>
        left
        by_cases commits : statement = .commit
        · subst commits
          rcases continued.exists_step_of_mem inside with ⟨older, _, _, reached, step, _⟩
          have whole := run.whole reached
          rcases (whole.intake step).1 request rfl with ⟨_, same, requests⟩
          cases same
          generalize behind : own call (older ++ earlier) = events at requests
          cases requests with
          | commit admits =>
              cases step with
              | answer running executed =>
                  have accepted := congrArg Prod.fst (whole.commit_decides behind admits executed)
                  rw [gets] at accepted
                  cases answer with
                  | error => cases accepted
                  | ok value => exact .inr ⟨accepted, _, inside⟩
        · rw [gets] at decides
          rcases Statement.error_of_decides decides commits with ⟨_, refused⟩
          cases refused
  · exact .inl ⟨rawBody, sig, secret, world, inside, writes, rfl⟩

end Intake

/-- Some serial order of the requests that returned or committed, and of the webhooks that changed
refunds, explains everything: taken at once in that order, every request gets the result it
returned, and the refunds and their audit rows become what they are in the end.  Calls of which
one ended before the other started are in that order. -/
def Linearized (more : List EngineEvent) (before after : Ledger) : Prop :=
  ∃ order : List Entry,
    Explains Entry.Takes before order after ∧
    (order.map Entry.call).Nodup ∧
    (∀ entry ∈ order, entry.Witnessed more) ∧
    (∀ call (request : RefundRequest) result,
      .finished call request.operation result ∈ more →
      ∃ began, .request call request began result ∈ order) ∧
    (∀ call event rawBody sig secret before,
      .answered call (.handleWebhook event rawBody sig secret) (.sql .commit) (.ok ()) before ∈
        more → before.writes call → .webhook call event (before.began call) ∈ order) ∧
    ∀ first ∈ order, ∀ second ∈ order, Precedes more first.call second.call →
      [first, second].Sublist order

/-- Requests are linearizable as long as webhooks are informed: from a quiet state reached in any
run, any number of requests and webhooks are taken in, interleaved statement by statement, and any
of them may die. -/
theorem requests_linearizable {hmac : Hmac} {earlier more : List EngineEvent}
    {state final : EngineState} (run : EngineRun hmac earlier state) (quiet : state.Quiet)
    (informed : (engine hmac).Run InformedIntake state more final) :
    Linearized more (Ledger.of state.world) (Ledger.of final.world) := by
  have continued := intake_of_informed informed
  classical
  have once := run.taken_once continued
  refine ⟨(points point more).filter fun entry => entry.Witnessed more, ?_, ?_, ?_, ?_, ?_, ?_⟩
  · apply (run.explained quiet informed).filter
    intro entry member unwitnessed before after takes
    rcases run.witnessed_or_refused continued member with witnessed | ⟨_, _, _, _, rfl⟩
    · exact (of_decide_eq_false unwitnessed witnessed).elim
    · have refused := congrArg Prod.fst takes
      rw [← Ledger.snd_request_of_error refused]
      exact (congrArg Prod.snd takes).symm
  · exact once.sublist (List.filter_sublist.map _)
  · intro entry member
    exact of_decide_eq_true (List.mem_filter.mp member).2
  · intro call request result finished
    rcases run.point_of_finished quiet continued finished with ⟨began, member⟩
    exact ⟨began, List.mem_filter.mpr ⟨member, decide_eq_true (.inl finished)⟩⟩
  · intro call event rawBody sig secret before committed writes
    apply List.mem_filter.mpr
    constructor
    · exact mem_points.mpr ⟨_, committed, by rw [point_webhook, if_pos writes]⟩
    · exact decide_eq_true ⟨rawBody, sig, secret, before, committed, writes, rfl⟩
  · intro first firstIn second secondIn precedes
    rcases List.mem_filter.mp firstIn with ⟨firstTaken, firstKept⟩
    rcases List.mem_filter.mp secondIn with ⟨secondTaken, secondKept⟩
    have ordered := continued.points_sublist (fun _ _ => caller_of_point) precedes firstTaken
      secondTaken
    have kept := ordered.filter fun entry => decide (entry.Witnessed more)
    simpa only [List.filter_cons, firstKept, secondKept, ↓reduceIte, List.filter_nil] using kept

/-- A request is refused by what it has read under the lock, though a webhook frees capacity
before it returns; the request that waits for the lock is accepted. -/
def intakeEnd : List EngineEvent × EngineState :=
  ((engine sampleHmac).play InformedIntake
    [.start 10 (.requestRefund ⟨9⟩ sampleCharge.id 349000 "EUR" "carol" none),
      .start 11 (.requestRefund ⟨10⟩ sampleCharge.id 349500 "EUR" "dave" none),
      .start 12 (.handleWebhook declinedEvent [] (sign sampleHmac [] []) []),
      .execute 10, .execute 10, .execute 10, .execute 12, .execute 12, .execute 12, .execute 11,
      .execute 12, .finish 12, .execute 10, .finish 10, .execute 11, .execute 11, .execute 11,
      .execute 11, .execute 11, .finish 11]
    ([], sampleEnd.2)).get (by decide +kernel)

theorem requests_linearizable_sample :
    ∃ order : List Entry,
      Explains Entry.Takes (Ledger.of sampleEnd.2.world) order (Ledger.of intakeEnd.2.world) ∧
      (∃ began, .request 10 ⟨⟨9⟩, sampleCharge.id, 349000, "EUR", "carol", none⟩ began
        (.error (.overRefund sampleCharge.id 349000 348000)) ∈ order) ∧
      ∃ began, .request 11 ⟨⟨10⟩, sampleCharge.id, 349500, "EUR", "dave", none⟩ began
        (.ok (.refundId ⟨10⟩)) ∈ order := by
  have continued : (engine sampleHmac).Run InformedIntake sampleEnd.2 intakeEnd.1 intakeEnd.2 :=
    Machine.play_run .nil (Option.some_get _).symm
  have refused : .finished 10 (.requestRefund ⟨9⟩ sampleCharge.id 349000 "EUR" "carol" none)
      (.error (.overRefund sampleCharge.id 349000 348000)) ∈ intakeEnd.1 :=
    continued.mem_of_finished rfl rfl
  have accepted : .finished 11 (.requestRefund ⟨10⟩ sampleCharge.id 349500 "EUR" "dave" none)
      (.ok (.refundId ⟨10⟩)) ∈ intakeEnd.1 :=
    continued.mem_of_finished rfl rfl
  rcases requests_linearizable sampleEnd_run sampleEnd_quiet continued with
    ⟨order, explains, _, _, returned, _⟩
  exact ⟨order, explains,
    returned 10 ⟨⟨9⟩, sampleCharge.id, 349000, "EUR", "carol", none⟩ _ refused,
    returned 11 ⟨⟨10⟩, sampleCharge.id, 349500, "EUR", "dave", none⟩ _ accepted⟩

/-- Entries taken at once keep the trail of a refund linked. -/
theorem Entry.Takes.linked {entry : Entry} {before after : Ledger} {refundId : Uuid}
    (takes : entry.Takes before after) (linked : before.Linked refundId) :
    after.Linked refundId := by
  cases entry with
  | request call asked began result =>
      have result := linked.request asked began
      rw [show _ = _ from takes] at result
      exact result
  | webhook call event began =>
      rw [show after = _ from takes]
      exact linked.webhook event began

/-- The gateway reports the failure a second time, under another id. -/
def declinedAgain : WebhookEvent := { declinedEvent with id := "evt_3" }

/-- The second report waits for the first one to commit. -/
def overtakenEnd : List EngineEvent × EngineState :=
  ((engine sampleHmac).play Intake
    [.start 10 (.handleWebhook declinedEvent [] (sign sampleHmac [] []) []),
      .start 11 (.handleWebhook declinedAgain [] (sign sampleHmac [] []) []),
      .execute 10, .execute 10, .execute 10, .execute 11, .execute 11,
      .act (.suspend 11 (.fail "re_mock_00000002" (some "account closed"))),
      .execute 10, .finish 10, .execute 11, .execute 11, .finish 11]
    ([], sampleEnd.2)).get (by decide +kernel)

/-- Two deliveries of a failure overlap, and the refund is recorded to have failed twice from
`submitted`; no order of the deliveries does that. -/
theorem failures_not_linearizable :
    EngineRun sampleHmac sampleEnd.1 sampleEnd.2 ∧ sampleEnd.2.Quiet ∧
    (engine sampleHmac).Run Intake sampleEnd.2 overtakenEnd.1 overtakenEnd.2 ∧
    (∀ event ∈ overtakenEnd.1, ¬Interrupts event) ∧
    ¬Linearized overtakenEnd.1 (Ledger.of sampleEnd.2.world) (Ledger.of overtakenEnd.2.world) := by
  refine ⟨sampleEnd_run, sampleEnd_quiet, Machine.play_run .nil (Option.some_get _).symm,
    by decide +kernel, ?_⟩
  rintro ⟨order, explains, _⟩
  have linked : (Ledger.of sampleEnd.2.world).Linked ⟨8⟩ :=
    { known := by decide +kernel
      nodup := by decide +kernel
      chained := by decide +kernel
      latest := by decide +kernel }
  have chained := (explains.preserves (fun ledger : Ledger => ledger.Linked ⟨8⟩) linked
    fun _ _ _ takes linked => Entry.Takes.linked takes linked).chained
  revert chained
  decide +kernel

end RefundEngine
