import RefundEngine.Audit.Tables
import RefundEngine.Interleaving.Serial
import RefundEngine.Recovery

/-!
# The operations and the audit trail, one call at a time

Every operation, run alone from tables whose audit rows tell the truth, leaves such tables
behind wherever it stops, unless it stops while it owes an audit row.  The environment may
reconfigure the gateway, write charges and let time pass at any point.
-/

namespace RefundEngine

open Interleaving (CallId Event Machine Watch own)

/-- The tables of a world tell the truth. -/
def World.Audited (world : World) : Prop :=
  RefundEngine.Audited world.rows world.database.transitions world.database.nextTransition

/-- No call but this one has a transaction open, and no statement waits. -/
def Uncontended (call : CallId) (world : World) : Prop :=
  (∀ other, other ≠ call → world.transaction other = none) ∧
    ∀ other, world.suspended other = none

/-- The tables tell the truth, and only the one call may have a transaction open. -/
structure Rest (call : CallId) (world : World) : Prop where
  audited : world.Audited
  uncontended : Uncontended call world

/-- The tables tell the truth, no transaction is open and no statement waits. -/
structure AtRest (world : World) : Prop where
  audited : world.Audited
  unlocked : ∀ call, world.transaction call = none
  resumed : ∀ call, world.suspended call = none

/-- What the environment leaves alone, short of canceling a refund.  A statement waits only
for the transaction of another call. -/
structure Drifts (before after : World) : Prop where
  refunds : after.database.refunds = before.database.refunds
  transitions : after.database.transitions = before.database.transitions
  nextTransition : after.database.nextTransition = before.database.nextTransition
  transactions : after.transactions = before.transactions
  store : after.gateway.store = before.gateway.store
  suspended : ∀ call, after.suspended call = before.suspended call ∨
    before.transaction call ≠ none ∧ ∃ other, other ≠ call ∧ before.transaction other ≠ none

section Drifts

variable {call : CallId} {world before after : World}

theorem Drifts.refl (world : World) : Drifts world world :=
  ⟨rfl, rfl, rfl, rfl, rfl, fun _ => .inl rfl⟩

theorem Drifts.transaction (drifts : Drifts before after) (call : CallId) :
    after.transaction call = before.transaction call :=
  congrArg (AList.lookup call) drifts.transactions

theorem Drifts.trans {first second third : World} (left : Drifts first second)
    (right : Drifts second third) : Drifts first third where
  refunds := right.refunds.trans left.refunds
  transitions := right.transitions.trans left.transitions
  nextTransition := right.nextTransition.trans left.nextTransition
  transactions := right.transactions.trans left.transactions
  store := right.store.trans left.store
  suspended call := by
    rcases right.suspended call with same | waits
    · rw [same]
      exact left.suspended call
    · simp only [left.transaction] at waits
      exact .inr waits

theorem Drifts.rows (drifts : Drifts before after) : after.rows = before.rows :=
  congrArg RefundTable.rows drifts.refunds

theorem Drifts.lookupByKey (drifts : Drifts before after) (key : String) :
    after.gateway.lookupByKey key = before.gateway.lookupByKey key :=
  congrArg (AList.lookup key) drifts.store

/-- What the environment does short of canceling a refund. -/
theorem Drifts.of_act {hmac : Hmac} {trace : List EngineEvent} {action : Environment}
    (permitted : NoCancel trace (.acted action before))
    (acted : (engine hmac).act action before = some after) : Drifts before after := by
  cases action with
  | setConfig config =>
      cases acted
      exact ⟨rfl, rfl, rfl, rfl, rfl, fun _ => .inl rfl⟩
  | setClock now =>
      cases acted
      exact ⟨rfl, rfl, rfl, rfl, rfl, fun _ => .inl rfl⟩
  | createCharge charge =>
      simp only [engine, Environment.act] at acted
      split at acted
      · cases acted
        exact ⟨rfl, rfl, rfl, rfl, rfl, fun _ => .inl rfl⟩
      · cases acted
  | cancel refundId => exact permitted.elim
  | suspend call update =>
      rcases Environment.of_suspend acted with ⟨⟨mine, own⟩, _, ⟨_, _, _, locked⟩, rfl⟩
      refine ⟨rfl, rfl, rfl, rfl, rfl, ?_⟩
      intro other
      by_cases waits : other = call
      · rcases World.otherTransaction_iff.mp locked with ⟨holder, theirs, different, opened, _⟩
        refine .inr ⟨?_, holder, ?_, ?_⟩
        · rw [waits, own]
          exact Option.some_ne_none _
        · rw [waits]
          exact fun same => different (congrArg some same.symm)
        · rw [opened]
          exact Option.some_ne_none _
      · exact .inl (Function.update_of_ne waits ..)

theorem World.Audited.drifts (audited : before.Audited) (drifts : Drifts before after) :
    after.Audited := by
  unfold World.Audited at audited ⊢
  rw [drifts.rows, drifts.transitions, drifts.nextTransition]
  exact audited

theorem Uncontended.drifts (uncontended : Uncontended call before)
    (drifts : Drifts before after) : Uncontended call after := by
  constructor
  · intro other different
    rw [drifts.transaction]
    exact uncontended.1 other different
  · intro other
    rcases drifts.suspended other with same | ⟨opened, holder, different, held⟩
    · rw [same]
      exact uncontended.2 other
    · exfalso
      by_cases own : other = call
      · rw [own] at different
        exact held (uncontended.1 holder different)
      · exact opened (uncontended.1 other own)

theorem Uncontended.setTransaction (uncontended : Uncontended call world)
    (transaction : Transaction) : Uncontended call (world.setTransaction call transaction) := by
  constructor
  · intro other different
    rw [World.transaction_setTransaction_of_ne _ _ different]
    exact uncontended.1 other different
  · intro other
    by_cases own : other = call
    · rw [own]
      exact World.suspended_setTransaction_self ..
    · rw [World.suspended_setTransaction_of_ne _ _ own]
      exact uncontended.2 other

theorem Uncontended.endTransaction (uncontended : Uncontended call world) :
    Uncontended call (world.endTransaction call) := by
  constructor
  · intro other different
    rw [World.transaction_endTransaction_of_ne _ different]
    exact uncontended.1 other different
  · intro other
    by_cases own : other = call
    · rw [own]
      exact World.suspended_endTransaction_self ..
    · rw [World.suspended_endTransaction_of_ne _ own]
      exact uncontended.2 other

theorem Rest.drifts (rest : Rest call before) (drifts : Drifts before after) :
    Rest call after :=
  ⟨rest.audited.drifts drifts, rest.uncontended.drifts drifts⟩

theorem AtRest.drifts (atRest : AtRest before) (drifts : Drifts before after) :
    AtRest after where
  audited := atRest.audited.drifts drifts
  unlocked call := (drifts.transaction call).trans (atRest.unlocked call)
  resumed call := by
    rcases drifts.suspended call with same | ⟨opened, _⟩
    · rw [same]
      exact atRest.resumed call
    · exact (opened (atRest.unlocked call)).elim

theorem AtRest.rest (atRest : AtRest world) (call : CallId) : Rest call world where
  audited := atRest.audited
  uncontended := ⟨fun other _ => atRest.unlocked other, atRest.resumed⟩

theorem Rest.close (rest : Rest call world) : AtRest (world.endTransaction call) where
  audited := rest.audited
  unlocked other := by
    by_cases own : other = call
    · rw [own, World.transaction_endTransaction_self]
    · exact rest.uncontended.endTransaction.1 other own
  resumed := rest.uncontended.endTransaction.2

theorem Rest.of_eq (rest : Rest call before) (rows : after.rows = before.rows)
    (transitions : after.database.transitions = before.database.transitions)
    (next : after.database.nextTransition = before.database.nextTransition)
    (others : ∀ other, other ≠ call → after.transaction other = before.transaction other)
    (resumed : ∀ other, after.suspended other = none ∨
      after.suspended other = before.suspended other) : Rest call after where
  audited := by
    unfold World.Audited
    rw [rows, transitions, next]
    exact rest.audited
  uncontended :=
    ⟨fun other different => (others other different).trans (rest.uncontended.1 other different),
      fun other => (resumed other).elim id fun same => same.trans (rest.uncontended.2 other)⟩

theorem tables_of_error {statement : Statement} {error : DbError}
    (executed : world.execute call statement = some (.error error, after)) :
    after.database = world.database ∧
      ∀ other, other ≠ call → after.transaction other = world.transaction other := by
  constructor
  · cases statement with
    | getRefund | selectStuck | selectSettled | begin | rollback | insertWebhookEvent =>
        cases executed
    | selectAmount =>
        simp only [World.execute, Option.some.injEq, Prod.mk.injEq] at executed
        rcases executed with ⟨_, rfl⟩
        rfl
    | sumRefunds =>
        simp only [World.execute, World.sumRefunds, World.inTransaction] at executed
        split at executed
        · simp only [Option.some.injEq, Prod.mk.injEq] at executed
          rcases executed with ⟨_, rfl⟩
          rfl
        · cases executed
          rfl
    | updateRefunds | recordTransition | lockCharge | insertRefund | insertTransition
    | applyMoved | commit =>
        simp only [World.execute, World.updateRefunds, World.recordTransition,
          World.lockCharge, World.insertRefund, World.insertTransition, World.applyMoved,
          World.commit, World.inTransaction] at executed
        repeat' split at executed
        all_goals cases executed
        all_goals rfl
  · intro other different
    exact transaction_of_execute executed different

theorem Rest.of_error (rest : Rest call world) {statement : Statement} {error : DbError}
    (executed : world.execute call statement = some (.error error, after)) : Rest call after := by
  rcases tables_of_error executed with ⟨database, others⟩
  refine rest.of_eq ?_ (by rw [database]) (by rw [database]) others ?_
  · exact congrArg (fun database => database.refunds.rows) database
  · intro other
    exact (sessions_of_execute executed other).imp And.right And.left

end Drifts

/-! ## The watch -/

/-- What the audit trail owes to two commands.  A webhook finds the status of every row it
moves in the newest audit row, and only an approval that has advanced its row records that
it left review. -/
def Faithful (events : List EngineEvent) : EngineEvent → Prop
  | .answered call _ (.sql (.applyMoved update _)) (.ok _) before =>
      (∀ row ∈ before.rows, update.Applies row →
        newestStatus before.database.transitions row.id = some row.status) ∧
      before.SeesTruth call update
  | .answered call operation (.sql (.recordTransition refundId fromStatus _ actor)) (.ok _) _ =>
      fromStatus = some .pendingReview →
        ∃ approver found rest, operation = .approve refundId approver ∧
          actor = "approver:" ++ approver ∧
          events = .answered call operation (.sql (.updateRefunds (.markRequested refundId)))
            (.ok ()) found :: rest ∧
          ∃ row ∈ found.rows, row.id = refundId ∧ row.status = .pendingReview
  | _ => True

theorem Faithful.of_error {events : List EngineEvent} {call : CallId} {operation : Operation}
    {statement : Statement} {error : DbError} {before : World} :
    Faithful events (.answered call operation (.sql statement) (.error error) before) := by
  cases statement <;> trivial

/-- Calls one at a time, none of which stops while it owes an audit row. -/
def auditWatch (hmac : Hmac) : Watch (engine hmac) where
  always := WorldOk
  drifts := Drifts
  drifts_refl := Drifts.refl
  drifts_trans _ _ _ := Drifts.trans
  mayStop events := owed events = []
  between := AtRest
  between_drifts _ _ atRest := atRest.drifts
  each := Faithful

section Rules

variable {hmac : Hmac} {call : CallId} {operation : Operation} {events : List EngineEvent}
variable {world : World} {α β : Type}

/-- Run alone, an action keeps the audit trail; an error leaves the tables telling the
truth. -/
abbrev Keeping (hmac : Hmac) (call : CallId) (operation : Operation)
    (post : α → List EngineEvent → World → Prop) (action : Action α)
    (events : List EngineEvent) (world : World) : Prop :=
  (auditWatch hmac).Keeps call operation
    (fun result events now =>
      match result with
      | .ok value => post value events now
      | .error _ => Rest call now)
    action.run events world

theorem keeping_pure {post : α → List EngineEvent → World → Prop} {value : α}
    (holds : ∀ now, Drifts world now → post value events now) :
    Keeping hmac call operation post (pure value) events world := holds

theorem keeping_throw {post : α → List EngineEvent → World → Prop} {error : RefundError}
    (rest : Rest call world) :
    Keeping hmac call operation post (throw error) events world := by
  intro now drifted
  exact rest.drifts drifted

/-- Sequencing, where an error ends the action. -/
theorem keeping_bind {post : β → List EngineEvent → World → Prop} {action : Action α}
    {continuation : α → Action β}
    (keeping : Keeping hmac call operation
      (fun value events now => Keeping hmac call operation post (continuation value) events now)
      action events world) :
    Keeping hmac call operation post (action >>= continuation) events world := by
  apply Watch.Keeps.bind
  apply keeping.mono
  intro result events now holds
  cases result with
  | ok value => exact holds
  | error error =>
      intro later drifted
      exact Rest.drifts holds drifted

theorem keeping_map {post : β → List EngineEvent → World → Prop} {action : Action α}
    {change : α → β}
    (keeping : Keeping hmac call operation
      (fun value events now => ∀ later, Drifts now later → post (change value) events later)
      action events world) :
    Keeping hmac call operation post (change <$> action) events world := by
  apply Watch.Keeps.bind
  apply keeping.mono
  intro result events now holds
  cases result with
  | ok value => exact holds
  | error error =>
      intro later drifted
      exact Rest.drifts holds drifted

/-- A statement: where the call may stop the tables tell the truth, an error leaves them so,
and every value meets the postcondition. -/
theorem keeping_statement {statement : Statement}
    {post : statement.Value → List EngineEvent → World → Prop}
    (stops : owed events = [] → Rest call world)
    (errors : ∀ now error after, Drifts world now → WorldOk now →
      now.execute call statement = some (.error error, after) → Rest call after)
    (values : ∀ now value after, Drifts world now → WorldOk now →
      now.execute call statement = some (.ok value, after) → WorldOk after →
      Faithful events (.answered call operation (.sql statement) (.ok value) now) ∧
        ∀ later, Drifts after later →
          post value (.answered call operation (.sql statement) (.ok value) now :: events) later) :
    Keeping hmac call operation post (Action.sql statement) events world := by
  intro now drifted known
  constructor
  · intro may
    exact ((stops may).drifts drifted).close
  constructor
  · intro answer after executed known'
    cases answer with
    | ok value => exact values now value after drifted known executed known'
    | error error =>
        refine ⟨.of_error, ?_⟩
        intro later drifted'
        exact (errors now error after drifted known executed).drifts drifted'
  · intro may answer fails
    cases fails
    intro later drifted'
    exact ((stops may).drifts drifted).drifts drifted'

theorem keeping_sql {post : β → List EngineEvent → World → Prop} {statement : Statement}
    {continuation : statement.Value → Action β}
    (stops : owed events = [] → Rest call world)
    (errors : ∀ now error after, Drifts world now → WorldOk now →
      now.execute call statement = some (.error error, after) → Rest call after)
    (rest : ∀ now value after, Drifts world now → WorldOk now →
      now.execute call statement = some (.ok value, after) → WorldOk after →
      Faithful events (.answered call operation (.sql statement) (.ok value) now) ∧
        Keeping hmac call operation post (continuation value)
          (.answered call operation (.sql statement) (.ok value) now :: events) after) :
    Keeping hmac call operation post (Action.sql statement >>= continuation) events world := by
  apply keeping_bind
  apply keeping_statement stops errors
  intro now value after drifted known executed known'
  rcases rest now value after drifted known executed known' with ⟨faithful, keeping⟩
  refine ⟨faithful, ?_⟩
  intro later drifted'
  exact Watch.Keeps.drifts keeping drifted'

theorem keeping_query {post : β → List EngineEvent → World → Prop} {statement : Statement}
    {continuation : statement.Value → Action β} (stands : Rest call world)
    (rest : ∀ now value after, Drifts world now → WorldOk now → Rest call now →
      now.execute call statement = some (.ok value, after) → WorldOk after →
      Faithful events (.answered call operation (.sql statement) (.ok value) now) ∧
        Keeping hmac call operation post (continuation value)
          (.answered call operation (.sql statement) (.ok value) now :: events) after) :
    Keeping hmac call operation post (Action.sql statement >>= continuation) events world := by
  apply keeping_sql
  · intro _
    exact stands
  · intro now error after drifted _ executed
    exact (stands.drifts drifted).of_error executed
  · intro now value after drifted known executed known'
    exact rest now value after drifted known (stands.drifts drifted) executed known'

theorem keeping_createRefund {post : β → List EngineEvent → World → Prop} {amount : Int64}
    {currency key : String} {continuation : GatewayOutcome → Action β}
    (stops : owed events = [] → Rest call world)
    (rest : ∀ now, Drifts world now →
      Keeping hmac call operation post
        (continuation (now.gateway.createRefund amount currency key).1)
        (.answered call operation (.createRefund amount currency key)
          (now.gateway.createRefund amount currency key).1 now :: events)
        { now with gateway := (now.gateway.createRefund amount currency key).2 }) :
    Keeping hmac call operation post
      (Action.createRefund amount currency key >>= continuation) events world := by
  apply keeping_bind
  intro now drifted known
  constructor
  · intro may
    exact ((stops may).drifts drifted).close
  constructor
  · intro answer after executed known'
    cases executed
    refine ⟨trivial, ?_⟩
    intro later drifted'
    exact Watch.Keeps.drifts (rest now drifted) drifted'
  · intro _ answer fails
    cases fails

theorem keeping_lookupByKey {post : β → List EngineEvent → World → Prop} {key : String}
    {continuation : Option GatewayRefund → Action β} (stands : Rest call world)
    (rest : ∀ now, Drifts world now → WorldOk now →
      Keeping hmac call operation post (continuation (now.gateway.lookupByKey key))
        (.answered call operation (.lookupByKey key) (now.gateway.lookupByKey key) now :: events)
        now) :
    Keeping hmac call operation post (Action.lookupByKey key >>= continuation) events world := by
  apply keeping_bind
  intro now drifted known
  constructor
  · intro _
    exact (stands.drifts drifted).close
  constructor
  · intro answer after executed known'
    cases executed
    refine ⟨trivial, ?_⟩
    intro later drifted'
    exact Watch.Keeps.drifts (rest now drifted known) drifted'
  · intro _ answer fails
    cases fails

end Rules

end RefundEngine
