import Mathlib.Data.List.MinMax
import RefundEngine.Database

/-!
# Commands and their atomic effects

A command is one SQL statement or one gateway call, and takes effect atomically.
Statements read what is committed (READ COMMITTED).  The execution of a statement is
undefined while another transaction holds a row lock it needs; once the lock is free it
goes on with the rows as they are then, but a sub-select still sees the audit rows that
were committed when it began to wait.

A statement that fails has no effect.  A lost connection is one reason; another is a
parameter that the server refuses: no value of `text` holds U+0000, so a statement that
binds one never succeeds.
-/

namespace RefundEngine

open Interleaving (CallId)

/-- The columns bound by `INSERT INTO refunds`. -/
structure NewRefund where
  id : Uuid
  chargeId : Uuid
  amountCents : Int64
  currency : String
  idempotencyKey : String
  reasonCode : Option String
  requestedBy : String
  status : Status
  deriving DecidableEq

/-- The SQL statements of the engine, with their bound parameters. -/
inductive Statement where
  /-- `SELECT * FROM refunds WHERE id = $1` -/
  | getRefund (id : Uuid)
  /-- One of the autocommitted `UPDATE refunds` statements. -/
  | updateRefunds (update : RefundUpdate)
  /-- `INSERT INTO refund_transitions (refund_id, from_status, to_status, actor)` -/
  | recordTransition (refundId : Uuid) (fromStatus : Option Status) (toStatus : Status)
      (actor : String)
  /-- `SELECT id, status FROM refunds WHERE status IN ('submitted','requested')
  ORDER BY created_at` -/
  | selectStuck
  /-- `SELECT amount_cents, currency FROM refunds WHERE id=$1` -/
  | selectAmount (id : Uuid)
  /-- `INSERT INTO webhook_events (id) VALUES ($1) ON CONFLICT (id) DO NOTHING
  RETURNING id` -/
  | insertWebhookEvent (id : String)
  /-- `SELECT id, gateway_ref, amount_cents FROM refunds
  WHERE status='settled' AND gateway_ref IS NOT NULL` -/
  | selectSettled
  /-- `BEGIN` -/
  | begin
  /-- `SELECT amount_captured, currency FROM charges WHERE id = $1 FOR UPDATE` -/
  | lockCharge (id : Uuid)
  /-- `SELECT COALESCE(SUM(amount_cents), 0)::bigint FROM refunds
  WHERE charge_id = $1 AND status NOT IN ('failed', 'canceled')` -/
  | sumRefunds (chargeId : Uuid)
  /-- `INSERT INTO refunds (...)` -/
  | insertRefund (row : NewRefund)
  /-- `INSERT INTO refund_transitions (...)` inside the request's transaction. -/
  | insertTransition (refundId : Uuid) (toStatus : Status) (actor : String)
      (reason : Option String)
  /-- The `WITH moved AS (UPDATE ...) INSERT INTO refund_transitions ...` statements. -/
  | applyMoved (update : RefundUpdate) (reason : Option String)
  /-- `COMMIT` -/
  | commit
  /-- `ROLLBACK` -/
  | rollback
  deriving DecidableEq

/-- A text that the server takes: no value of `text` holds U+0000. -/
def Storable (text : String) : Prop :=
  Char.ofNat 0 ∉ text.toList

instance (text : String) : Decidable (Storable text) :=
  inferInstanceAs (Decidable (_ ∉ _))

theorem Uuid.storable_toString (uuid : Uuid) : Storable uuid.toString := by
  have digits : Char.ofNat 0 ∉ Numerals.hexDigits 32 uuid.bits.toNat :=
    Numerals.notMem_hexDigits (by decide) _ _
  intro held
  rw [← uuid.filter_toString] at digits
  exact digits (List.mem_filter.mpr ⟨held, by decide⟩)

/-- The texts that an update binds. -/
def RefundUpdate.texts : RefundUpdate → List String
  | .recordRef _ gatewayRef | .recoverRef _ gatewayRef | .settle gatewayRef => [gatewayRef]
  | .fail gatewayRef reason => gatewayRef :: reason.toList
  | .markSubmitted _ | .markRequested _ => []

/-- The texts that a statement binds. -/
def Statement.texts : Statement → List String
  | .updateRefunds update => update.texts
  | .recordTransition _ _ _ actor => [actor]
  | .insertWebhookEvent id => [id]
  | .insertRefund new =>
      new.currency :: new.idempotencyKey :: new.requestedBy :: new.reasonCode.toList
  | .insertTransition _ _ actor reason => actor :: reason.toList
  | .applyMoved update reason => update.texts ++ reason.toList
  | _ => []

/-- What a statement that succeeds returns. -/
@[reducible] def Statement.Value : Statement → Type
  | .getRefund _ => Option Refund
  | .selectStuck => List (Uuid × Status)
  | .selectAmount _ => Int64 × String
  | .insertWebhookEvent _ => Option String
  | .selectSettled => List (Uuid × String × Int64)
  | .lockCharge _ => Option (Int64 × String)
  | .sumRefunds _ => Int64
  | _ => Unit

/-- One step of a call: a statement, or a call of the gateway. -/
inductive Command where
  | sql (statement : Statement)
  | createRefund (amount : Int64) (currency idempotencyKey : String)
  | lookupByKey (idempotencyKey : String)
  deriving DecidableEq

/-- What a command answers. -/
@[reducible] def Command.Answer : Command → Type
  | .sql statement => Except DbError statement.Value
  | .createRefund _ _ _ => GatewayOutcome
  | .lookupByKey _ => Option GatewayRefund

/-- A refund that counts against its charge: it moved or may yet move money. -/
def Refund.Active (row : Refund) : Prop :=
  row.status ≠ .failed ∧ row.status ≠ .canceled

instance (row : Refund) : Decidable row.Active :=
  inferInstanceAs (Decidable (_ ∧ _))

/-- `SUM(amount_cents)` over the active refunds of a charge, as a `NUMERIC`. -/
def refundedSoFar (rows : List Refund) (chargeId : Uuid) : Int :=
  ((rows.filter fun row => row.chargeId = chargeId ∧ row.Active).map
    fun row => row.amountCents.toInt).sum

/-- The cast `::bigint`. -/
def castBigint (value : Int) : Except DbError Int64 :=
  if -2 ^ 63 ≤ value ∧ value < 2 ^ 63 then .ok (Int64.ofInt value)
  else .error .numericOutOfRange

/-- Rows that could be stuck, oldest first. -/
def stuckRows (rows : List Refund) : List (Uuid × Status) :=
  ((rows.filter fun row => row.status = .submitted ∨ row.status = .requested).insertionSort
    fun left right => left.createdAt ≤ right.createdAt).map fun row => (row.id, row.status)

theorem mem_stuckRows {rows : List Refund} {entry : Uuid × Status} :
    entry ∈ stuckRows rows ↔ ∃ row ∈ rows, (row.id, row.status) = entry ∧
      (row.status = .submitted ∨ row.status = .requested) := by
  simp only [stuckRows, List.mem_map, List.mem_insertionSort, List.mem_filter,
    decide_eq_true_eq]
  constructor
  · rintro ⟨row, ⟨member, live⟩, same⟩
    exact ⟨row, member, same, live⟩
  · rintro ⟨row, member, same, live⟩
    exact ⟨row, ⟨member, live⟩, same⟩

theorem stuckRows_nodup (table : RefundTable) :
    ((stuckRows table.rows).map Prod.fst).Nodup := by
  simp only [stuckRows, List.map_map]
  have sorted := (table.rows.filter fun row =>
    row.status = .submitted ∨ row.status = .requested).perm_insertionSort
      fun left right => left.createdAt ≤ right.createdAt
  apply (sorted.map Refund.id).nodup_iff.mpr
  exact table.ids_nodup.sublist (List.filter_sublist.map Refund.id)

/-- Settled rows with a reference. -/
def settledRows (rows : List Refund) : List (Uuid × String × Int64) :=
  rows.filterMap fun row =>
    match row.gatewayRef with
    | some gatewayRef =>
        if row.status = .settled then some (row.id, gatewayRef, row.amountCents) else none
    | none => none

/-- `to_status` of the newest audit row of a refund: `ORDER BY t.id DESC LIMIT 1`. -/
def newestStatus (transitions : List Transition) (refundId : Uuid) : Option Status :=
  ((transitions.filter fun row => row.refundId = refundId).argmax Transition.id).map
    Transition.toStatus

namespace World

/-! ## Statements outside a transaction -/

/-- Another transaction has locked a row the update would change. -/
def MustWait (world : World) (session : Option CallId) (update : RefundUpdate) : Prop :=
  ∃ row ∈ world.rows, update.Applies row ∧
    world.OtherTransaction session fun transaction => row.id ∈ transaction.lockedRows

instance (world : World) (session : Option CallId) (update : RefundUpdate) :
    Decidable (world.MustWait session update) :=
  inferInstanceAs (Decidable (∃ row ∈ world.rows, _))

/-- A statement of the call begins to wait: what it sees of the audit rows is fixed. -/
def suspend (world : World) (call : CallId) (update : RefundUpdate) : World :=
  { world with
    suspended := Function.update world.suspended call
      (some (update, world.database.transitions)) }

/-- The audit rows that a sub-select of the statement sees. -/
def visible (world : World) (call : CallId) (update : RefundUpdate) : List Transition :=
  match world.suspended call with
  | some (waiting, snapshot) =>
      if waiting = update then snapshot else world.database.transitions
  | none => world.database.transitions

/-- The newest audit row of the refund is no news to the statement. -/
def Sees (world : World) (call : CallId) (update : RefundUpdate) (refundId : Uuid) : Prop :=
  newestStatus (world.visible call update) refundId =
    newestStatus world.database.transitions refundId

instance (world : World) (call : CallId) (update : RefundUpdate) (refundId : Uuid) :
    Decidable (world.Sees call update refundId) :=
  inferInstanceAs (Decidable (_ = _))

/-- What the statement sees names the status of every refund it is about to move. -/
def SeesTruth (world : World) (call : CallId) (update : RefundUpdate) : Prop :=
  ∀ row ∈ world.rows, update.Applies row →
    newestStatus (world.visible call update) row.id = some row.status

theorem visible_of_resumed {world : World} {call : CallId} (resumed : world.suspended call = none)
    (update : RefundUpdate) : world.visible call update = world.database.transitions := by
  simp only [visible, resumed]

/-- With no other transaction open nothing has to wait. -/
theorem not_mustWait {world : World} {session : Option CallId}
    (alone : ∀ other, session ≠ some other → world.transaction other = none)
    (update : RefundUpdate) : ¬world.MustWait session update := by
  intro waits
  rcases waits with ⟨row, _, _, locked⟩
  rcases otherTransaction_iff.mp locked with ⟨other, transaction, different, opened, _⟩
  rw [alone other different] at opened
  cases opened

def setRefunds (world : World) (refunds : RefundTable) : World :=
  { world with database := { world.database with refunds := refunds } }

/-- An autocommitted `UPDATE refunds`, on a connection of its own. -/
def updateRefunds (world : World) (update : RefundUpdate) :
    Option (Except DbError Unit × World) :=
  if world.MustWait none update then none
  else
    match world.database.refunds.revise (update.change world.now) with
    | .ok refunds => some (.ok (), world.setRefunds refunds)
    | .error error => some (.error error, world)

/-- An autocommitted `INSERT INTO refund_transitions`. -/
def recordTransition (world : World) (refundId : Uuid) (fromStatus : Option Status)
    (toStatus : Status) (actor : String) : Except DbError Unit × World :=
  if refundId ∈ world.rows.map Refund.id then
    let row : Transition :=
      { id := world.database.nextTransition, refundId, fromStatus, toStatus, actor
        reason := none }
    (.ok (),
      { world with
        database :=
          { world.database with
            transitions := world.database.transitions ++ [row]
            nextTransition := world.database.nextTransition + 1 } })
  else
    (.error (.foreignKeyViolation "refund_transitions_refund_id_fkey"), world)

def selectAmount (world : World) (id : Uuid) : Except DbError (Int64 × String) :=
  match world.database.refunds.find? id with
  | some row => .ok (row.amountCents, row.currency)
  | none => .error .rowNotFound

def insertWebhookEvent (world : World) (id : String) : Option String × World :=
  if id ∈ world.database.webhookEvents then (none, world)
  else
    (some id,
      { world with
        database :=
          { world.database with
            webhookEvents := world.database.webhookEvents ++ [id] } })

/-! ## Statements of a transaction -/

/-- Run a statement in the call's open transaction. -/
def inTransaction (world : World) (call : CallId) {α : Type}
    (body : Transaction → Option (Except DbError α × World)) :
    Option (Except DbError α × World) :=
  match world.transaction call with
  | some transaction => body transaction
  | none => some (.error .noTransaction, world)

def begin (world : World) (call : CallId) : World :=
  world.setTransaction call { began := world.now }

/-- Read a charge and keep its row locked until the transaction ends. -/
def lockCharge (world : World) (call : CallId) (id : Uuid) :
    Option (Except DbError (Option (Int64 × String)) × World) :=
  world.inTransaction call fun transaction =>
    match world.database.charges.find? id with
    | none => some (.ok none, world)
    | some charge =>
        if world.OtherTransaction (some call) fun other => other.chargeLock = some id then none
        else
          some (.ok (some (charge.amountCaptured, charge.currency)),
            world.setTransaction call { transaction with chargeLock := some id })

def sumRefunds (world : World) (call : CallId) (chargeId : Uuid) :
    Option (Except DbError Int64 × World) :=
  world.inTransaction call fun _ =>
    some (castBigint (refundedSoFar world.rows chargeId), world)

/-- Insert a refund; the unset columns take their defaults. -/
def insertRefund (world : World) (call : CallId) (new : NewRefund) :
    Option (Except DbError Unit × World) :=
  world.inTransaction call fun transaction =>
    if world.OtherTransaction (some call) fun other => new.id ∈ other.insertedRows then none
    else if positive : 0 < new.amountCents then
      if (world.database.charges.find? new.chargeId).isNone then
        some (.error (.foreignKeyViolation "refunds_charge_id_fkey"), world)
      else if new.id ∈ world.rows.map Refund.id ∨ new.id ∈ transaction.insertedRows then
        some (.error (.uniqueViolation "refunds_pkey"), world)
      else if new.idempotencyKey ∈ world.rows.map Refund.idempotencyKey then
        some (.error (.uniqueViolation "refunds_idempotency_key_key"), world)
      else
        let row : Refund :=
          { id := new.id
            chargeId := new.chargeId
            amountCents := new.amountCents
            currency := new.currency
            idempotencyKey := new.idempotencyKey
            gatewayRef := none
            status := new.status
            reasonCode := new.reasonCode
            requestedBy := new.requestedBy
            failureReason := none
            createdAt := transaction.began
            updatedAt := transaction.began
            amountCents_pos := positive }
        some (.ok (),
          world.setTransaction call
            { transaction with refundWrites := transaction.refundWrites ++ [.insert row] })
    else
      some (.error (.checkViolation "refunds_amount_cents_check"), world)

/-- Advance the sequence behind `refund_transitions.id`. -/
def advanceSequence (world : World) (count : Nat) : World :=
  { world with
    database :=
      { world.database with nextTransition := world.database.nextTransition + count } }

@[simp] theorem transaction_advanceSequence (world : World) (count : Nat) (call : CallId) :
    (world.advanceSequence count).transaction call = world.transaction call := rfl

/-- Insert the first audit row of a refund in the transaction that inserted it. -/
def insertTransition (world : World) (call : CallId) (refundId : Uuid) (toStatus : Status)
    (actor : String) (reason : Option String) : Option (Except DbError Unit × World) :=
  world.inTransaction call fun transaction =>
    if refundId ∈ world.rows.map Refund.id ∨ refundId ∈ transaction.insertedRows then
      let row : Transition :=
        { id := world.database.nextTransition, refundId, fromStatus := none, toStatus
          actor, reason }
      some (.ok (),
        (world.setTransaction call
          { transaction with
            transitionWrites := transaction.transitionWrites ++ [row] }).advanceSequence 1)
    else
      some (.error (.foreignKeyViolation "refund_transitions_refund_id_fkey"), world)

/-- Update the matching rows and append one audit row for each, from the newest audit
row of the refund that the statement sees to the new status. -/
def applyMoved (world : World) (call : CallId) (update : RefundUpdate)
    (reason : Option String) : Option (Except DbError Unit × World) :=
  world.inTransaction call fun transaction =>
    if world.MustWait (some call) update then none
    else
      let moved := world.rows.filter fun row => update.Applies row
      let refundWrites := moved.map fun row =>
        RefundWrite.update row.id update transaction.began
      let transitionWrites := moved.mapIdx fun index row =>
        ({ id := world.database.nextTransition + index
           refundId := row.id
           fromStatus := newestStatus (world.visible call update) row.id
           toStatus := (update.assign transaction.began row).status
           actor := "webhook"
           reason := reason } : Transition)
      some (.ok (),
        (world.setTransaction call
          { transaction with
            refundWrites := transaction.refundWrites ++ refundWrites
            transitionWrites := transaction.transitionWrites ++ transitionWrites
            }).advanceSequence moved.length)

/-- Commit: the writes become durable together, or the transaction rolls back. -/
def commit (world : World) (call : CallId) : Option (Except DbError Unit × World) :=
  world.inTransaction call fun transaction =>
    match world.database.commit transaction with
    | .ok database =>
        some (.ok (), { (world.endTransaction call) with database := database })
    | .error error => some (.error error, world.endTransaction call)

/-- Execute one statement of a call. -/
def execute (world : World) (call : CallId) :
    (statement : Statement) → Option (Except DbError statement.Value × World)
  | .getRefund id => some (.ok (world.database.refunds.find? id), world)
  | .updateRefunds update => world.updateRefunds update
  | .recordTransition refundId fromStatus toStatus actor =>
      some (world.recordTransition refundId fromStatus toStatus actor)
  | .selectStuck => some (.ok (stuckRows world.rows), world)
  | .selectAmount id => some (world.selectAmount id, world)
  | .insertWebhookEvent id =>
      let (inserted, world) := world.insertWebhookEvent id
      some (.ok inserted, world)
  | .selectSettled => some (.ok (settledRows world.rows), world)
  | .begin => some (.ok (), world.begin call)
  | .lockCharge id => world.lockCharge call id
  | .sumRefunds chargeId => world.sumRefunds call chargeId
  | .insertRefund new => world.insertRefund call new
  | .insertTransition refundId toStatus actor reason =>
      world.insertTransition call refundId toStatus actor reason
  | .applyMoved update reason => world.applyMoved call update reason
  | .commit => world.commit call
  | .rollback => some (.ok (), world.endTransaction call)

end World

namespace Command

/-- Execute one command of a call. -/
def execute (call : CallId) : (command : Command) → World → Option (command.Answer × World)
  | .sql statement, world => world.execute call statement
  | .createRefund amount currency idempotencyKey, world =>
      let (outcome, gateway) :=
        world.gateway.createRefund amount currency idempotencyKey
      some (outcome, { world with gateway := gateway })
  | .lookupByKey idempotencyKey, world =>
      some (world.gateway.lookupByKey idempotencyKey, world)

/-- A statement can fail without effect; a gateway call cannot. -/
def failure : (command : Command) → Option command.Answer
  | .sql _ => some (.error .failed)
  | _ => none

end Command

end RefundEngine
