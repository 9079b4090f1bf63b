import Mathlib.Data.List.Sort
import RefundEngine.Interleaving.Machine
import RefundEngine.Gateway

/-!
# The database

Tables with the constraints of the migration, the six `UPDATE refunds` statements of
the engine, and open transactions with their row locks.  A table carries its unique
indexes as fields, so a statement that would violate one has to return the error.
-/

namespace RefundEngine

open Interleaving (CallId)

theorem nodup_map_append {α β : Type} {key : α → β} {rows : List α} {row : α}
    (nodup : (rows.map key).Nodup) (unused : key row ∉ rows.map key) :
    ((rows ++ [row]).map key).Nodup := by
  rw [List.map_append, List.map_singleton, ← List.concat_eq_append]
  exact nodup.concat unused

/-- The `charges` table, with its primary key. -/
structure ChargeTable where
  rows : List Charge
  ids_nodup : (rows.map Charge.id).Nodup

namespace ChargeTable

def find? (table : ChargeTable) (id : Uuid) : Option Charge :=
  table.rows.find? fun charge => charge.id = id

/-- Insert a charge, unless its identifier is taken. -/
def insert (table : ChargeTable) (charge : Charge) : Except DbError ChargeTable :=
  if taken : charge.id ∈ table.rows.map Charge.id then
    .error (.uniqueViolation "charges_pkey")
  else
    .ok
      { rows := table.rows ++ [charge]
        ids_nodup := nodup_map_append table.ids_nodup taken }

end ChargeTable

/-- The `refunds` table, with its primary key, the unique idempotency key and the
partial unique index on `gateway_ref`. -/
structure RefundTable where
  rows : List Refund
  ids_nodup : (rows.map Refund.id).Nodup
  keys_nodup : (rows.map Refund.idempotencyKey).Nodup
  refs_nodup : (rows.filterMap Refund.gatewayRef).Nodup

/-- A change of single rows that leaves identifiers and idempotency keys alone. -/
structure RowChange where
  apply : Refund → Refund
  apply_id : ∀ row, (apply row).id = row.id
  apply_idempotencyKey : ∀ row, (apply row).idempotencyKey = row.idempotencyKey

/-- One change after another. -/
def RowChange.andThen (first second : RowChange) : RowChange where
  apply row := second.apply (first.apply row)
  apply_id row := by rw [second.apply_id, first.apply_id]
  apply_idempotencyKey row := by rw [second.apply_idempotencyKey, first.apply_idempotencyKey]

namespace RefundTable

def find? (table : RefundTable) (id : Uuid) : Option Refund :=
  table.rows.find? fun row => row.id = id

/-- Change every row, unless two rows end up with one `gateway_ref`. -/
def revise (table : RefundTable) (change : RowChange) : Except DbError RefundTable :=
  if unique : ((table.rows.map change.apply).filterMap Refund.gatewayRef).Nodup then
    .ok
      { rows := table.rows.map change.apply
        ids_nodup := by
          simpa only [List.map_map, Function.comp_def, change.apply_id] using table.ids_nodup
        keys_nodup := by
          simpa only [List.map_map, Function.comp_def, change.apply_idempotencyKey] using
            table.keys_nodup
        refs_nodup := unique }
  else
    .error (.uniqueViolation "refunds_gateway_ref_idx")

/-- Append a row, unless it violates the primary key or a unique index. -/
def insert (table : RefundTable) (row : Refund) : Except DbError RefundTable :=
  if idTaken : row.id ∈ table.rows.map Refund.id then
    .error (.uniqueViolation "refunds_pkey")
  else if keyTaken : row.idempotencyKey ∈ table.rows.map Refund.idempotencyKey then
    .error (.uniqueViolation "refunds_idempotency_key_key")
  else if unique : ((table.rows ++ [row]).filterMap Refund.gatewayRef).Nodup then
    .ok
      { rows := table.rows ++ [row]
        ids_nodup := nodup_map_append table.ids_nodup idTaken
        keys_nodup := nodup_map_append table.keys_nodup keyTaken
        refs_nodup := unique }
  else
    .error (.uniqueViolation "refunds_gateway_ref_idx")

end RefundTable

/-- The committed contents of the database.  `nextTransition` is the sequence behind
`refund_transitions.id`; it is not rolled back. -/
structure Database where
  charges : ChargeTable
  refunds : RefundTable
  transitions : List Transition
  nextTransition : Nat
  webhookEvents : List String

/-! ## The statements that update refunds -/

/-- The `UPDATE refunds` statements, with their bound parameters. -/
inductive RefundUpdate where
  /-- `SET status='submitted' WHERE id=$1 AND status IN ('requested','submitted')` -/
  | markSubmitted (id : Uuid)
  /-- `SET gateway_ref=$2 WHERE id=$1 AND gateway_ref IS NULL` -/
  | recordRef (id : Uuid) (gatewayRef : String)
  /-- `SET gateway_ref=$2, status='submitted' WHERE id=$1 AND gateway_ref IS NULL` -/
  | recoverRef (id : Uuid) (gatewayRef : String)
  /-- `SET status='requested' WHERE id=$1 AND status='pending_review'` -/
  | markRequested (id : Uuid)
  /-- `SET status='settled' WHERE gateway_ref=$1 AND status IN ('submitted','requested')` -/
  | settle (gatewayRef : String)
  /-- `SET status='failed', failure_reason=$2
  WHERE gateway_ref=$1 AND status NOT IN ('settled','canceled')` -/
  | fail (gatewayRef : String) (reason : Option String)
  deriving DecidableEq

namespace RefundUpdate

/-- The `WHERE` clause. -/
def Applies : RefundUpdate → Refund → Prop
  | .markSubmitted id, row =>
      row.id = id ∧ (row.status = .requested ∨ row.status = .submitted)
  | .recordRef id _, row => row.id = id ∧ row.gatewayRef = none
  | .recoverRef id _, row => row.id = id ∧ row.gatewayRef = none
  | .markRequested id, row => row.id = id ∧ row.status = .pendingReview
  | .settle gatewayRef, row =>
      row.gatewayRef = some gatewayRef ∧
        (row.status = .submitted ∨ row.status = .requested)
  | .fail gatewayRef _, row =>
      row.gatewayRef = some gatewayRef ∧ row.status ≠ .settled ∧ row.status ≠ .canceled

instance (update : RefundUpdate) (row : Refund) : Decidable (update.Applies row) :=
  match update with
  | .markSubmitted _ => inferInstanceAs (Decidable (_ ∧ (_ ∨ _)))
  | .recordRef _ _ => inferInstanceAs (Decidable (_ ∧ _))
  | .recoverRef _ _ => inferInstanceAs (Decidable (_ ∧ _))
  | .markRequested _ => inferInstanceAs (Decidable (_ ∧ _))
  | .settle _ => inferInstanceAs (Decidable (_ ∧ (_ ∨ _)))
  | .fail _ _ => inferInstanceAs (Decidable (_ ∧ (_ ∧ _)))

/-- The `SET` clause; every statement also sets `updated_at=now()`. -/
def assign (now : Timestamp) : RefundUpdate → Refund → Refund
  | .markSubmitted _, row => { row with status := .submitted, updatedAt := now }
  | .recordRef _ gatewayRef, row =>
      { row with gatewayRef := some gatewayRef, updatedAt := now }
  | .recoverRef _ gatewayRef, row =>
      { row with gatewayRef := some gatewayRef, status := .submitted, updatedAt := now }
  | .markRequested _, row => { row with status := .requested, updatedAt := now }
  | .settle _, row => { row with status := .settled, updatedAt := now }
  | .fail _ reason, row =>
      { row with status := .failed, failureReason := reason, updatedAt := now }

@[simp] theorem assign_id (now : Timestamp) (update : RefundUpdate) (row : Refund) :
    (update.assign now row).id = row.id := by
  cases update <;> rfl

@[simp] theorem assign_idempotencyKey (now : Timestamp) (update : RefundUpdate)
    (row : Refund) : (update.assign now row).idempotencyKey = row.idempotencyKey := by
  cases update <;> rfl

@[simp] theorem assign_amountCents (now : Timestamp) (update : RefundUpdate)
    (row : Refund) : (update.assign now row).amountCents = row.amountCents := by
  cases update <;> rfl

@[simp] theorem assign_requestedBy (now : Timestamp) (update : RefundUpdate)
    (row : Refund) : (update.assign now row).requestedBy = row.requestedBy := by
  cases update <;> rfl

/-- The statement as a change of rows: matching rows are assigned. -/
def change (now : Timestamp) (update : RefundUpdate) : RowChange where
  apply row := if update.Applies row then update.assign now row else row
  apply_id row := by split <;> simp
  apply_idempotencyKey row := by split <;> simp

end RefundUpdate

/-! ## Transactions -/

/-- What a transaction has written to `refunds` and not yet committed.  An updated row
stays locked, so replaying the assignment at the commit gives the version written. -/
inductive RefundWrite where
  | insert (row : Refund)
  | update (id : Uuid) (update : RefundUpdate) (writtenAt : Timestamp)

/-- An open transaction: the time it began (its `now()`), the charge row it holds
`FOR UPDATE` and its uncommitted writes. -/
structure Transaction where
  began : Timestamp
  chargeLock : Option Uuid := none
  refundWrites : List RefundWrite := []
  transitionWrites : List Transition := []

/-- Rows of `refunds` a transaction keeps locked by having updated them. -/
def Transaction.lockedRows (transaction : Transaction) : List Uuid :=
  transaction.refundWrites.filterMap fun write =>
    match write with
    | .insert _ => none
    | .update id _ _ => some id

/-- Identifiers of refunds a transaction has inserted. -/
def Transaction.insertedRows (transaction : Transaction) : List Uuid :=
  transaction.refundWrites.filterMap fun write =>
    match write with
    | .insert row => some row.id
    | .update _ _ _ => none

/-- Make one write to `refunds` durable. -/
def RefundTable.write (table : RefundTable) : RefundWrite → Except DbError RefundTable
  | .insert row => table.insert row
  | .update id update writtenAt =>
      table.revise
        { apply := fun row => if row.id = id then update.assign writtenAt row else row
          apply_id := fun row => by split <;> simp
          apply_idempotencyKey := fun row => by split <;> simp }

/-- Make the writes of a transaction durable, all or none. -/
def Database.commit (database : Database) (transaction : Transaction) :
    Except DbError Database := do
  let refunds ← transaction.refundWrites.foldlM RefundTable.write database.refunds
  return { database with
    refunds := refunds
    transitions := database.transitions ++ transaction.transitionWrites }

/-! ## The world -/

/-- Everything the calls share: the committed database, the open transactions by the
call that began them, the gateway and the clock behind `now()`.  Of a statement that waits
for a row lock, `suspended` keeps the audit rows its snapshot shows. -/
structure World where
  database : Database
  transactions : AList fun _ : CallId => Transaction
  gateway : MockGateway
  now : Timestamp
  suspended : CallId → Option (RefundUpdate × List Transition)

namespace World

/-- Rows of the `refunds` table. -/
def rows (world : World) : List Refund := world.database.refunds.rows

/-- The open transaction of a call. -/
def transaction (world : World) (call : CallId) : Option Transaction :=
  world.transactions.lookup call

/-- Some open transaction other than the session's own satisfies a test.  A statement
outside any transaction is a session of its own. -/
def OtherTransaction (world : World) (session : Option CallId) (test : Transaction → Prop) :
    Prop :=
  ∃ entry ∈ world.transactions.entries, session ≠ some entry.1 ∧ test entry.2

instance (world : World) (session : Option CallId) (test : Transaction → Prop)
    [DecidablePred test] : Decidable (world.OtherTransaction session test) :=
  inferInstanceAs (Decidable (∃ entry ∈ world.transactions.entries, _))

theorem otherTransaction_iff {world : World} {session : Option CallId}
    {test : Transaction → Prop} :
    world.OtherTransaction session test ↔
      ∃ other transaction, session ≠ some other ∧
        world.transaction other = some transaction ∧ test transaction := by
  constructor
  · rintro ⟨⟨other, transaction⟩, member, different, holds⟩
    exact ⟨other, transaction, different, AList.mem_lookup_iff.mpr member, holds⟩
  · rintro ⟨other, transaction, different, found, holds⟩
    exact ⟨⟨other, transaction⟩, AList.mem_lookup_iff.mp found, different, holds⟩

/-- Replace the open transaction of a call by what a statement has made of it. -/
def setTransaction (world : World) (call : CallId) (transaction : Transaction) : World :=
  { world with
    transactions := world.transactions.insert call transaction
    suspended := Function.update world.suspended call none }

/-- End the transaction of a call, dropping what it has not committed. -/
def endTransaction (world : World) (call : CallId) : World :=
  { world with
    transactions := world.transactions.erase call
    suspended := Function.update world.suspended call none }

@[simp] theorem transaction_setTransaction_self (world : World) (call : CallId)
    (transaction : Transaction) :
    (world.setTransaction call transaction).transaction call = some transaction :=
  AList.lookup_insert _

theorem transaction_setTransaction_of_ne (world : World) {call other : CallId}
    (transaction : Transaction) (different : other ≠ call) :
    (world.setTransaction call transaction).transaction other = world.transaction other :=
  AList.lookup_insert_ne different

@[simp] theorem transaction_endTransaction_self (world : World) (call : CallId) :
    (world.endTransaction call).transaction call = none :=
  AList.lookup_erase _ _

theorem transaction_endTransaction_of_ne (world : World) {call other : CallId}
    (different : other ≠ call) :
    (world.endTransaction call).transaction other = world.transaction other :=
  AList.lookup_erase_ne different

@[simp] theorem suspended_setTransaction_self (world : World) (call : CallId)
    (transaction : Transaction) : (world.setTransaction call transaction).suspended call = none :=
  Function.update_self ..

theorem suspended_setTransaction_of_ne (world : World) {call other : CallId}
    (transaction : Transaction) (different : other ≠ call) :
    (world.setTransaction call transaction).suspended other = world.suspended other :=
  Function.update_of_ne different ..

@[simp] theorem suspended_endTransaction_self (world : World) (call : CallId) :
    (world.endTransaction call).suspended call = none :=
  Function.update_self ..

theorem suspended_endTransaction_of_ne (world : World) {call other : CallId}
    (different : other ≠ call) :
    (world.endTransaction call).suspended other = world.suspended other :=
  Function.update_of_ne different ..

theorem transaction_of_endTransaction {world : World} {call other : CallId}
    {transaction : Transaction}
    (opened : (world.endTransaction call).transaction other = some transaction) :
    other ≠ call ∧ world.transaction other = some transaction := by
  by_cases own : other = call
  · rw [own, transaction_endTransaction_self] at opened
    cases opened
  · rw [transaction_endTransaction_of_ne _ own] at opened
    exact ⟨own, opened⟩

theorem unlocked_endTransaction {world : World} {call : CallId}
    (unlocked : ∀ other, world.transaction other = none) (other : CallId) :
    (world.endTransaction call).transaction other = none := by
  by_cases own : other = call
  · rw [own, transaction_endTransaction_self]
  · rw [transaction_endTransaction_of_ne _ own, unlocked]

end World

end RefundEngine
