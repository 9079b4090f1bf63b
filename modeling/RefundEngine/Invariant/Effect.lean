import RefundEngine.Invariant.World
import RefundEngine.Steps

/-!
# What one command does to the world

A command is founded when the world it runs in bears out what its call has checked.
Founded commands keep the invariant of the world and what the other calls rely on;
so do the steps of the environment and the end of a call.
-/

namespace RefundEngine

open Interleaving (CallId)
open Growth (Grows)

/-- The change of one step, as the invariant and the other calls see it. -/
structure Kept (call : Option CallId) (before after : World) : Prop where
  ok : WorldOk after
  later : Later before after
  rely : ∀ other, call ≠ some other → RelyWorld other before after

namespace Kept

variable {world after : World} {call : CallId}

theorem refl (caller : Option CallId) (ok : WorldOk world) : Kept caller world world :=
  ⟨ok, .refl _, fun other _ => .refl other world⟩

theorem of_evolution {fresh : Refund → Prop} {caller : Option CallId} (ok : WorldOk world)
    (evolution : Evolution fresh world after)
    (others : ∀ other, caller ≠ some other →
      after.transaction other = world.transaction other) : Kept caller world after where
  ok := evolution.worldOk ok
  later := evolution.later
  rely other different := evolution.rely (others other different)

theorem of_eq {caller : Option CallId} (ok : WorldOk world)
    (rows : after.rows = world.rows) (charges : after.charges = world.charges)
    (gateway : after.gateway = world.gateway)
    (transactions : ∀ other, after.transaction other = world.transaction other) :
    Kept caller world after :=
  of_evolution ok
    (.still ok rows charges gateway fun other _ opened => (transactions other) ▸ opened)
    fun other _ => transactions other

theorem trans {middle : World} {caller : Option CallId} (left : Kept caller world middle)
    (right : Kept caller middle after) : Kept caller world after where
  ok := right.ok
  later := left.later.trans right.later
  rely other different := (left.rely other different).trans (right.rely other different)

theorem advanceSequence {caller : Option CallId} {count : Nat}
    (kept : Kept caller world after) : Kept caller world (after.advanceSequence count) :=
  kept.trans (.of_eq kept.ok rfl rfl rfl fun _ => rfl)

/-- A lock that one transaction holds at a time stays so when a call replaces its
transaction by one that takes no lock of another. -/
private theorem lock_setTransaction (holds : Transaction → Prop) {transaction : Transaction}
    (exclusive : ∀ left right transactionL transactionR,
      world.transaction left = some transactionL →
      world.transaction right = some transactionR → holds transactionL → holds transactionR →
      left = right)
    (free : ∀ other transaction', other ≠ call → world.transaction other = some transaction' →
      holds transaction → ¬holds transaction')
    {left right : CallId} {transactionL transactionR : Transaction}
    (openedL : (world.setTransaction call transaction).transaction left = some transactionL)
    (openedR : (world.setTransaction call transaction).transaction right = some transactionR)
    (holdsL : holds transactionL) (holdsR : holds transactionR) : left = right := by
  by_cases ownL : left = call <;> by_cases ownR : right = call
  · exact ownL.trans ownR.symm
  · subst ownL
    rw [World.transaction_setTransaction_self] at openedL
    rw [World.transaction_setTransaction_of_ne _ _ ownR] at openedR
    cases openedL
    exact (free right _ ownR openedR holdsL holdsR).elim
  · subst ownR
    rw [World.transaction_setTransaction_self] at openedR
    rw [World.transaction_setTransaction_of_ne _ _ ownL] at openedL
    cases openedR
    exact (free left _ ownL openedL holdsR holdsL).elim
  · rw [World.transaction_setTransaction_of_ne _ _ ownL] at openedL
    rw [World.transaction_setTransaction_of_ne _ _ ownR] at openedR
    exact exclusive _ _ _ _ openedL openedR holdsL holdsR

theorem setTransaction (ok : WorldOk world) {transaction : Transaction}
    (pending : PendingOk world transaction.chargeLock transaction.refundWrites)
    (chargeLocks : ∀ other transaction' id, other ≠ call →
      world.transaction other = some transaction' → transaction.chargeLock = some id →
      transaction'.chargeLock ≠ some id)
    (rowLocks : ∀ other transaction' id, other ≠ call →
      world.transaction other = some transaction' → id ∈ transaction.lockedRows →
      id ∉ transaction'.lockedRows) :
    Kept (some call) world (world.setTransaction call transaction) where
  ok :=
    { consistent := ok.consistent
      row := ok.row
      backed := ok.backed
      charged := ok.charged
      captured := ok.captured
      pending := by
        intro other transaction' opened
        by_cases own : other = call
        · subst own
          rw [World.transaction_setTransaction_self] at opened
          cases opened
          exact pending.congr rfl rfl
        · rw [World.transaction_setTransaction_of_ne _ _ own] at opened
          exact (ok.pending other transaction' opened).congr rfl rfl
      chargeLocks := by
        intro left right _ _ id openedL openedR lockedL lockedR
        refine lock_setTransaction (fun held => held.chargeLock = some id) ?_ ?_ openedL openedR
          lockedL lockedR
        · intro left right _ _ openedL openedR
          exact ok.chargeLocks left right _ _ id openedL openedR
        · intro other transaction' different opened
          exact chargeLocks other transaction' id different opened
      rowLocks := by
        intro left right _ _ id openedL openedR lockedL lockedR
        refine lock_setTransaction (fun held => id ∈ held.lockedRows) ?_ ?_ openedL openedR
          lockedL lockedR
        · intro left right _ _ openedL openedR
          exact ok.rowLocks left right _ _ id openedL openedR
        · intro other transaction' different opened
          exact rowLocks other transaction' id different opened }
  later := ⟨List.Subset.refl _, fun row member => ⟨row, member, .refl row⟩,
    fun _ _ held => held⟩
  rely other different := by
    refine .of_eq rfl rfl rfl (World.transaction_setTransaction_of_ne _ _ ?_)
    rintro rfl
    exact different rfl

theorem endTransaction (ok : WorldOk world) :
    Kept (some call) world (world.endTransaction call) := by
  have remaining : ∀ other transaction,
      (world.endTransaction call).transaction other = some transaction →
      world.transaction other = some transaction :=
    fun _ _ opened => (World.transaction_of_endTransaction opened).2
  refine of_evolution ok (.still ok rfl rfl rfl remaining) fun other different => ?_
  apply World.transaction_endTransaction_of_ne
  rintro rfl
  exact different rfl

end Kept

/-! ## Founded commands -/

/-- A new row that fits its charge, as `request_refund` has checked. -/
structure Fits (world : World) (new : NewRefund) : Prop where
  key : new.idempotencyKey = new.id.toString
  status : new.status =
    if new.amountCents ≥ reviewThresholdCents then .pendingReview else .requested
  room : ∀ charge ∈ world.charges, charge.id = new.chargeId →
    refundedSoFar world.rows charge.id + new.amountCents.toInt ≤ charge.amountCaptured.toInt

/-- What the world has to bear out when a call runs a command. -/
def Founded (call : CallId) (world : World) : Command → Prop
  | .sql (.updateRefunds update) =>
      (∀ row ∈ world.rows, update.Applies row → update.Legit world.gateway row) ∧
        ∀ refundId, update = .markSubmitted refundId →
          ∃ row ∈ world.rows, row.id = refundId ∧ Status.requested.rank ≤ row.status.rank
  | .sql (.lockCharge _) =>
      ∀ transaction, world.transaction call = some transaction → transaction.refundWrites = []
  | .sql (.insertRefund new) =>
      Fits world new ∧ ∀ transaction, world.transaction call = some transaction →
        transaction.refundWrites = [] ∧ transaction.chargeLock = some new.chargeId
  | .sql (.applyMoved update _) =>
      update.decision ≠ none ∧ ∀ transaction, world.transaction call = some transaction →
        transaction.refundWrites = []
  | .createRefund amount currency key =>
      ∃ row ∈ world.rows, row.idempotencyKey = key ∧ row.amountCents = amount ∧
        row.currency = currency ∧ Status.submitted.rank ≤ row.status.rank
  | _ => True

section Statements

variable {world after : World} {call : CallId}

private theorem kept_inTransaction {α : Type} {answer : Except DbError α}
    {body : Transaction → Option (Except DbError α × World)} (ok : WorldOk world)
    (executed : world.inTransaction call body = some (answer, after))
    (kept : ∀ transaction, world.transaction call = some transaction →
      body transaction = some (answer, after) → Kept (some call) world after) :
    Kept (some call) world after := by
  simp only [World.inTransaction] at executed
  split at executed
  · exact kept _ ‹_› executed
  · cases executed
    exact .refl _ ok

private theorem kept_updateRefunds {update : RefundUpdate} {answer : Except DbError Unit}
    (ok : WorldOk world)
    (legit : ∀ row ∈ world.rows, update.Applies row → update.Legit world.gateway row)
    (executed : world.updateRefunds update = some (answer, after)) :
    Kept (some call) world after := by
  simp only [World.updateRefunds] at executed
  split at executed
  · cases executed
  rename_i free
  split at executed
  · rename_i refunds revised
    cases executed
    have rows := RefundTable.rows_of_revise revised
    refine Kept.of_evolution ok (.inPlace ok rows rfl rfl (fun _ _ opened => opened) ?_ ?_)
      fun _ _ => rfl
    · intro row member
      simp only [RefundUpdate.change]
      split
      · exact (ok.row row member).assign ‹_› (legit row member ‹_›) _
      · exact ⟨ok.row row member, .refl row⟩
    · intro other transaction opened row member locked
      simp only [RefundUpdate.change]
      rw [if_neg]
      intro applies
      exact free ⟨row, member, applies, World.otherTransaction_iff.mpr
        ⟨other, transaction, by simp, opened, locked⟩⟩
  · cases executed
    exact .refl _ ok

private theorem kept_lockCharge {id : Uuid}
    {answer : Except DbError (Option (Int64 × String))} (ok : WorldOk world)
    (unwritten : ∀ transaction, world.transaction call = some transaction →
      transaction.refundWrites = [])
    (executed : world.lockCharge call id = some (answer, after)) :
    Kept (some call) world after := by
  refine kept_inTransaction ok executed fun transaction opened executed => ?_
  have empty := unwritten transaction opened
  split at executed
  · cases executed
    exact .refl _ ok
  · split at executed
    · cases executed
    rename_i free
    cases executed
    apply Kept.setTransaction ok
    · rw [empty]
      exact .none
    · intro other transaction' id' different opened' locked locked'
      cases locked
      exact free (World.otherTransaction_iff.mpr
        ⟨other, transaction', by simpa using Ne.symm different, opened', locked'⟩)
    · intro _ _ _ _ _ locked
      simp [Transaction.lockedRows, empty] at locked

private theorem kept_insertRefund {new : NewRefund} {answer : Except DbError Unit}
    (ok : WorldOk world) (fits : Fits world new)
    (prepared : ∀ transaction, world.transaction call = some transaction →
      transaction.refundWrites = [] ∧ transaction.chargeLock = some new.chargeId)
    (executed : world.insertRefund call new = some (answer, after)) :
    Kept (some call) world after := by
  refine kept_inTransaction ok executed fun transaction opened executed => ?_
  obtain ⟨empty, locked⟩ := prepared transaction opened
  split at executed
  · cases executed
  split at executed
  · split at executed
    · cases executed
      exact .refl _ ok
    rename_i known
    split at executed
    · cases executed
      exact .refl _ ok
    split at executed
    · cases executed
      exact .refl _ ok
    cases executed
    have charged : new.chargeId ∈ world.charges.map Charge.id := by
      obtain ⟨charge, found⟩ := Option.ne_none_iff_exists'.mp (by simpa using known)
      obtain ⟨member, same⟩ := ChargeTable.mem_of_find? found
      exact List.mem_map.mpr ⟨charge, member, same⟩
    apply Kept.setTransaction ok
    · simp only [empty, List.nil_append]
      exact .insert ⟨fits.key, rfl, fits.status⟩ locked charged fits.room
    · intro other transaction' id different opened' ownLock otherLock
      exact different (ok.chargeLocks other call _ _ _ opened' opened otherLock ownLock)
    · intro _ _ _ _ _ locked
      simp [Transaction.lockedRows, empty] at locked
  · cases executed
    exact .refl _ ok

private theorem kept_insertTransition {refundId : Uuid} {toStatus : Status} {actor : String}
    {reason : Option String} {answer : Except DbError Unit} (ok : WorldOk world)
    (executed : world.insertTransition call refundId toStatus actor reason =
      some (answer, after)) : Kept (some call) world after := by
  refine kept_inTransaction ok executed fun transaction opened executed => ?_
  split at executed
  · cases executed
    apply Kept.advanceSequence
    apply Kept.setTransaction ok
    · exact ok.pending call transaction opened
    · intro other transaction' id' different opened' ownLock otherLock
      exact different (ok.chargeLocks other call _ _ _ opened' opened otherLock ownLock)
    · intro other transaction' id' different opened' ownLock otherLock
      exact different (ok.rowLocks other call _ _ _ opened' opened otherLock ownLock)
  · cases executed
    exact .refl _ ok

private theorem kept_applyMoved {update : RefundUpdate} {reason : Option String}
    {answer : Except DbError Unit} (ok : WorldOk world) (decides : update.decision ≠ none)
    (unwritten : ∀ transaction, world.transaction call = some transaction →
      transaction.refundWrites = [])
    (executed : world.applyMoved call update reason = some (answer, after)) :
    Kept (some call) world after := by
  refine kept_inTransaction ok executed fun transaction opened executed => ?_
  have empty := unwritten transaction opened
  obtain ⟨⟨gatewayRef, status⟩, decides⟩ := Option.ne_none_iff_exists'.mp decides
  split at executed
  · cases executed
  rename_i free
  cases executed
  apply Kept.advanceSequence
  have moved := world.database.refunds.filter_of_decision decides
  apply Kept.setTransaction ok
  · rcases moved with none | ⟨row, member, applies, only⟩
    · simp only [World.rows, empty, none, List.map_nil, List.append_nil]
      exact .none
    · simp only [World.rows, empty, only, List.map_cons, List.map_nil, List.nil_append]
      exact .update member applies decides
  · intro other transaction' id' different opened' ownLock otherLock
    exact different (ok.chargeLocks other call _ _ _ opened' opened otherLock ownLock)
  · intro other transaction' id' different opened' ownLock otherLock
    rcases moved with none | ⟨row, member, applies, only⟩
    · simp [World.rows, Transaction.lockedRows, empty, none] at ownLock
    · simp [World.rows, Transaction.lockedRows, empty, only] at ownLock
      subst ownLock
      exact free ⟨row, member, applies, World.otherTransaction_iff.mpr
        ⟨other, transaction', by simpa using Ne.symm different, opened', otherLock⟩⟩

/-- What a commit does to the rows: nothing, one new refund, or one decision. -/
inductive CommitRows (world : World) (transaction : Transaction) :
    Except DbError Unit → List Refund → Prop where
  | failed {error : DbError} : CommitRows world transaction (.error error) world.rows
  | nothing (empty : transaction.refundWrites = []) :
      CommitRows world transaction (.ok ()) world.rows
  | inserted {row : Refund} (writes : transaction.refundWrites = [.insert row])
      (unused : row.idempotencyKey ∉ world.rows.map Refund.idempotencyKey) :
      CommitRows world transaction (.ok ()) (world.rows ++ [row])
  | decided {row : Refund} {update : RefundUpdate} {writtenAt : Timestamp}
      (writes : transaction.refundWrites = [.update row.id update writtenAt]) :
      CommitRows world transaction (.ok ())
        (world.rows.map fun other =>
          if other.id = row.id then update.assign writtenAt other else other)

/-- A commit ends the transaction and changes nothing but rows and audit rows. -/
theorem commit_rows {transaction : Transaction} {answer : Except DbError Unit}
    (pending : PendingOk world transaction.chargeLock transaction.refundWrites)
    (opened : world.transaction call = some transaction)
    (executed : world.commit call = some (answer, after)) :
    CommitRows world transaction answer after.rows ∧ after.charges = world.charges ∧
      after.gateway = world.gateway ∧
      ∀ other, after.transaction other = (world.endTransaction call).transaction other := by
  simp only [World.commit, World.inTransaction, opened, Database.commit] at executed
  generalize written : transaction.refundWrites = writes at pending executed
  cases pending with
  | none =>
      cases executed
      exact ⟨.nothing written, rfl, rfl, fun _ => rfl⟩
  | @insert row new locked charged room =>
      cases inserted : world.database.refunds.insert row with
      | error error =>
          simp only [List.foldlM_cons, RefundTable.write, inserted] at executed
          cases executed
          exact ⟨.failed, rfl, rfl, fun _ => rfl⟩
      | ok refunds =>
          simp only [List.foldlM_cons, RefundTable.write, inserted] at executed
          cases executed
          obtain ⟨rows, unused⟩ := RefundTable.rows_of_insert inserted
          refine ⟨?_, rfl, rfl, fun _ => rfl⟩
          have result : CommitRows world transaction (.ok ()) _ := .inserted written unused
          rwa [World.rows, ← rows] at result
  | @update row update writtenAt gatewayRef status member applies decides =>
      cases revised : world.database.refunds.write (.update row.id update writtenAt) with
      | error error =>
          simp only [List.foldlM_cons, revised] at executed
          cases executed
          exact ⟨.failed, rfl, rfl, fun _ => rfl⟩
      | ok refunds =>
          simp only [List.foldlM_cons, revised] at executed
          cases executed
          refine ⟨?_, rfl, rfl, fun _ => rfl⟩
          have result : CommitRows world transaction (.ok ()) _ := .decided written
          rwa [World.rows, ← RefundTable.rows_of_revise revised] at result

private theorem kept_commit {answer : Except DbError Unit} (ok : WorldOk world)
    (executed : world.commit call = some (answer, after)) :
    Kept (some call) world after := by
  refine kept_inTransaction ok executed fun transaction opened _ => ?_
  have pending := ok.pending call transaction opened
  obtain ⟨rows, charges, gateway, transactions⟩ := commit_rows pending opened executed
  have others : ∀ other, some call ≠ some other →
      after.transaction other = world.transaction other := by
    intro other different
    rw [transactions, World.transaction_endTransaction_of_ne]
    rintro rfl
    exact different rfl
  have remaining : ∀ other transaction', after.transaction other = some transaction' →
      other ≠ call ∧ world.transaction other = some transaction' := by
    intro other transaction' opened'
    rw [transactions] at opened'
    exact World.transaction_of_endTransaction opened'
  have kept : ∀ other transaction', after.transaction other = some transaction' →
      world.transaction other = some transaction' :=
    fun other transaction' opened' => (remaining other transaction' opened').2
  generalize same : after.rows = finalRows at rows
  cases rows with
  | failed => exact .of_evolution ok (.still ok same charges gateway kept) others
  | nothing => exact .of_evolution ok (.still ok same charges gateway kept) others
  | @inserted row writes unused =>
      rw [writes] at pending
      cases pending with
      | insert new locked charged room =>
          refine .of_evolution ok (.appended ok new unused same charges gateway kept charged
            room ?_) others
          intro other transaction' opened' otherLock
          obtain ⟨different, opened'⟩ := remaining other transaction' opened'
          exact different (ok.chargeLocks other call _ _ _ opened' opened otherLock locked)
  | @decided row update writtenAt writes =>
      have locked : row.id ∈ transaction.lockedRows := by
        simp [Transaction.lockedRows, writes]
      rw [writes] at pending
      generalize row.id = id at pending same locked
      cases pending with
      | @update row _ _ gatewayRef status member applies decides =>
          refine .of_evolution ok (.inPlace ok same charges gateway kept ?_ ?_) others
          · intro other member'
            by_cases own : other.id = row.id
            · have isRow := world.database.refunds.eq_of_id member' member own
              subst isRow
              simp only [if_pos]
              refine (ok.row other member).assign applies ?_ writtenAt
              cases update <;> cases decides <;> trivial
            · simp only [if_neg own]
              exact ⟨ok.row other member', .refl other⟩
          · intro other transaction' opened' row' member' locked'
            obtain ⟨different, opened'⟩ := remaining other transaction' opened'
            rw [if_neg]
            intro same
            exact different (ok.rowLocks other call _ _ _ opened' opened (same ▸ locked') locked)

/-- A founded statement keeps the invariant and what the other calls rely on. -/
private theorem kept_execute {statement : Statement}
    {answer : Except DbError statement.Value} (ok : WorldOk world)
    (founded : Founded call world (.sql statement))
    (executed : world.execute call statement = some (answer, after)) :
    Kept (some call) world after := by
  cases statement with
  | getRefund | selectStuck | selectAmount | selectSettled =>
      cases executed
      exact .refl _ ok
  | updateRefunds update => exact kept_updateRefunds ok founded.1 executed
  | recordTransition refundId fromStatus toStatus actor =>
      simp only [World.execute, World.recordTransition] at executed
      split at executed
      · cases executed
        exact .of_eq ok rfl rfl rfl fun _ => rfl
      · cases executed
        exact .refl _ ok
  | insertWebhookEvent id =>
      simp only [World.execute, World.insertWebhookEvent] at executed
      split at executed
      · cases executed
        exact .refl _ ok
      · cases executed
        exact .of_eq ok rfl rfl rfl fun _ => rfl
  | begin =>
      cases executed
      exact .setTransaction ok .none (by simp) (by simp [Transaction.lockedRows])
  | lockCharge id => exact kept_lockCharge ok founded executed
  | sumRefunds chargeId =>
      refine kept_inTransaction ok executed fun _ _ executed => ?_
      cases executed
      exact .refl _ ok
  | insertRefund new => exact kept_insertRefund ok founded.1 founded.2 executed
  | insertTransition => exact kept_insertTransition ok executed
  | applyMoved update reason => exact kept_applyMoved ok founded.1 founded.2 executed
  | commit => exact kept_commit ok executed
  | rollback =>
      cases executed
      exact .endTransaction ok

end Statements

section Commands

variable {world after : World} {call : CallId}

private theorem evolution_gateway {gateway : MockGateway} (ok : WorldOk world)
    (consistent : gateway.Consistent)
    (objects : ∀ key refund, world.gateway.lookupByKey key = some refund →
      gateway.lookupByKey key = some refund)
    (rows : ∀ row ∈ world.rows, RowOk gateway row)
    (backed : ∀ key refund, gateway.lookupByKey key = some refund →
      ∃ row ∈ world.rows, row.idempotencyKey = key) :
    Evolution (fun _ => False) world { world with gateway := gateway } where
  charges := List.Subset.refl _
  grows := Grows.refl Advances.refl _
  row := rows
  charged := ok.charged
  captured := ok.captured
  consistent := consistent
  objects := objects
  backed := backed
  transactions _ _ opened := opened
  locked _ _ _ _ member _ := member
  elsewhere _ _ _ _ := False.elim

/-- A refund issued on a row's own terms, past review, agrees with every row. -/
private theorem kept_createRefund {amount : Int64} {currency key : String} (ok : WorldOk world)
    (founded : Founded call world (.createRefund amount currency key)) :
    Kept (some call) world
      { world with gateway := (world.gateway.createRefund amount currency key).2 } := by
  obtain ⟨row, member, rowKey, rowAmount, rowCurrency, past⟩ := founded
  refine .of_evolution ok (evolution_gateway ok (ok.consistent.createRefund _ _ _)
    (fun _ _ held => MockGateway.lookupByKey_createRefund _ _ _ _ held) ?_ ?_) fun _ _ => rfl
  all_goals
    rcases world.gateway.createRefund_cases amount currency key with
      ⟨_, _, result⟩ | ⟨_, _, result⟩ | ⟨unseen, _, result⟩
    all_goals rw [result]
  · exact ok.row
  · exact ok.row
  · intro other otherIn
    have otherOk := ok.row other otherIn
    by_cases own : other.idempotencyKey = key
    · have isRow : other = row := List.inj_on_of_nodup_map world.database.refunds.keys_nodup
        otherIn member (own.trans rowKey.symm)
      subst isRow
      have unrecorded : other.gatewayRef = none := by
        cases recorded : other.gatewayRef with
        | none => rfl
        | some gatewayRef =>
            obtain ⟨refund, held, _⟩ := otherOk.ref gatewayRef recorded
            simp [own, unseen] at held
      refine ⟨otherOk.key, fun early => absurd past (Nat.not_le_of_lt early),
        otherOk.decided, by simp [unrecorded], ?_, otherOk.small⟩
      rw [own, MockGateway.lookupByKey_issue_self]
      rintro refund ⟨rfl⟩
      exact ⟨rowAmount.symm, rowCurrency.symm⟩
    · have same := MockGateway.lookupByKey_issue_of_ne world.gateway amount currency own
      exact ⟨otherOk.key, by rw [same]; exact otherOk.unsent, otherOk.decided,
        by rw [same]; exact otherOk.ref, by rw [same]; exact otherOk.object, otherOk.small⟩
  · exact ok.backed
  · exact ok.backed
  · intro key' refund held
    by_cases own : key' = key
    · exact ⟨row, member, rowKey.trans own.symm⟩
    · rw [MockGateway.lookupByKey_issue_of_ne _ _ _ own] at held
      exact ok.backed key' refund held

/-- A founded command keeps the invariant and what the other calls rely on. -/
theorem Founded.kept {command : Command} {answer : command.Answer}
    (founded : Founded call world command) (ok : WorldOk world)
    (executed : command.execute call world = some (answer, after)) :
    Kept (some call) world after := by
  cases command with
  | sql statement => exact kept_execute ok founded executed
  | createRefund amount currency key =>
      cases executed
      exact kept_createRefund ok founded
  | lookupByKey key =>
      cases executed
      exact .refl _ ok

/-! ## The environment -/

private theorem refundedSoFar_of_unknown (ok : WorldOk world) {chargeId : Uuid}
    (unknown : chargeId ∉ world.charges.map Charge.id) :
    refundedSoFar world.rows chargeId = 0 := by
  rw [refundedSoFar_eq]
  apply List.sum_eq_zero
  intro value member
  obtain ⟨row, rowIn, rfl⟩ := List.mem_map.mp member
  have elsewhere : row.chargeId ≠ chargeId := fun same => unknown (same ▸ ok.charged row rowIn)
  simp [Refund.share, elsewhere]

private theorem kept_createCharge {charge : Charge} {charges : ChargeTable}
    (ok : WorldOk world) (inserted : world.database.charges.insert charge = .ok charges) :
    Kept none world
      { world with database := { world.database with charges := charges } } := by
  obtain ⟨rows, unknown⟩ := ChargeTable.rows_of_insert inserted
  have known : world.charges ⊆ charges.rows := by
    rw [rows]
    exact List.subset_append_left _ _
  have captured : ∀ other ∈ charges.rows,
      refundedSoFar world.rows other.id ≤ other.amountCaptured.toInt := by
    intro other member
    rw [rows] at member
    rcases List.mem_append.mp member with earlier | last
    · exact ok.captured other earlier
    · rw [List.mem_singleton.mp last]
      have nothing := refundedSoFar_of_unknown ok unknown
      have nonneg := Int64.le_iff_toInt_le.mp charge.amountCaptured_nonneg
      exact nothing.trans_le (by simpa using nonneg)
  have evolution : Evolution (fun _ => False) world
      { world with database := { world.database with charges := charges } } :=
    { charges := known
      grows := Grows.refl Advances.refl _
      row := ok.row
      charged := fun row member => List.map_subset _ known (ok.charged row member)
      captured := captured
      consistent := ok.consistent
      objects := fun _ _ held => held
      backed := ok.backed
      transactions := fun _ _ opened => opened
      locked := fun _ _ _ _ member _ => member
      elsewhere := fun _ _ _ _ => False.elim }
  exact .of_evolution ok evolution fun _ _ => rfl

private theorem kept_cancel {refundId : Uuid} {refunds : RefundTable} (ok : WorldOk world)
    (cancelable : Environment.Cancelable world refundId)
    (revised : world.database.refunds.revise (Environment.cancelRow refundId world.now) =
      .ok refunds) : Kept none world (world.setRefunds refunds) := by
  obtain ⟨row, member, rfl, status, unrecorded, unheld⟩ := cancelable
  have rows := RefundTable.rows_of_revise revised
  have isRow : ∀ other ∈ world.rows, other.id = row.id → other = row :=
    fun other otherIn same => world.database.refunds.eq_of_id otherIn member same
  refine .of_evolution ok (.inPlace ok rows rfl rfl (fun _ _ opened => opened) ?_ ?_)
    fun _ _ => rfl
  · intro other otherIn
    simp only [Environment.cancelRow]
    split
    · have same := isRow other otherIn ‹_›
      subst same
      have rowOk := ok.row other otherIn
      refine ⟨⟨rowOk.key, by simp [Status.rank], by simp, by simp [unrecorded],
        by simp [unheld], by simp⟩, ⟨rfl, rfl, rfl, rfl, rfl, rfl, fun _ same => same, .inr ?_⟩⟩
      rcases status with status | status | status <;> simp [status, Status.rank]
    · exact ⟨ok.row other otherIn, .refl other⟩
  · intro call transaction opened other otherIn locked
    simp only [Environment.cancelRow]
    rw [if_neg]
    intro own
    -- A locked row carries a reference, and a row with one is not canceled.
    have pending := ok.pending call transaction opened
    simp only [Transaction.lockedRows] at locked
    generalize transaction.refundWrites = writes at pending locked
    cases pending with
    | none | insert => simp at locked
    | @update written update _ _ _ writtenIn applies decides =>
        simp only [List.filterMap_cons, List.filterMap_nil, List.mem_singleton] at locked
        have recorded := RefundUpdate.gatewayRef_of_decision decides applies
        rw [isRow written writtenIn (locked.symm.trans own), unrecorded] at recorded
        cases recorded

/-- A step of the environment keeps the invariant and what the calls rely on. -/
theorem kept_act {action : Environment} (ok : WorldOk world)
    (acted : action.act world = some after) : Kept none world after := by
  cases action with
  | setConfig config =>
      cases acted
      exact .of_evolution ok (evolution_gateway ok (ok.consistent.setConfig config)
        (fun _ _ held => held)
        (fun row member => let rowOk := ok.row row member
          ⟨rowOk.key, rowOk.unsent, rowOk.decided, rowOk.ref, rowOk.object, rowOk.small⟩)
        ok.backed) fun _ _ => rfl
  | setClock now =>
      cases acted
      exact .of_eq ok rfl rfl rfl fun _ => rfl
  | createCharge charge =>
      simp only [Environment.act] at acted
      split at acted <;> cases acted
      exact kept_createCharge ok ‹_›
  | cancel refundId =>
      simp only [Environment.act] at acted
      split at acted
      · rename_i cancelable
        split at acted <;> cases acted
        exact kept_cancel ok cancelable ‹_›
      · cases acted
  | suspend =>
      rcases Environment.of_suspend acted with ⟨_, _, _, rfl⟩
      exact .of_eq ok rfl rfl rfl fun _ => rfl

end Commands

/-- Only a gateway call for the key puts an object under it. -/
theorem command_of_created {hmac : Hmac} {state next : EngineState} {event : EngineEvent}
    (step : (engine hmac).Step state event next) {key : String} {refund : GatewayRefund}
    (unheld : state.world.gateway.lookupByKey key = none)
    (held : next.world.gateway.lookupByKey key = some refund) :
    ∃ call operation amount currency outcome,
      event = .answered call operation (.createRefund amount currency key) outcome
        state.world := by
  have effect := stepEffect step
  generalize next.world = after at held effect
  cases effect with
  | same tables =>
      rw [tables.gateway] at held
      cases unheld.symm.trans held
  | executed effect =>
      cases effect with
      | same tables =>
          rw [tables.gateway] at held
          cases unheld.symm.trans held
      | updated | conflict | inserted | committed => cases unheld.symm.trans held
  | @requested call operation amount currency key' outcome =>
      by_cases own : key = key'
      · subst own
        exact ⟨call, operation, amount, currency, outcome, rfl⟩
      · rw [MockGateway.lookupByKey_createRefund_of_ne _ _ _ own] at held
        cases unheld.symm.trans held
  | configured | charged | canceled => cases unheld.symm.trans held

/-- Where a row found after a step comes from. -/
inductive RowOrigin (before : World) : EngineEvent → Refund → Prop where
  | kept {event : EngineEvent} {row : Refund} (member : row ∈ before.rows) :
      RowOrigin before event row
  | updated {call : CallId} {operation : Operation} {update : RefundUpdate} {row : Refund}
      (member : row ∈ before.rows) (applies : update.Applies row) :
      RowOrigin before
        (.answered call operation (.sql (.updateRefunds update)) (.ok ()) before)
        (update.assign before.now row)
  | decided {call : CallId} {operation : Operation} {transaction : Transaction}
      {update : RefundUpdate} {writtenAt : Timestamp} {row : Refund} {gatewayRef : String}
      {status : Status} (opened : before.transaction call = some transaction)
      (writes : transaction.refundWrites = [.update row.id update writtenAt])
      (member : row ∈ before.rows) (applies : update.Applies row)
      (decides : update.decision = some (gatewayRef, status)) :
      RowOrigin before (.answered call operation (.sql .commit) (.ok ()) before)
        (update.assign writtenAt row)
  | inserted {call : CallId} {operation : Operation} {transaction : Transaction}
      {row : Refund} (opened : before.transaction call = some transaction)
      (writes : transaction.refundWrites = [.insert row]) (new : row.New) :
      RowOrigin before (.answered call operation (.sql .commit) (.ok ()) before) row
  | canceled {row : Refund} (cancelable : Environment.Cancelable before row.id)
      (member : row ∈ before.rows) :
      RowOrigin before (.acted (.cancel row.id) before)
        { row with status := .canceled, updatedAt := before.now }

private theorem rowOrigin_of_committed {world : World} (ok : WorldOk world) {call : CallId}
    {operation : Operation} {transaction : Transaction} {database : Database}
    (opened : world.transaction call = some transaction)
    (committed : world.database.commit transaction = .ok database) {row : Refund}
    (member : row ∈ database.refunds.rows) :
    RowOrigin world (.answered call operation (.sql .commit) (.ok ()) world) row := by
  have pending := ok.pending call transaction opened
  have executed : world.commit call = some (.ok (),
      { (world.endTransaction call) with database := database }) := by
    simp only [World.commit, World.inTransaction, opened, committed]
  have rows := (commit_rows pending opened executed).1
  change CommitRows world transaction (.ok ()) database.refunds.rows at rows
  generalize database.refunds.rows = after at member rows
  cases rows with
  | nothing => exact .kept member
  | inserted writes unused =>
      have writes' := writes
      rw [writes] at pending
      cases pending with
      | insert new =>
          rcases List.mem_append.mp member with earlier | last
          · exact .kept earlier
          · rw [List.mem_singleton.mp last]
            exact .inserted opened writes' new
  | @decided target update writtenAt writes =>
      have writes' := writes
      rw [writes] at pending
      generalize target.id = id at pending member writes'
      cases pending with
      | @update target _ _ gatewayRef status targetIn applies decides =>
          obtain ⟨earlier, earlierIn, rfl⟩ := List.mem_map.mp member
          by_cases own : earlier.id = target.id
          · rw [if_pos own, world.database.refunds.eq_of_id earlierIn targetIn own]
            exact .decided opened writes' targetIn applies decides
          · rw [if_neg own]
            exact .kept earlierIn

/-- Every row found after a step has an origin before it. -/
theorem rowOrigin {hmac : Hmac} {state next : EngineState} {event : EngineEvent}
    (ok : WorldOk state.world) (step : (engine hmac).Step state event next) {row : Refund}
    (member : row ∈ next.world.rows) : RowOrigin state.world event row := by
  have effect := stepEffect step
  generalize next.world = after at member effect
  have kept : SameTables state.world after → RowOrigin state.world event row := by
    intro tables
    rw [World.rows, tables.refunds] at member
    exact .kept member
  cases effect with
  | same tables => exact kept tables
  | executed effect =>
      cases effect with
      | same tables => exact kept tables
      | conflict | inserted => exact .kept member
      | @updated update refunds revised =>
          rw [World.rows, World.setRefunds, RefundTable.rows_of_revise revised] at member
          obtain ⟨earlier, earlierIn, rfl⟩ := List.mem_map.mp member
          simp only [RefundUpdate.change]
          split
          · exact .updated earlierIn ‹_›
          · exact .kept earlierIn
      | committed opened committed => exact rowOrigin_of_committed ok opened committed member
  | requested | configured | charged => exact .kept member
  | canceled cancelable revised =>
      rw [World.rows, World.setRefunds, RefundTable.rows_of_revise revised] at member
      obtain ⟨earlier, earlierIn, rfl⟩ := List.mem_map.mp member
      simp only [Environment.cancelRow]
      split
      · rename_i own
        subst own
        exact .canceled cancelable earlierIn
      · exact .kept earlierIn

end RefundEngine
