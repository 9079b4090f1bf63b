import RefundEngine.Invariant.Row
import RefundEngine.Keyed

/-!
# The invariant of the shared world

Every row agrees with the gateway, the gateway holds nothing that no row asked for, no
charge is over-refunded, and what open transactions have written can still be committed.
`Evolution` collects what every command does to the world, so that the invariant and
what other calls rely on are derived once.
-/

namespace RefundEngine

open Interleaving (CallId)
open Growth (Grows)

namespace RefundTable

theorem eq_of_id (table : RefundTable) {left right : Refund} (leftIn : left ∈ table.rows)
    (rightIn : right ∈ table.rows) (same : left.id = right.id) : left = right :=
  List.inj_on_of_nodup_map table.ids_nodup leftIn rightIn same

theorem eq_of_gatewayRef (table : RefundTable) {left right : Refund} {gatewayRef : String}
    (leftIn : left ∈ table.rows) (rightIn : right ∈ table.rows)
    (leftRef : left.gatewayRef = some gatewayRef)
    (rightRef : right.gatewayRef = some gatewayRef) : left = right :=
  Keyed.eq_of_nodup_filterMap table.refs_nodup leftIn rightIn leftRef rightRef

theorem find?_eq_some {table : RefundTable} {id : Uuid} {row : Refund} :
    table.find? id = some row ↔ row ∈ table.rows ∧ row.id = id := by
  constructor
  · intro found
    exact ⟨List.mem_of_find?_eq_some found, by simpa using List.find?_some found⟩
  · rintro ⟨member, rfl⟩
    cases found : table.find? row.id with
    | none =>
        have := List.find?_eq_none.mp found row member
        simp at this
    | some other =>
        have same : other.id = row.id := by simpa using List.find?_some found
        rw [table.eq_of_id (List.mem_of_find?_eq_some found) member same]

theorem rows_of_revise {table after : RefundTable} {change : RowChange}
    (revised : table.revise change = .ok after) : after.rows = table.rows.map change.apply := by
  simp only [revise] at revised
  split at revised <;> cases revised
  rfl

theorem rows_of_insert {table after : RefundTable} {row : Refund}
    (inserted : table.insert row = .ok after) :
    after.rows = table.rows ++ [row] ∧ row.idempotencyKey ∉
      table.rows.map Refund.idempotencyKey := by
  simp only [insert] at inserted
  split at inserted
  · cases inserted
  · split at inserted
    · cases inserted
    · split at inserted <;> cases inserted
      exact ⟨rfl, ‹_›⟩

end RefundTable

namespace ChargeTable

theorem eq_of_id (table : ChargeTable) {left right : Charge} (leftIn : left ∈ table.rows)
    (rightIn : right ∈ table.rows) (same : left.id = right.id) : left = right :=
  List.inj_on_of_nodup_map table.ids_nodup leftIn rightIn same

theorem rows_of_insert {table after : ChargeTable} {charge : Charge}
    (inserted : table.insert charge = .ok after) :
    after.rows = table.rows ++ [charge] ∧ charge.id ∉ table.rows.map Charge.id := by
  simp only [insert] at inserted
  split at inserted <;> cases inserted
  exact ⟨rfl, ‹_›⟩

theorem mem_of_find? {table : ChargeTable} {id : Uuid} {charge : Charge}
    (found : table.find? id = some charge) : charge ∈ table.rows ∧ charge.id = id :=
  ⟨List.mem_of_find?_eq_some found, by simpa using List.find?_some found⟩

theorem find?_of_mem (table : ChargeTable) {id : Uuid} {charge : Charge}
    (member : charge ∈ table.rows) (same : charge.id = id) : table.find? id = some charge := by
  cases found : table.find? id with
  | none =>
      have missing := List.find?_eq_none.mp found charge member
      simp [same] at missing
  | some other =>
      rcases mem_of_find? found with ⟨otherIn, otherId⟩
      rw [table.eq_of_id otherIn member (otherId.trans same.symm)]

end ChargeTable

/-! ## The invariant -/

/-- The charges of the database. -/
def World.charges (world : World) : List Charge := world.database.charges.rows

/-- A row as `request_refund` inserts it. -/
structure Refund.New (row : Refund) : Prop where
  key : row.idempotencyKey = row.id.toString
  gatewayRef : row.gatewayRef = none
  status : row.status =
    if row.amountCents ≥ reviewThresholdCents then .pendingReview else .requested

theorem Refund.New.rowOk {gateway : MockGateway} {row : Refund} (new : row.New)
    (unheld : gateway.lookupByKey row.idempotencyKey = none) : RowOk gateway row where
  key := new.key
  unsent _ := ⟨new.gatewayRef, unheld⟩
  decided := by
    rw [new.status]
    split <;> simp
  ref := by simp [new.gatewayRef]
  object := by simp [unheld]
  small below := by
    have notAbove : ¬row.amountCents ≥ reviewThresholdCents := by
      rw [ge_iff_le, Int64.le_iff_toInt_le]
      have := Int64.lt_iff_toInt_lt.mp below
      omega
    rw [new.status, if_neg notAbove]
    simp

/-- The reference and the status of an update by which a webhook decides a refund. -/
def RefundUpdate.decision : RefundUpdate → Option (String × Status)
  | .settle gatewayRef => some (gatewayRef, .settled)
  | .fail gatewayRef _ => some (gatewayRef, .failed)
  | _ => none

section Decision

variable {update : RefundUpdate} {gatewayRef : String} {status : Status}

theorem RefundUpdate.gatewayRef_of_decision
    (decides : update.decision = some (gatewayRef, status)) {row : Refund}
    (applies : update.Applies row) : row.gatewayRef = some gatewayRef := by
  cases update with
  | settle | fail =>
      cases decides
      exact applies.1
  | _ => cases decides

theorem RefundUpdate.status_of_decision
    (decides : update.decision = some (gatewayRef, status)) (now : Timestamp) (row : Refund) :
    (update.assign now row).status = status := by
  cases update <;> cases decides <;> rfl

/-- A decision finds at most one row. -/
theorem RefundTable.filter_of_decision (table : RefundTable)
    (decides : update.decision = some (gatewayRef, status)) :
    (table.rows.filter fun row => update.Applies row) = [] ∨
      ∃ row ∈ table.rows, update.Applies row ∧
        (table.rows.filter fun row => update.Applies row) = [row] := by
  have found : ∀ row ∈ table.rows.filter fun row => update.Applies row,
      row ∈ table.rows ∧ update.Applies row := by simp
  have nodup : (table.rows.filter fun row => update.Applies row).Nodup :=
    (table.ids_nodup.of_map _).filter _
  generalize (table.rows.filter fun row => update.Applies row) = rows at found nodup
  match rows with
  | [] => exact .inl rfl
  | [row] => exact .inr ⟨row, (found row (by simp)).1, (found row (by simp)).2, rfl⟩
  | first :: second :: _ =>
      obtain ⟨firstIn, firstApplies⟩ := found first (by simp)
      obtain ⟨secondIn, secondApplies⟩ := found second (by simp)
      have same := table.eq_of_gatewayRef firstIn secondIn
        (RefundUpdate.gatewayRef_of_decision decides firstApplies)
        (RefundUpdate.gatewayRef_of_decision decides secondApplies)
      simp [same] at nodup

end Decision

/-- What an open transaction may have written to `refunds`: nothing, one new refund that
fits the locked charge, or one decision on a row that still admits it. -/
inductive PendingOk (world : World) (chargeLock : Option Uuid) : List RefundWrite → Prop where
  | none : PendingOk world chargeLock []
  | insert {row : Refund} (new : row.New)
      (locked : chargeLock = some row.chargeId)
      (charged : row.chargeId ∈ world.charges.map Charge.id)
      (room : ∀ charge ∈ world.charges, charge.id = row.chargeId →
        refundedSoFar world.rows charge.id + row.amountCents.toInt ≤
          charge.amountCaptured.toInt) :
      PendingOk world chargeLock [.insert row]
  | update {row : Refund} {update : RefundUpdate} {writtenAt : Timestamp}
      {gatewayRef : String} {status : Status} (member : row ∈ world.rows)
      (applies : update.Applies row)
      (decides : update.decision = some (gatewayRef, status)) :
      PendingOk world chargeLock [.update row.id update writtenAt]

theorem PendingOk.congr {world after : World} {chargeLock : Option Uuid}
    {writes : List RefundWrite} (pending : PendingOk world chargeLock writes)
    (rows : after.rows = world.rows) (charges : after.charges = world.charges) :
    PendingOk after chargeLock writes := by
  cases pending with
  | none => exact .none
  | insert new locked charged room =>
      exact .insert new locked (by rwa [charges]) (by rwa [charges, rows])
  | update member applies decides => exact .update (by rwa [rows]) applies decides

/-- The invariant of the world. -/
structure WorldOk (world : World) : Prop where
  consistent : world.gateway.Consistent
  row : ∀ row ∈ world.rows, RowOk world.gateway row
  backed : ∀ key refund, world.gateway.lookupByKey key = some refund →
    ∃ row ∈ world.rows, row.idempotencyKey = key
  charged : ∀ row ∈ world.rows, row.chargeId ∈ world.charges.map Charge.id
  captured : ∀ charge ∈ world.charges,
    refundedSoFar world.rows charge.id ≤ charge.amountCaptured.toInt
  pending : ∀ call transaction, world.transaction call = some transaction →
    PendingOk world transaction.chargeLock transaction.refundWrites
  chargeLocks : ∀ call other transaction transaction' id,
    world.transaction call = some transaction →
    world.transaction other = some transaction' → transaction.chargeLock = some id →
    transaction'.chargeLock = some id → call = other
  rowLocks : ∀ call other transaction transaction' id,
    world.transaction call = some transaction →
    world.transaction other = some transaction' → id ∈ transaction.lockedRows →
    id ∈ transaction'.lockedRows → call = other

theorem WorldOk.unheld {world : World} (ok : WorldOk world) {key : String}
    (unused : key ∉ world.rows.map Refund.idempotencyKey) :
    world.gateway.lookupByKey key = none := by
  cases held : world.gateway.lookupByKey key with
  | none => rfl
  | some refund =>
      obtain ⟨row, member, same⟩ := ok.backed key refund held
      exact (unused (same ▸ List.mem_map_of_mem member)).elim

/-- What a command does to the world, as seen by everyone: rows advance and fresh rows
are appended, the gateway forgets nothing, locked rows stand still, and no row is
added to a charge that someone else has locked. -/
structure Evolution (fresh : Refund → Prop) (before after : World) : Prop where
  charges : before.charges ⊆ after.charges
  grows : Grows Advances fresh before.rows after.rows
  row : ∀ row ∈ after.rows, RowOk after.gateway row
  charged : ∀ row ∈ after.rows, row.chargeId ∈ after.charges.map Charge.id
  captured : ∀ charge ∈ after.charges,
    refundedSoFar after.rows charge.id ≤ charge.amountCaptured.toInt
  consistent : after.gateway.Consistent
  objects : ∀ key refund, before.gateway.lookupByKey key = some refund →
    after.gateway.lookupByKey key = some refund
  backed : ∀ key refund, after.gateway.lookupByKey key = some refund →
    ∃ row ∈ after.rows, row.idempotencyKey = key
  transactions : ∀ call transaction, after.transaction call = some transaction →
    before.transaction call = some transaction
  locked : ∀ call transaction, after.transaction call = some transaction →
    ∀ row ∈ before.rows, row.id ∈ transaction.lockedRows → row ∈ after.rows
  elsewhere : ∀ call transaction, after.transaction call = some transaction →
    ∀ row, fresh row → transaction.chargeLock ≠ some row.chargeId

/-- How the world may change at all: nothing is forgotten and rows only advance. -/
structure Later (before after : World) : Prop where
  charges : before.charges ⊆ after.charges
  forward : ∀ row ∈ before.rows, ∃ row' ∈ after.rows, Advances row row'
  objects : ∀ key refund, before.gateway.lookupByKey key = some refund →
    after.gateway.lookupByKey key = some refund

theorem Later.refl (world : World) : Later world world :=
  ⟨List.Subset.refl _, fun row member => ⟨row, member, .refl row⟩, fun _ _ held => held⟩

theorem Later.trans {first second third : World} (left : Later first second)
    (right : Later second third) : Later first third where
  charges := List.Subset.trans left.charges right.charges
  forward row member := by
    obtain ⟨row', member', advances⟩ := left.forward row member
    obtain ⟨row'', member'', advances'⟩ := right.forward row' member'
    exact ⟨row'', member'', advances.trans advances'⟩
  objects key refund held := right.objects key refund (left.objects key refund held)

/-- What a call relies on while others run: no row is added to a charge it has locked,
and its own transaction is left alone. -/
structure RelyWorld (call : CallId) (before after : World) : Prop where
  charges : before.charges ⊆ after.charges
  grows : Grows Advances
    (fun row => ∀ transaction, before.transaction call = some transaction →
      transaction.chargeLock ≠ some row.chargeId) before.rows after.rows
  objects : ∀ key refund, before.gateway.lookupByKey key = some refund →
    after.gateway.lookupByKey key = some refund
  own : after.transaction call = before.transaction call

namespace RelyWorld

theorem refl (call : CallId) (world : World) : RelyWorld call world world where
  charges := List.Subset.refl _
  grows := Grows.refl Advances.refl _
  objects _ _ held := held
  own := rfl

theorem trans {call : CallId} {first second third : World}
    (left : RelyWorld call first second) (right : RelyWorld call second third) :
    RelyWorld call first third where
  charges := List.Subset.trans left.charges right.charges
  grows := by
    refine Grows.trans (fun _ _ _ => Advances.trans) ?_ left.grows ?_
    · intro row row' advances elsewhere
      rwa [advances.chargeId]
    · rw [← left.own]
      exact right.grows
  objects key refund held := right.objects key refund (left.objects key refund held)
  own := right.own.trans left.own

theorem of_eq {call : CallId} {before after : World} (rows : after.rows = before.rows)
    (charges : after.charges = before.charges) (gateway : after.gateway = before.gateway)
    (own : after.transaction call = before.transaction call) :
    RelyWorld call before after where
  charges := by rw [charges]; exact List.Subset.refl _
  grows := by rw [rows]; exact Grows.refl Advances.refl _
  objects := by rw [gateway]; exact fun _ _ held => held
  own := own

/-- While a call holds a charge locked, the sum over it never rises. -/
theorem refundedSoFar_le {call : CallId} {before after : World}
    (rely : RelyWorld call before after) {transaction : Transaction} {chargeId : Uuid}
    (opened : before.transaction call = some transaction)
    (locked : transaction.chargeLock = some chargeId) :
    refundedSoFar after.rows chargeId ≤ refundedSoFar before.rows chargeId :=
  refundedSoFar_le_of_grows chargeId
    (fun _ elsewhere same => elsewhere transaction opened (same ▸ locked)) rely.grows

end RelyWorld

namespace Evolution

variable {fresh : Refund → Prop} {before after : World}

/-- A transaction's writes stay committable as the world evolves around it. -/
theorem pending (evolution : Evolution fresh before after) {call : CallId}
    {transaction : Transaction} (opened : after.transaction call = some transaction)
    (ok : PendingOk before transaction.chargeLock transaction.refundWrites) :
    PendingOk after transaction.chargeLock transaction.refundWrites := by
  have standing := evolution.locked call transaction opened
  have elsewhere := evolution.elsewhere call transaction opened
  simp only [Transaction.lockedRows] at standing
  generalize transaction.refundWrites = writes at ok standing
  cases ok with
  | none => exact .none
  | @insert row new locked charged room =>
      obtain ⟨known, knownIn, knownId⟩ := List.mem_map.mp charged
      refine .insert new locked (List.mem_map.mpr ⟨known, evolution.charges knownIn, knownId⟩) ?_
      intro charge member same
      have isKnown : charge = known :=
        after.database.charges.eq_of_id member (evolution.charges knownIn)
          (same.trans knownId.symm)
      subst isKnown
      have falls := refundedSoFar_le_of_grows charge.id
        (fun row' isFresh same' => elsewhere row' isFresh (by rw [same', same]; exact locked))
        evolution.grows
      have room := room charge knownIn same
      omega
  | @update row update writtenAt gatewayRef status member applies decides =>
      exact .update (standing row member (by simp)) applies decides

/-- The invariant is kept by every evolution. -/
theorem worldOk (evolution : Evolution fresh before after) (ok : WorldOk before) :
    WorldOk after where
  consistent := evolution.consistent
  row := evolution.row
  backed := evolution.backed
  charged := evolution.charged
  captured := evolution.captured
  pending call transaction opened :=
    evolution.pending opened
      (ok.pending call transaction (evolution.transactions call transaction opened))
  chargeLocks call other transaction transaction' id opened opened' :=
    ok.chargeLocks call other transaction transaction' id
      (evolution.transactions _ _ opened) (evolution.transactions _ _ opened')
  rowLocks call other transaction transaction' id opened opened' :=
    ok.rowLocks call other transaction transaction' id
      (evolution.transactions _ _ opened) (evolution.transactions _ _ opened')

/-- Calls whose own transaction is untouched can rely on an evolution. -/
theorem rely (evolution : Evolution fresh before after) {call : CallId}
    (own : after.transaction call = before.transaction call) :
    RelyWorld call before after where
  charges := evolution.charges
  grows := evolution.grows.mono (fun _ _ advances => advances) fun row isFresh transaction
    opened => evolution.elsewhere call transaction (own.trans opened) row isFresh
  objects := evolution.objects
  own := own

theorem later (evolution : Evolution fresh before after) : Later before after :=
  ⟨evolution.charges, fun _ member => evolution.grows.forward member, evolution.objects⟩

theorem still (ok : WorldOk before) (rows : after.rows = before.rows)
    (charges : after.charges = before.charges) (gateway : after.gateway = before.gateway)
    (transactions : ∀ call transaction, after.transaction call = some transaction →
      before.transaction call = some transaction) :
    Evolution (fun _ => False) before after where
  charges := by rw [charges]; exact List.Subset.refl _
  grows := by rw [rows]; exact Grows.refl Advances.refl _
  row := by rw [rows, gateway]; exact ok.row
  charged := by rw [rows, charges]; exact ok.charged
  captured := by rw [rows, charges]; exact ok.captured
  consistent := by rw [gateway]; exact ok.consistent
  objects := by rw [gateway]; exact fun _ _ held => held
  backed := by rw [rows, gateway]; exact ok.backed
  transactions := transactions
  locked _ _ _ row member _ := by rwa [rows]
  elsewhere _ _ _ _ := False.elim

theorem inPlace (ok : WorldOk before) {change : Refund → Refund}
    (rows : after.rows = before.rows.map change)
    (charges : after.charges = before.charges) (gateway : after.gateway = before.gateway)
    (transactions : ∀ call transaction, after.transaction call = some transaction →
      before.transaction call = some transaction)
    (keeps : ∀ row ∈ before.rows,
      RowOk before.gateway (change row) ∧ Advances row (change row))
    (locked : ∀ call transaction, after.transaction call = some transaction →
      ∀ row ∈ before.rows, row.id ∈ transaction.lockedRows → change row = row) :
    Evolution (fun _ => False) before after := by
  have grows : Grows Advances (fun _ => False) before.rows after.rows := by
    rw [rows]
    exact Grows.map _ _ fun row member => (keeps row member).2
  have falls : ∀ chargeId, refundedSoFar after.rows chargeId ≤
      refundedSoFar before.rows chargeId :=
    fun chargeId => refundedSoFar_le_of_grows chargeId (fun _ => False.elim) grows
  refine ⟨?_, grows, ?_, ?_, ?_, ?_, ?_, ?_, transactions, ?_, fun _ _ _ _ => False.elim⟩
  · rw [charges]
    exact List.Subset.refl _
  · rw [rows, gateway]
    intro row member
    obtain ⟨earlier, earlierIn, rfl⟩ := List.mem_map.mp member
    exact (keeps earlier earlierIn).1
  · rw [rows, charges]
    intro row member
    obtain ⟨earlier, earlierIn, rfl⟩ := List.mem_map.mp member
    rw [(keeps earlier earlierIn).2.chargeId]
    exact ok.charged earlier earlierIn
  · rw [charges]
    exact fun charge member => (falls charge.id).trans (ok.captured charge member)
  · rw [gateway]
    exact ok.consistent
  · rw [gateway]
    exact fun _ _ held => held
  · rw [gateway]
    intro key refund held
    obtain ⟨row, member, rfl⟩ := ok.backed key refund held
    obtain ⟨row', member', advances⟩ := grows.forward member
    exact ⟨row', member', advances.idempotencyKey⟩
  · intro call transaction opened row member isLocked
    rw [rows]
    exact List.mem_map.mpr ⟨row, member, locked call transaction opened row member isLocked⟩

/-- A new refund for a charge with room, which no remaining transaction has locked. -/
theorem appended (ok : WorldOk before) {row : Refund} (new : row.New)
    (unusedKey : row.idempotencyKey ∉ before.rows.map Refund.idempotencyKey)
    (rows : after.rows = before.rows ++ [row])
    (charges : after.charges = before.charges) (gateway : after.gateway = before.gateway)
    (transactions : ∀ call transaction, after.transaction call = some transaction →
      before.transaction call = some transaction)
    (charged : row.chargeId ∈ before.charges.map Charge.id)
    (room : ∀ charge ∈ before.charges, charge.id = row.chargeId →
      refundedSoFar before.rows charge.id + row.amountCents.toInt ≤
        charge.amountCaptured.toInt)
    (unlocked : ∀ call transaction, after.transaction call = some transaction →
      transaction.chargeLock ≠ some row.chargeId) :
    Evolution (fun other => other = row) before after := by
  have unheld := ok.unheld unusedKey
  refine ⟨?_, ?_, ?_, ?_, ?_, ?_, ?_, ?_, transactions, ?_, ?_⟩
  · rw [charges]
    exact List.Subset.refl _
  · rw [rows]
    exact Grows.append Advances.refl _ rfl
  · rw [rows, gateway]
    intro other member
    rcases List.mem_append.mp member with earlier | last
    · exact ok.row other earlier
    · rw [List.mem_singleton.mp last]
      exact new.rowOk unheld
  · rw [rows, charges]
    intro other member
    rcases List.mem_append.mp member with earlier | last
    · exact ok.charged other earlier
    · rw [List.mem_singleton.mp last]
      exact charged
  · rw [rows, charges]
    intro charge member
    rw [refundedSoFar_append]
    by_cases own : charge.id = row.chargeId
    · have fits := room charge member own
      have share := row.share_le charge.id
      omega
    · rw [Refund.share_of_ne (Ne.symm own), add_zero]
      exact ok.captured charge member
  · rw [gateway]
    exact ok.consistent
  · rw [gateway]
    exact fun _ _ held => held
  · rw [rows, gateway]
    intro key refund held
    obtain ⟨other, member, same⟩ := ok.backed key refund held
    exact ⟨other, List.mem_append_left _ member, same⟩
  · intro _ _ _ other member _
    rw [rows]
    exact List.mem_append_left _ member
  · rintro call transaction opened other rfl
    exact unlocked call transaction opened

end Evolution

end RefundEngine
