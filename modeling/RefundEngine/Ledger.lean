import Mathlib.Data.List.Chain
import RefundEngine.AllOrNothing
import RefundEngine.Audit.Numbered

/-!
# The ledger

Charges, refunds and the trail of each refund, without transactions, locks or sequences.  A
request is one check and insert, and a webhook one change of the refund it finds.  A commit does
to the committed tables what its call does to the ledger.
-/

namespace RefundEngine

open Interleaving (CallId)

/-- What an audit row says, its id apart. -/
structure AuditLine where
  fromStatus : Option Status
  toStatus : Status
  actor : String
  reason : Option String
  deriving DecidableEq

def Transition.line (audit : Transition) : AuditLine where
  fromStatus := audit.fromStatus
  toStatus := audit.toStatus
  actor := audit.actor
  reason := audit.reason

/-- Charges and refunds, what the audit rows of each refund say, oldest first, and the status
the newest of them names. -/
structure Ledger where
  charges : ChargeTable
  refunds : List Refund
  audits : Uuid → List AuditLine
  latest : Uuid → Option Status

/-- The audit row that the request of a refund writes. -/
def RefundRequest.line (request : RefundRequest) : AuditLine where
  fromStatus := none
  toStatus := request.initialStatus
  actor := request.actor
  reason := request.reasonCode

namespace Ledger

/-- The committed tables as a ledger. -/
def of (world : World) : Ledger where
  charges := world.database.charges
  refunds := world.rows
  audits refundId := (trail world.database.transitions refundId).map Transition.line
  latest := newestStatus world.database.transitions

/-- Append to the trail of a refund. -/
def record (ledger : Ledger) (refundId : Uuid) (line : AuditLine) : Ledger :=
  { ledger with
    audits := Function.update ledger.audits refundId (ledger.audits refundId ++ [line])
    latest := Function.update ledger.latest refundId (some line.toStatus) }

/-- What is left of a charge. -/
def remaining (ledger : Ledger) (charge : Charge) : Int :=
  charge.amountCaptured.toInt - refundedSoFar ledger.refunds charge.id

/-- A request as one check and insert. -/
def request (ledger : Ledger) (request : RefundRequest) (began : Timestamp) :
    Except RefundError Reply × Ledger :=
  match ledger.charges.find? request.chargeId with
  | none => (.error (.chargeNotFound request.chargeId), ledger)
  | some charge =>
      if request.currency ≠ charge.currency then
        (.error (.currencyMismatch request.currency charge.currency), ledger)
      else if ledger.remaining charge < request.amountCents.toInt then
        (.error (.overRefund request.chargeId request.amountCents
          (Int64.ofInt (ledger.remaining charge))), ledger)
      else if positive : 0 < request.amountCents then
        if request.refundId ∈ ledger.refunds.map Refund.id then
          (.error (.db (.uniqueViolation "refunds_pkey")), ledger)
        else
          (.ok (.refundId request.refundId),
            { ledger with refunds := ledger.refunds ++ [request.row positive began] }.record
              request.refundId request.line)
      else (.error (.db (.checkViolation "refunds_amount_cents_check")), ledger)

/-- The audit row of a refund that a webhook moves. -/
def moveLine (ledger : Ledger) (update : RefundUpdate) (reason : Option String)
    (began : Timestamp) (row : Refund) : AuditLine where
  fromStatus := ledger.latest row.id
  toStatus := (update.assign began row).status
  actor := "webhook"
  reason := reason

/-- A webhook as one change: the refunds it applies to are assigned, each with an audit row. -/
def webhook (ledger : Ledger) (event : WebhookEvent) (began : Timestamp) : Ledger :=
  match event.update with
  | none => ledger
  | some (update, reason) =>
      (ledger.refunds.filter fun row => update.Applies row).foldl
        (fun after row => after.record row.id (ledger.moveLine update reason began row))
        { ledger with refunds := ledger.refunds.map (update.change began).apply }

section Request

variable {ledger : Ledger} {request : RefundRequest} {began : Timestamp} {charge : Charge}

theorem request_of_found (found : ledger.charges.find? request.chargeId = some charge) :
    ledger.request request began =
      if request.currency ≠ charge.currency then
        (.error (.currencyMismatch request.currency charge.currency), ledger)
      else if ledger.remaining charge < request.amountCents.toInt then
        (.error (.overRefund request.chargeId request.amountCents
          (Int64.ofInt (ledger.remaining charge))), ledger)
      else if positive : 0 < request.amountCents then
        if request.refundId ∈ ledger.refunds.map Refund.id then
          (.error (.db (.uniqueViolation "refunds_pkey")), ledger)
        else
          (.ok (.refundId request.refundId),
            { ledger with refunds := ledger.refunds ++ [request.row positive began] }.record
              request.refundId request.line)
      else (.error (.db (.checkViolation "refunds_amount_cents_check")), ledger) := by
  simp only [Ledger.request, found]

theorem snd_request_of_error {error : RefundError}
    (refused : (ledger.request request began).1 = .error error) :
    (ledger.request request began).2 = ledger := by
  cases found : ledger.charges.find? request.chargeId with
  | none => simp only [Ledger.request, found]
  | some charge =>
      rw [request_of_found found] at refused ⊢
      split_ifs at refused ⊢
      all_goals rfl

end Request

section Commit

variable {watched : Prop} {world after : World} {call : CallId} {transaction : Transaction}

theorem of_congr (charges : after.database.charges = world.database.charges)
    (rows : after.rows = world.rows)
    (transitions : after.database.transitions = world.database.transitions) :
    of after = of world := by
  simp only [of, charges, rows, transitions]

/-- A statement that neither updates refunds by itself, nor records that it did, nor commits
leaves the ledger alone. -/
theorem of_plain (operation : Operation) {statement : Statement}
    {answer : Except DbError statement.Value} (plain : Plain statement)
    (uncommitted : statement ≠ .commit)
    (executed : world.execute call statement = some (answer, after)) : of after = of world := by
  have transitions : after.database.transitions = world.database.transitions ++
      appended (.answered call operation (.sql statement) answer world) :=
    transitions_of_execute executed
  rcases tables_of_plain plain uncommitted executed with ⟨rows, none⟩
  rw [none, List.append_nil] at transitions
  apply of_congr _ rows transitions
  cases statementEffect executed with
  | same tables => exact tables.charges
  | updated => exact plain.elim
  | conflict | inserted => rfl
  | committed => exact (uncommitted rfl).elim

theorem of_uncommitted {error : DbError}
    (executed : world.execute call .commit = some (.error error, after)) : of after = of world := by
  simp only [World.execute, World.commit, World.inTransaction] at executed
  split at executed
  · split at executed
    · cases executed
    · cases executed
      rfl
  · cases executed
    rfl

/-- Appending the newest audit row of a refund appends to its trail. -/
theorem of_concat {audit : Transition} (charges : after.database.charges = world.database.charges)
    (transitions : after.database.transitions = world.database.transitions ++ [audit])
    (newest : ∀ earlier ∈ world.database.transitions, earlier.refundId = audit.refundId →
      earlier.id < audit.id) :
    of after = { of world with refunds := after.rows }.record audit.refundId audit.line := by
  simp only [of, record, charges, transitions, mk.injEq, true_and]
  constructor
  · funext refundId
    by_cases own : refundId = audit.refundId
    · rw [own, Function.update_self, trail_concat_self newest, List.map_append,
        List.map_singleton]
    · rw [Function.update_of_ne own, trail_concat_other (Ne.symm own)]
  · funext refundId
    by_cases own : refundId = audit.refundId
    · rw [own, Function.update_self, newestStatus_concat_self newest]
      rfl
    · rw [Function.update_of_ne own, newestStatus_concat_other (Ne.symm own)]

section Request

variable {request : RefundRequest} {positive : 0 < request.amountCents} {began : Timestamp}
variable {charge : Charge}

theorem request_of_pending (ok : WorldOk world) (opened : world.transaction call = some transaction)
    (writes : transaction.refundWrites = [.insert (request.row positive began)])
    (charged : charge ∈ world.charges) (same : charge.id = request.chargeId)
    (currency : request.currency = charge.currency) :
    (of world).request request began =
      if request.refundId ∈ world.rows.map Refund.id then
        (.error (.db (.uniqueViolation "refunds_pkey")), of world)
      else
        (.ok (.refundId request.refundId),
          { of world with refunds := world.rows ++ [request.row positive began] }.record
            request.refundId request.line) := by
  have found : (of world).charges.find? request.chargeId = some charge :=
    world.database.charges.find?_of_mem charged same
  have fits : ¬(of world).remaining charge < request.amountCents.toInt := by
    have pending := ok.pending call transaction opened
    rw [writes] at pending
    cases pending with
    | insert new locked inside room =>
        have room' : refundedSoFar world.rows charge.id + request.amountCents.toInt ≤
            charge.amountCaptured.toInt := room charge charged same
        have expand : (of world).remaining charge =
            charge.amountCaptured.toInt - refundedSoFar world.rows charge.id := rfl
        omega
  rw [request_of_found found, if_neg (not_not.mpr currency), if_neg fits, dif_pos positive]
  rfl

/-- Committing a request is its check and insert. -/
theorem of_commit_request (ok : WorldOk world) (numbered : Numbered watched world)
    (opened : world.transaction call = some transaction)
    (writes : transaction.refundWrites = [.insert (request.row positive began)])
    {audit : Transition} (staged : transaction.transitionWrites = [audit])
    (own : audit.refundId = request.refundId) (line : audit.line = request.line)
    (charged : charge ∈ world.charges) (same : charge.id = request.chargeId)
    (currency : request.currency = charge.currency) {value : Unit}
    (executed : world.execute call .commit = some (.ok value, after)) :
    (of world).request request began = (.ok (.refundId request.refundId), of after) := by
  have committed := (commit_rows (ok.pending call transaction opened) opened executed).1
  have unused : request.refundId ∉ world.rows.map Refund.id :=
    ((ids_of_commitRows ok opened committed).2 rfl _ writes).1
  have rows : after.rows = world.rows ++ [request.row positive began] := by
    generalize after.rows = rows at committed
    cases committed with
    | nothing empty => cases writes.symm.trans empty
    | inserted writes' =>
        cases writes.symm.trans writes'
        rfl
    | decided writes' => cases writes.symm.trans writes'
  rcases commit_ok executed with ⟨transaction', refunds, opened', _, tables⟩
  cases opened.symm.trans opened'
  rw [request_of_pending ok opened writes charged same currency, if_neg unused, ← rows, ← own,
    ← line]
  congr 1
  symm
  apply of_concat
  · rw [tables]
  · rw [tables, ← staged]
  · intro earlier member same'
    rw [← own, ← same'] at unused
    exact (unused (numbered.known earlier member)).elim

theorem insert_taken (ok : WorldOk world) {error : DbError}
    (refused : world.database.refunds.insert (request.row positive began) = .error error) :
    request.refundId ∈ world.rows.map Refund.id ∧
      error = .uniqueViolation "refunds_pkey" := by
  by_cases taken : request.refundId ∈ world.rows.map Refund.id
  · have idTaken : (request.row positive began).id ∈
        world.database.refunds.rows.map Refund.id := taken
    simp only [RefundTable.insert, dif_pos idTaken] at refused
    cases refused
    exact ⟨taken, rfl⟩
  · have idFree : (request.row positive began).id ∉
        world.database.refunds.rows.map Refund.id := taken
    have keyFree : (request.row positive began).idempotencyKey ∉
        world.database.refunds.rows.map Refund.idempotencyKey := ok.key_unused taken
    have refs : ((world.database.refunds.rows ++ [request.row positive began]).filterMap
        Refund.gatewayRef).Nodup := by
      rw [List.filterMap_append]
      simpa [RefundRequest.row] using world.database.refunds.refs_nodup
    simp only [RefundTable.insert, dif_neg idFree, dif_neg keyFree, dif_pos refs] at refused
    cases refused

theorem of_commit_taken (ok : WorldOk world) (opened : world.transaction call = some transaction)
    (writes : transaction.refundWrites = [.insert (request.row positive began)])
    (charged : charge ∈ world.charges) (same : charge.id = request.chargeId)
    (currency : request.currency = charge.currency) {error : DbError}
    (executed : world.execute call .commit = some (.error error, after)) :
    (of world).request request began = (.error (.db error), of after) := by
  simp only [World.execute, World.commit, World.inTransaction, opened, Database.commit, writes,
    List.foldlM_cons, List.foldlM_nil, RefundTable.write] at executed
  cases inserted : world.database.refunds.insert (request.row positive began) with
  | ok refunds =>
      rw [inserted] at executed
      cases executed
  | error refused =>
      rw [inserted] at executed
      cases executed
      rcases insert_taken ok inserted with ⟨taken, rfl⟩
      rw [request_of_pending ok opened writes charged same currency, if_pos taken]
      rfl

end Request

section Webhook

variable {update : RefundUpdate} {row : Refund} {gatewayRef : String} {status : Status}

theorem applies_iff (table : RefundTable) (decides : update.decision = some (gatewayRef, status))
    (member : row ∈ table.rows) (applies : update.Applies row) {other : Refund}
    (inside : other ∈ table.rows) : update.Applies other ↔ other.id = row.id := by
  constructor
  · intro matching
    have recorded := RefundUpdate.gatewayRef_of_decision decides applies
    have recorded' := RefundUpdate.gatewayRef_of_decision decides matching
    rw [table.eq_of_gatewayRef inside member recorded' recorded]
  · intro same
    rw [table.eq_of_id inside member same]
    exact applies

theorem filter_of_applies (table : RefundTable)
    (decides : update.decision = some (gatewayRef, status)) (member : row ∈ table.rows)
    (applies : update.Applies row) :
    (table.rows.filter fun other => update.Applies other) = [row] := by
  have inside : row ∈ table.rows.filter fun other => update.Applies other :=
    List.mem_filter.mpr ⟨member, decide_eq_true applies⟩
  rcases table.filter_of_decision decides with none | ⟨only, _, _, one⟩
  · rw [none] at inside
    cases inside
  · rw [one, List.mem_singleton] at inside
    rw [one, inside]

theorem webhook_of_applies {event : WebhookEvent} {reason : Option String} {began : Timestamp}
    (updates : event.update = some (update, reason))
    (decides : update.decision = some (gatewayRef, status)) (member : row ∈ world.rows)
    (applies : update.Applies row) :
    (of world).webhook event began =
      { of world with
        refunds := world.rows.map fun other : Refund =>
          if other.id = row.id then update.assign began other else other }.record row.id
        ((of world).moveLine update reason began row) := by
  have moved : ((of world).refunds.filter fun other => update.Applies other) = [row] :=
    filter_of_applies world.database.refunds decides member applies
  have changed : (of world).refunds.map (update.change began).apply =
      world.rows.map fun other =>
        if other.id = row.id then update.assign began other else other := by
    apply List.map_congr_left
    intro other inside
    simp only [RefundUpdate.change,
      applies_iff world.database.refunds decides member applies inside]
  simp only [webhook, updates, moved, List.foldl_cons, List.foldl_nil, changed]

/-- Committing what a webhook has moved is its change. -/
theorem of_commit_webhook (ok : WorldOk world) (numbered : Numbered True world)
    (opened : world.transaction call = some transaction) {event : WebhookEvent}
    {reason : Option String} (updates : event.update = some (update, reason))
    {refundId : Uuid} (writes : transaction.refundWrites = [.update refundId update
      transaction.began])
    {audit : Transition} (staged : transaction.transitionWrites = [audit])
    (actor : audit.actor = "webhook") (reason' : audit.reason = reason) {value : Unit}
    (executed : world.execute call .commit = some (.ok value, after)) :
    of after = (of world).webhook event transaction.began := by
  have pending := ok.pending call transaction opened
  have committed := (commit_rows pending opened executed).1
  have accompanies := (numbered.staged call transaction opened audit (by simp [staged])).2
  rcases commit_ok executed with ⟨transaction', refunds, opened', _, tables⟩
  cases opened.symm.trans opened'
  rw [writes] at pending accompanies
  cases pending with
  | @update row _ _ gatewayRef status member applies decides =>
      cases accompanies with
      | deciding decides' own reached newest source =>
          have rows : after.rows = world.rows.map fun other =>
              if other.id = row.id then update.assign transaction.began other else other := by
            generalize after.rows = rows at committed
            cases committed with
            | nothing empty => cases writes.symm.trans empty
            | inserted writes' => cases writes.symm.trans writes'
            | decided writes' =>
                have same := writes.symm.trans writes'
                simp only [List.cons.injEq, RefundWrite.update.injEq, and_true] at same
                rw [same.1, same.2.1, same.2.2]
          have line : audit.line = (of world).moveLine update reason transaction.began row := by
            rw [Transition.line, moveLine, source trivial, reached, actor, reason',
              RefundUpdate.status_of_decision decides']
            rfl
          rw [webhook_of_applies updates decides member applies, ← rows, ← own, ← line]
          apply of_concat
          · rw [tables]
          · rw [tables, staged]
          · intro earlier inside same
            exact newest trivial earlier inside (same.trans own)

end Webhook

end Commit

/-- The lines of a refund lead on from one another, and the status on record is the last one's. -/
structure Linked (ledger : Ledger) (refundId : Uuid) : Prop where
  known : refundId ∈ ledger.refunds.map Refund.id
  nodup : (ledger.refunds.map Refund.id).Nodup
  chained : (ledger.audits refundId).IsChain fun earlier later =>
    later.fromStatus = some earlier.toStatus
  latest : ledger.latest refundId = (ledger.audits refundId).getLast?.map AuditLine.toStatus

namespace Linked

variable {ledger : Ledger} {refundId other : Uuid} {line : AuditLine}

theorem of_refunds (linked : ledger.Linked refundId) (refunds : List Refund)
    (known : refundId ∈ refunds.map Refund.id) (nodup : (refunds.map Refund.id).Nodup) :
    Ledger.Linked { ledger with refunds := refunds } refundId :=
  { linked with known, nodup }

theorem record_other (linked : ledger.Linked refundId) (different : refundId ≠ other)
    (line : AuditLine) :
    (ledger.record other line).Linked refundId where
  known := linked.known
  nodup := linked.nodup
  chained := by
    simp only [Ledger.record, Function.update_of_ne different]
    exact linked.chained
  latest := by
    simp only [Ledger.record, Function.update_of_ne different]
    exact linked.latest

theorem record_others {rows : List Refund} {line : Refund → AuditLine}
    (absent : refundId ∉ rows.map Refund.id) (linked : ledger.Linked refundId) :
    (rows.foldl (fun after row => after.record row.id (line row)) ledger).Linked refundId ∧
      (rows.foldl (fun after row => after.record row.id (line row)) ledger).latest refundId =
        ledger.latest refundId := by
  induction rows generalizing ledger with
  | nil => exact ⟨linked, rfl⟩
  | cons row rows ih =>
      rw [List.map_cons, List.mem_cons, not_or] at absent
      rcases ih absent.2 (linked.record_other absent.1 (line row)) with ⟨kept, same⟩
      exact ⟨kept, same.trans (Function.update_of_ne absent.1 ..)⟩

theorem record (linked : ledger.Linked refundId)
    (source : line.fromStatus = ledger.latest refundId) :
    (ledger.record refundId line).Linked refundId where
  known := linked.known
  nodup := linked.nodup
  chained := by
    simp only [Ledger.record, Function.update_self]
    apply linked.chained.append (List.isChain_singleton _)
    intro earlier last later only
    cases Option.mem_some_iff.mp only
    rw [source, linked.latest, Option.mem_def.mp last]
    rfl
  latest := by
    simp only [Ledger.record, Function.update_self, List.getLast?_append, List.getLast?_singleton,
      Option.some_or, Option.map_some]

theorem request (linked : ledger.Linked refundId) (request : RefundRequest) (began : Timestamp) :
    (ledger.request request began).2.Linked refundId := by
  cases result : (ledger.request request began).1 with
  | error error =>
      rw [snd_request_of_error result]
      exact linked
  | ok reply =>
      cases found : ledger.charges.find? request.chargeId with
      | none =>
          simp only [Ledger.request, found] at result
          cases result
      | some charge =>
          rw [request_of_found found] at result ⊢
          split_ifs at result ⊢ with mismatch exceeds positive taken
          have different : refundId ≠ request.refundId := fun same => taken (same ▸ linked.known)
          refine record_other (linked.of_refunds _ ?_ ?_) different _
          · rw [List.map_append]
            exact List.mem_append_left _ linked.known
          · exact nodup_map_append linked.nodup taken

/-- A webhook appends at most one line to the trail of a refund, which leads on from the last. -/
theorem webhook (linked : ledger.Linked refundId) (event : WebhookEvent) (began : Timestamp) :
    (ledger.webhook event began).Linked refundId := by
  unfold Ledger.webhook
  split
  · exact linked
  · rename_i update reason asks
    have ids : (ledger.refunds.map (update.change began).apply).map Refund.id =
        ledger.refunds.map Refund.id := by
      simp only [List.map_map, Function.comp_def, RowChange.apply_id]
    have changed := linked.of_refunds (ledger.refunds.map (update.change began).apply)
      (ids ▸ linked.known) (ids ▸ linked.nodup)
    have nodup : ((ledger.refunds.filter fun row => update.Applies row).map Refund.id).Nodup :=
      linked.nodup.sublist (List.filter_sublist.map _)
    generalize (ledger.refunds.filter fun row => update.Applies row) = moved at nodup
    by_cases inside : refundId ∈ moved.map Refund.id
    · rcases List.mem_map.mp inside with ⟨row, member, rfl⟩
      rcases List.append_of_mem member with ⟨before, after, rfl⟩
      simp only [List.map_append, List.map_cons, List.nodup_append, List.nodup_cons] at nodup
      have unused : row.id ∉ before.map Refund.id :=
        fun earlier => nodup.2.2 _ earlier _ (List.mem_cons_self ..) rfl
      rcases record_others unused changed with ⟨kept, same⟩
      rw [List.foldl_append, List.foldl_cons]
      exact (record_others nodup.2.1.1 (kept.record same.symm)).1
    · exact (record_others inside changed).1

end Linked

end Ledger

end RefundEngine
