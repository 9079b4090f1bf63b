import RefundEngine.RequestSteps

/-!
# Where a request is decided

Whatever runs at the same time, a request gets what it would get at once when one of its
statements takes effect: the lock finds no charge, the sum refuses it, the insert fails, or the
commit goes through.
-/

namespace RefundEngine

open Interleaving (CallId own)

/-- The time at which the transaction of a call began. -/
def World.began (world : World) (call : CallId) : Timestamp :=
  match world.transaction call with
  | some transaction => transaction.began
  | none => world.now

/-- What a request would do to the committed tables at once. -/
def RefundRequest.atOnce (request : RefundRequest) (call : CallId) (world : World) :
    Except RefundError Reply × Ledger :=
  (Ledger.of world).request request (world.began call)

/-- The statement is where a request with the given result is decided. -/
def Statement.decides : Statement → Except RefundError Reply → Bool
  | .lockCharge _, .error (.chargeNotFound _) => true
  | .sumRefunds _, .error (.currencyMismatch _ _) => true
  | .sumRefunds _, .error (.overRefund _ _ _) => true
  | .insertRefund _, .error (.db _) => true
  | .commit, _ => true
  | _, _ => false

theorem Statement.error_of_decides {statement : Statement} {result : Except RefundError Reply}
    (decided : statement.decides result = true) (uncommitted : statement ≠ .commit) :
    ∃ error, result = .error error := by
  cases result with
  | error error => exact ⟨error, rfl⟩
  | ok reply =>
      cases statement with
      | commit => exact (uncommitted rfl).elim
      | _ => cases decided

section Decision

variable {hmac : Hmac} {trace : List EngineEvent} {state : EngineState} {call : CallId}
variable {request : RefundRequest} {after : World}

/-- The lock finds no charge exactly when the request would fail for that. -/
theorem EngineRun.lock_decides (run : EngineRun hmac trace state) {operation : Operation}
    {began : World} {rest : List EngineEvent}
    (behind : own call trace =
      .answered call operation (.sql .begin) (.ok ()) began :: rest)
    {answer : Except DbError (Option (Int64 × String))}
    (executed : state.world.execute call (.lockCharge request.chargeId) = some (answer, after)) :
    (answer = .ok none ∧
      (request.atOnce call state.world).1 = .error (.chargeNotFound request.chargeId)) ∨
    ((∃ found, answer = .ok (some found)) ∧
      (Statement.lockCharge request.chargeId).decides (request.atOnce call state.world).1 =
        false) := by
  have linked := run.recalled.linked call
  rw [behind] at linked
  have opened := transaction_of_began linked
  simp only [World.execute, World.lockCharge, World.inTransaction, opened] at executed
  cases found : state.world.database.charges.find? request.chargeId with
  | none =>
      simp only [found] at executed
      cases executed
      left
      refine ⟨rfl, ?_⟩
      simp only [RefundRequest.atOnce, Ledger.request, Ledger.of, found]
  | some charge =>
      simp only [found] at executed
      split at executed
      · cases executed
      · cases executed
        right
        refine ⟨⟨_, rfl⟩, ?_⟩
        rw [RefundRequest.atOnce, Ledger.request_of_found found]
        split_ifs <;> rfl

/-- The sum refuses a request exactly when it would be refused at once. -/
theorem EngineRun.sum_decides (run : EngineRun hmac trace state) {operation : Operation}
    {captured : Int64} {currency : String} {began locked : World} {rest : List EngineEvent}
    (behind : own call trace =
      .answered call operation (.sql (.lockCharge request.chargeId))
          (.ok (some (captured, currency))) locked ::
        .answered call operation (.sql .begin) (.ok ()) began :: rest)
    {answer : Except DbError Int64}
    (executed : state.world.execute call (.sumRefunds request.chargeId) = some (answer, after)) :
    ∃ total, answer = .ok total ∧
      (request.currency ≠ currency → (request.atOnce call state.world).1 =
        .error (.currencyMismatch request.currency currency)) ∧
      (request.currency = currency → request.amountCents > captured - total →
        (request.atOnce call state.world).1 =
          .error (.overRefund request.chargeId request.amountCents (captured - total))) ∧
      (request.currency = currency → request.amountCents ≤ captured - total →
        (Statement.sumRefunds request.chargeId).decides (request.atOnce call state.world).1 =
          false) := by
  have linked := run.recalled.linked call
  rw [behind] at linked
  rcases transaction_of_locked linked (transaction_of_began linked.2) with
    ⟨opened, charge, member, same, rfl, rfl⟩
  have found := state.world.database.charges.find?_of_mem member same
  rcases run.worldOk.remaining member with ⟨total, cast, _, remaining, _, _⟩
  simp only [World.execute, World.sumRefunds, World.inTransaction, opened, ← same, cast] at executed
  cases executed
  have remaining' : (Ledger.of state.world).remaining charge =
      (charge.amountCaptured - total).toInt := remaining.symm
  refine ⟨total, rfl, ?_, ?_, ?_⟩
  · intro differs
    rw [RefundRequest.atOnce, Ledger.request_of_found found, if_pos differs]
  · intro agrees exceeds
    have exceeds' := Int64.lt_iff_toInt_lt.mp exceeds
    rw [RefundRequest.atOnce, Ledger.request_of_found found, if_neg (not_not.mpr agrees),
      remaining', if_pos exceeds', Int64.ofInt_toInt]
  · intro agrees fits
    have fits' := not_lt.mpr (Int64.le_iff_toInt_le.mp fits)
    rw [RefundRequest.atOnce, Ledger.request_of_found found, if_neg (not_not.mpr agrees),
      remaining', if_neg fits']
    split_ifs <;> rfl

/-- The insert fails exactly when the request would at once. -/
theorem EngineRun.insert_decides (run : EngineRun hmac trace state) {reading : Reading}
    (behind : own call trace = reading.events call request) (admits : reading.Admits request)
    {answer : Except DbError Unit}
    (executed : state.world.execute call (.insertRefund request.newRefund) =
      some (answer, after)) :
    (answer = .ok () ∧ (Statement.insertRefund request.newRefund).decides
      (request.atOnce call state.world).1 = false) ∨
    ∃ error, answer = .error error ∧
      (request.atOnce call state.world).1 = .error (.db error) := by
  have linked := run.recalled.linked call
  rw [behind] at linked
  rcases Reading.of_events linked with ⟨opened, charge, read⟩
  have fits : ¬(Ledger.of state.world).remaining charge < request.amountCents.toInt :=
    not_lt.mpr (Reading.fits linked admits read)
  have agrees := admits.currency.trans read.currency.symm
  have known : ¬(state.world.database.charges.find? request.newRefund.chargeId).isNone = true := by
    have found : state.world.database.charges.find? request.newRefund.chargeId = some charge :=
      read.found
    rw [found]
    simp
  rw [RefundRequest.atOnce, Ledger.request_of_found read.found, if_neg (not_not.mpr agrees),
    if_neg fits]
  simp only [World.execute, World.insertRefund, World.inTransaction, opened, if_neg known] at executed
  split at executed
  · cases executed
  by_cases positive : 0 < request.amountCents
  · have positive' : 0 < request.newRefund.amountCents := positive
    rw [dif_pos positive'] at executed
    rw [dif_pos positive]
    have inserted : Transaction.insertedRows
        { began := reading.began.now, chargeLock := some request.chargeId } = [] := rfl
    simp only [inserted, List.not_mem_nil, or_false] at executed
    by_cases taken : request.refundId ∈ (Ledger.of state.world).refunds.map Refund.id
    · have idTaken : request.newRefund.id ∈ state.world.rows.map Refund.id := taken
      rw [if_pos idTaken] at executed
      cases executed
      exact .inr ⟨_, rfl, by rw [if_pos taken]⟩
    · have idFree : request.newRefund.id ∉ state.world.rows.map Refund.id := taken
      have keyFree : request.newRefund.idempotencyKey ∉
          state.world.rows.map Refund.idempotencyKey := run.worldOk.key_unused taken
      rw [if_neg idFree, if_neg keyFree] at executed
      cases executed
      exact .inl ⟨rfl, by rw [if_neg taken]; rfl⟩
  · have notPositive : ¬0 < request.newRefund.amountCents := positive
    rw [dif_neg notPositive] at executed
    cases executed
    exact .inr ⟨_, rfl, by rw [dif_neg positive]⟩

theorem EngineRun.transition_inserted (run : EngineRun hmac trace state) {reading : Reading}
    {inserting : World} (behind : own call trace = reading.inserted call request inserting)
    {toStatus : Status} {actor : String} {reason : Option String} {answer : Except DbError Unit}
    (executed : state.world.execute call
      (.insertTransition request.refundId toStatus actor reason) = some (answer, after)) :
    answer = .ok () := by
  have linked := run.recalled.linked call
  rw [behind] at linked
  rcases Reading.of_inserted linked with ⟨positive, opened, _⟩
  have inserted : request.refundId ∈ state.world.rows.map Refund.id ∨
      request.refundId ∈ Transaction.insertedRows
        { began := reading.began.now
          chargeLock := some request.chargeId
          refundWrites := [.insert (request.row positive reading.began.now)] } := by
    right
    simp [Transaction.insertedRows, RefundRequest.row]
  simp only [World.execute, World.insertTransition, World.inTransaction, opened,
    if_pos inserted] at executed
  cases executed
  rfl

/-- The commit does what the request would do at once. -/
theorem EngineRun.commit_decides (run : EngineRun hmac trace state) {reading : Reading}
    {inserting recording : World}
    (behind : own call trace = reading.recorded call request inserting recording)
    (admits : reading.Admits request) {answer : Except DbError Unit}
    (executed : state.world.execute call .commit = some (answer, after)) :
    request.atOnce call state.world =
      ((liftDb answer).map fun _ => .refundId request.refundId, Ledger.of after) := by
  have linked := run.recalled.linked call
  rw [behind] at linked
  rcases Reading.of_recorded linked with
    ⟨positive, audit, opened, own', line, charge, read⟩
  have agrees := admits.currency.trans read.currency.symm
  have began : state.world.began call = reading.began.now := by
    rw [World.began, opened]
  rw [RefundRequest.atOnce, began]
  cases answer with
  | ok value =>
      exact Ledger.of_commit_request run.worldOk run.numbered opened rfl rfl own' line
        read.member read.id agrees executed
  | error error =>
      exact Ledger.of_commit_taken run.worldOk opened rfl read.member read.id agrees executed

/-- A statement changes the ledger where it decides the request, and as the request would. -/
theorem EngineRun.request_step (run : EngineRun hmac trace state) {statement : Statement}
    (next : RequestStep call request (own call trace) statement)
    {answer : Except DbError statement.Value}
    (executed : state.world.execute call statement = some (answer, after)) :
    Ledger.of after =
      if statement.decides (request.atOnce call state.world).1 then
        (request.atOnce call state.world).2
      else Ledger.of state.world := by
  by_cases commits : statement = .commit
  · subst commits
    generalize behind : own call trace = events at next
    cases next with
    | commit admits =>
        rw [run.commit_decides behind admits executed]
        rfl
  · have plain : Plain statement := by
      generalize own call trace = events at next
      cases next <;> trivial
    rw [Ledger.of_plain request.operation plain commits executed]
    split
    · rename_i decided
      rcases Statement.error_of_decides decided commits with ⟨error, refused⟩
      exact (Ledger.snd_request_of_error refused).symm
    · rfl

theorem EngineRun.request_refused (run : EngineRun hmac trace state) {statement : Statement}
    (next : RequestStep call request (own call trace) statement) {error : DbError}
    (executed : state.world.execute call statement = some (.error error, after)) :
    statement.decides (request.atOnce call state.world).1 = true ∧
      (request.atOnce call state.world).1 = .error (.db error) := by
  generalize behind : own call trace = events at next
  cases next with
  | begin | rollback => cases executed
  | lockCharge =>
      rcases run.lock_decides behind executed with ⟨answer, _⟩ | ⟨⟨found, answer⟩, _⟩
      · cases answer
      · cases answer
  | sumRefunds =>
      rcases run.sum_decides behind executed with ⟨total, answer, _⟩
      cases answer
  | insertRefund admits =>
      rcases run.insert_decides behind admits executed with ⟨answer, _⟩ | ⟨_, answer, refused⟩
      · cases answer
      · cases answer
        rw [refused]
        exact ⟨rfl, rfl⟩
  | insertTransition =>
      cases run.transition_inserted behind executed
  | commit admits =>
      rw [run.commit_decides behind admits executed]
      exact ⟨rfl, rfl⟩

end Decision

end RefundEngine
