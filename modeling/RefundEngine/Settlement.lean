import RefundEngine.Audit.Origin
import RefundEngine.DeliveryOrder

/-!
# Settlement on the gateway's word

Who may settle or fail a refund.  The row changes when a delivery commits; that delivery has
verified its signature and inserted the id of its event, so among all deliveries of one event
it is the only one that ever gets to apply it.
-/

namespace RefundEngine

open Interleaving (CallId Machine Event own mem_own own_append_cons eq_of_own_length)

/-- The call that took a step, and its operation. -/
def callOf : EngineEvent → Option (CallId × Operation)
  | .started call operation => some (call, operation)
  | .answered call operation _ _ _ => some (call, operation)
  | .failed call operation _ => some (call, operation)
  | .finished call operation _ => some (call, operation)
  | .died call operation => some (call, operation)
  | .acted _ _ => none

/-- The step runs, or tries, a statement that applies an event. -/
def Applying (step : EngineEvent) : Prop :=
  ∃ update reason, step.command? = some (.sql (.applyMoved update reason))

/-- The step is one of a delivery that has verified its signature and inserted the id of its
event. -/
def Delivering (hmac : Hmac) (trace : List EngineEvent) (step : EngineEvent) (call : CallId)
    (event : WebhookEvent) : Prop :=
  ∃ rawBody sig secret, callOf step = some (call, .handleWebhook event rawBody sig secret) ∧
    verifySignature hmac rawBody sig secret = true ∧
    Inserted call (.handleWebhook event rawBody sig secret) event trace

/-- What a refund was agreed and submitted as. -/
def Refund.terms (row : Refund) : Uuid × Int64 × String × Option String × String × String :=
  (row.id, row.amountCents, row.currency, row.gatewayRef, row.idempotencyKey, row.requestedBy)

/-- The `refunds` table as the transaction of a call sees it. -/
def World.seenBy (world : World) (call : CallId) : Except DbError RefundTable :=
  (((world.transaction call).map Transaction.refundWrites).getD []).foldlM RefundTable.write
    world.database.refunds

/-- An update reaches at most one row, leaves the terms of every row, and comes with one audit
row for each row it reaches. -/
def Moves (update : RefundUpdate) (rows after : List Refund) (audits : List Transition) : Prop :=
  ∃ changed writtenAt, changed.length ≤ 1 ∧ changed ⊆ rows ∧
    after = rows.map (fun row => if row ∈ changed then update.assign writtenAt row else row) ∧
    audits.map Transition.refundId = changed.map Refund.id ∧
    after.map Refund.terms = rows.map Refund.terms

section Applying

variable {hmac : Hmac} {trace : List EngineEvent} {state : EngineState} {step : EngineEvent}

/-- Behind every statement that applies an event stand the three steps of its delivery. -/
theorem EngineRun.deduped_of_applying (run : EngineRun hmac trace state)
    (applying : Applying step) {newer earlier : List EngineEvent}
    (split : trace = newer ++ step :: earlier) :
    ∃ call operation update reason, callOf step = some (call, operation) ∧
      step.command? = some (.sql (.applyMoved update reason)) ∧
      Deduped call operation (own call earlier) hmac update reason := by
  rcases applying with ⟨update, reason, attempted⟩
  rcases run with ⟨_, _, _, run⟩
  have respected := (engineContract_upheld hmac).respected (fun _ => rfl) run
  rw [split] at respected
  have permits := respected.permits_of_append
  cases step with
  | answered call operation command answer before =>
      cases attempted
      exact ⟨call, operation, update, reason, rfl, rfl, permits⟩
  | failed call operation command =>
      cases attempted
      exact ⟨call, operation, update, reason, rfl, rfl, permits⟩
  | started | finished | died | acted => cases attempted

theorem EngineRun.delivering_of_applying (run : EngineRun hmac trace state)
    (member : step ∈ trace) (applying : Applying step) :
    ∃ call event, Delivering hmac trace step call event ∧ ∃ newer earlier,
      trace = newer ++ step :: earlier ∧ (own call earlier).length = 3 := by
  rcases List.append_of_mem member with ⟨newer, earlier, split⟩
  rcases run.deduped_of_applying applying split with
    ⟨call, _, update, reason, taken, _, event, rawBody, sig, secret, seen, before, began, rfl,
      verified, _, behind⟩
  have inserted : .answered call (.handleWebhook event rawBody sig secret)
      (.sql (.insertWebhookEvent event.id)) (.ok (some seen)) before ∈ own call earlier := by
    rw [behind]
    simp
  refine ⟨call, event, ⟨rawBody, sig, secret, taken, verified, seen, before, ?_⟩, newer, earlier,
    split, by rw [behind]; rfl⟩
  rw [split]
  exact List.mem_append_right _ (List.mem_cons_of_mem _ (mem_own.mp inserted).1)

/-- Two statements that apply events with one id are the same step of one call. -/
theorem EngineRun.applying_unique (run : EngineRun hmac trace state) {step' : EngineEvent}
    (member : step ∈ trace) (member' : step' ∈ trace) (applying : Applying step)
    (applying' : Applying step') {call call' : CallId} {event event' : WebhookEvent}
    {rawBody rawBody' secret secret' : Bytes} {sig sig' : String}
    (taken : callOf step = some (call, .handleWebhook event rawBody sig secret))
    (taken' : callOf step' = some (call', .handleWebhook event' rawBody' sig' secret'))
    (same : event.id = event'.id) : call = call' ∧ step = step' := by
  rcases run.delivering_of_applying member applying with
    ⟨_, _, ⟨_, _, _, owner, _, inserted⟩, newer, earlier, split, length⟩
  rcases run.delivering_of_applying member' applying' with
    ⟨_, _, ⟨_, _, _, owner', _, inserted'⟩, newer', earlier', split', length'⟩
  cases taken.symm.trans owner
  cases taken'.symm.trans owner'
  have insertedSame : Inserted call' (.handleWebhook event' rawBody' sig' secret') event trace := by
    rw [Inserted, same]
    exact inserted'
  rcases run.inserted_once inserted insertedSame with ⟨rfl, _⟩
  have caller : ∀ {step : EngineEvent} {call operation},
      callOf step = some (call, operation) → step.caller = some call := by
    intro step call operation taken
    cases step <;> cases taken <;> rfl
  exact ⟨rfl, eq_of_own_length split split' (caller taken) (caller taken')
    (length.trans length'.symm)⟩

end Applying

section Moves

variable {update : RefundUpdate} {gatewayRef : String} {status : Status}

theorem Refund.terms_assign (decides : update.decision = some (gatewayRef, status))
    (now : Timestamp) (row : Refund) : (update.assign now row).terms = row.terms := by
  cases update <;> cases decides <;> rfl

theorem moves_of_decision (decides : update.decision = some (gatewayRef, status))
    {rows changed : List Refund} {audits : List Transition} {writtenAt : Timestamp}
    (few : changed.length ≤ 1) (inside : changed ⊆ rows)
    (audited : audits.map Transition.refundId = changed.map Refund.id) :
    Moves update rows
      (rows.map fun row => if row ∈ changed then update.assign writtenAt row else row)
      audits := by
  refine ⟨changed, writtenAt, few, inside, rfl, audited, ?_⟩
  rw [List.map_map]
  apply List.map_congr_left
  intro row _
  simp only [Function.comp_apply]
  split
  · exact Refund.terms_assign decides _ _
  · rfl

theorem RefundTable.length_filter_of_decision (table : RefundTable)
    (decides : update.decision = some (gatewayRef, status)) :
    (table.rows.filter fun row => update.Applies row).length ≤ 1 := by
  rcases table.filter_of_decision decides with none | ⟨row, _, _, only⟩
  · rw [none]
    exact Nat.zero_le 1
  · rw [only]
    exact Nat.le_refl 1

variable {hmac : Hmac} {call : CallId} {operation : Operation} {before : World}
variable {trace : List EngineEvent} {state next : EngineState} {reason : Option String}

/-- Within its transaction, a statement that applies an event moves at most one refund. -/
theorem EngineRun.applied_moves (run : EngineRun hmac trace state)
    (step : (engine hmac).Step state
      (.answered call operation (.sql (.applyMoved update reason)) (.ok ()) state.world) next) :
    next.world.database.refunds = state.world.database.refunds ∧
      next.world.database.transitions = state.world.database.transitions ∧
      ∃ table, next.world.seenBy call = .ok table ∧
        Moves update state.world.rows table.rows (next.world.staged call) := by
  have later := run.cons step trivial
  rcases run.permits step with ⟨event, _, _, _, _, _, began, _, _, updates, behind⟩
  rcases WebhookEvent.decision_of_update updates with ⟨status, decides⟩
  have linked := later.recalled.linked call
  rw [Interleaving.own_cons_self rfl, behind] at linked
  rcases transaction_of_delivery linked with ⟨audits, opened, audited, _⟩
  have tables : next.world.database.refunds = state.world.database.refunds ∧
      next.world.database.transitions = state.world.database.transitions := by
    cases step with
    | answer running executed =>
        rcases tables_of_applyMoved executed with ⟨refunds, transitions, _⟩
        exact ⟨refunds, transitions⟩
  refine ⟨tables.1, tables.2, ?_⟩
  rcases state.world.database.refunds.write_decided decides began.now with
    ⟨table, written, rows⟩
  refine ⟨table, ?_, ?_⟩
  · rw [World.seenBy, opened, tables.1]
    exact written
  · have staged : next.world.staged call = audits := by
      rw [World.staged_of_opened opened]
    have reaches : ∀ row ∈ state.world.rows, (update.change began.now).apply row =
        if row ∈ state.world.rows.filter fun row => update.Applies row
        then update.assign began.now row else row := by
      intro row member
      simp only [RefundUpdate.change, List.mem_filter, member, true_and, decide_eq_true_eq]
    rw [rows, staged, ← World.rows, List.map_congr_left reaches]
    exact moves_of_decision decides
      (state.world.database.refunds.length_filter_of_decision decides)
      (List.filter_subset_self _) audited

private theorem EngineRun.moves_of_commit (run : EngineRun hmac trace state)
    (decides : update.decision = some (gatewayRef, status)) {answer : Except DbError Unit}
    (applied : .answered call operation (.sql (.applyMoved update reason)) answer before ∈ trace)
    {transaction : Transaction} {writtenAt : Timestamp} {audits : List Transition}
    (opened : state.world.transaction call = some transaction)
    (writes : transaction.refundWrites =
      (before.rows.filter fun row => update.Applies row).map fun row =>
        .update row.id update writtenAt)
    (audited : audits.map Transition.refundId =
      (before.rows.filter fun row => update.Applies row).map Refund.id)
    (step : (engine hmac).Step state
      (.answered call operation (.sql .commit) (.ok ()) state.world) next) :
    Moves update state.world.rows next.world.rows audits := by
  have found := before.database.refunds.filter_of_decision decides
  rw [← World.rows] at found
  cases step with
  | @answer _ _ _ _ _ world running executed =>
      have rows := (commit_rows (run.worldOk.pending call transaction opened) opened executed).1
      generalize world.rows = after at rows ⊢
      rcases found with none | ⟨row, member, applies, only⟩
      · rw [none] at writes audited
        cases rows with
        | nothing empty =>
            have same : state.world.rows = state.world.rows.map fun row =>
                if row ∈ ([] : List Refund) then update.assign writtenAt row else row := by
              simp
            rw [same]
            nth_rewrite 1 [← same]
            exact moves_of_decision decides (Nat.zero_le 1) (List.nil_subset _) audited
        | inserted writes' =>
            rw [writes] at writes'
            cases writes'
        | decided writes' =>
            rw [writes] at writes'
            cases writes'
      · rw [only] at writes audited
        cases rows with
        | nothing empty =>
            rw [writes] at empty
            cases empty
        | inserted writes' =>
            rw [writes] at writes'
            cases writes'
        | decided writes' =>
            rw [writes] at writes'
            simp only [List.map_cons, List.map_nil, List.cons.injEq, RefundWrite.update.injEq,
              and_true] at writes'
            rcases writes' with ⟨sameId, rfl, rfl⟩
            rcases run.recalled.seen _ applied with ⟨between, _, changed, since⟩
            rcases (changed.trans since).forward row member with ⟨current, currentIn, advances⟩
            have reaches : ∀ other ∈ state.world.rows,
                (if other.id = row.id then update.assign writtenAt other else other) =
                  if other ∈ [current] then update.assign writtenAt other else other := by
              intro other otherIn
              have iff : other.id = row.id ↔ other ∈ [current] := by
                rw [List.mem_singleton, ← advances.id]
                constructor
                · exact state.world.database.refunds.eq_of_id otherIn currentIn
                · rintro rfl
                  rfl
              simp only [iff]
            have audited' : audits.map Transition.refundId = [current].map Refund.id := by
              rw [audited, List.map_singleton, List.map_singleton, advances.id]
            rw [← sameId, List.map_congr_left reaches]
            have inside : [current] ⊆ state.world.rows := by
              intro other listed
              rw [List.mem_singleton.mp listed]
              exact currentIn
            exact moves_of_decision decides (Nat.le_refl 1) inside audited'

/-- What a delivery that has applied its event commits. -/
theorem EngineRun.committed_moves (run : EngineRun hmac trace state)
    (applied : .answered call operation (.sql (.applyMoved update reason)) (.ok ()) before ∈
      trace)
    (step : (engine hmac).Step state
      (.answered call operation (.sql .commit) (.ok ()) state.world) next) :
    ∃ audits, next.world.database.transitions = state.world.database.transitions ++ audits ∧
      Moves update state.world.rows next.world.rows audits := by
  rcases List.append_of_mem applied with ⟨newer, earlier, split⟩
  rcases run.licensed split with
    ⟨event, _, _, _, _, _, began, isDelivery, _, updates, behind⟩
  rcases WebhookEvent.decision_of_update updates with ⟨status, decides⟩
  have updating : ¬Updateless operation := by
    intro updateless
    rw [updateless _ _ _ _ isDelivery] at updates
    cases updates
  rcases run.permits step with ⟨_, updateless⟩ | ⟨update', reason', before', rest, latest⟩ |
    ⟨_, _, _, _, _, _, _, _, updateless, _⟩
  · exact (updating updateless).elim
  · -- The statement that applied the event is the last step of the call.
    rcases List.filter_eq_cons_iff.mp latest with ⟨newer', earlier', split', _, _, before'Own⟩
    rcases run.licensed split' with
      ⟨_, _, _, _, _, _, _, isDelivery', _, updates', behind'⟩
    cases isDelivery.symm.trans isDelivery'
    cases updates.symm.trans updates'
    have linked := run.recalled.linked call
    rw [latest, ← before'Own, ← own, behind'] at linked
    rcases transaction_of_delivery linked with ⟨audits, opened, audited, _⟩
    refine ⟨audits, ?_, ?_⟩
    · rw [transitions_of_step step]
      rw [appended, World.staged_of_opened opened]
    · have applied' : .answered call operation (.sql (.applyMoved update reason)) (.ok ())
          before' ∈ trace := by
        rw [split']
        exact List.mem_append_right _ (List.mem_cons_self ..)
      exact run.moves_of_commit decides applied' opened rfl audited step
  · exact (updating updateless).elim

end Moves

section Deciding

variable {hmac : Hmac} {trace : List EngineEvent} {state next : EngineState}
variable {step : EngineEvent} {row : Refund}

/-- A row that settles or fails does so where the fate of its reference is decided. -/
private theorem EngineRun.decisionOf_of_became (run : EngineRun hmac trace state)
    (steps : (engine hmac).Step state step next) (permitted : NoCancel trace step)
    (member : row ∈ next.world.rows) (decided : row.status = .settled ∨ row.status = .failed)
    (became : ∀ earlier ∈ state.world.rows, earlier.id = row.id → earlier.status ≠ row.status) :
    ∃ gatewayRef, row.gatewayRef = some gatewayRef ∧
      decisionOf gatewayRef trace step = some row.status := by
  have later := run.cons steps permitted
  have recorded := (later.worldOk.row row member).decided decided
  rcases Option.ne_none_iff_exists'.mp recorded with ⟨gatewayRef, recorded⟩
  refine ⟨gatewayRef, recorded, ?_⟩
  have fated := later.status_eq member recorded
  rw [fate] at fated
  cases before : fate gatewayRef trace with
  | none =>
      rw [before, Option.none_or] at fated
      cases decision : decisionOf gatewayRef trace step with
      | none =>
          rw [decision, Option.getD_none] at fated
          rw [fated] at decided
          simp at decided
      | some status =>
          rw [decision, Option.getD_some] at fated
          rw [fated]
  | some status =>
      -- The fate had been decided, and the row had its status already.
      exfalso
      rw [before, Option.some_or, Option.getD_some] at fated
      rcases (run.fated gatewayRef).1 status before with ⟨_, earlier, earlierIn, same, had⟩
      rcases (run.guarantee steps permitted).later.forward earlier earlierIn with
        ⟨after, afterIn, advances⟩
      have isRow := next.world.database.refunds.eq_of_gatewayRef afterIn member
        (advances.gatewayRef _ same) recorded
      have sameId : earlier.id = row.id := by rw [← isRow, advances.id]
      exact became earlier earlierIn sameId (had.trans fated.symm)

theorem WebhookEvent.asks_of_decision {event : WebhookEvent} {update : RefundUpdate}
    {reason : Option String} {gatewayRef : String} {status : Status}
    (updates : event.update = some (update, reason))
    (decides : update.decision = some (gatewayRef, status)) :
    gatewayRef = event.data.gatewayRef ∧ event.Asks status := by
  rw [WebhookEvent.update] at updates
  split at updates
  · cases updates
    cases decides
    exact ⟨rfl, .inl ⟨‹_›, rfl⟩⟩
  · split at updates
    · cases updates
      cases decides
      exact ⟨rfl, .inr ⟨‹_›, rfl⟩⟩
    · cases updates

/-- A row settles or fails at the commit of a delivery whose event asks for it. -/
theorem EngineRun.delivering_of_became (run : EngineRun hmac trace state)
    (steps : (engine hmac).Step state step next) (permitted : NoCancel trace step)
    (member : row ∈ next.world.rows) (decided : row.status = .settled ∨ row.status = .failed)
    (became : ∀ earlier ∈ state.world.rows, earlier.id = row.id → earlier.status ≠ row.status) :
    ∃ call event, Delivering hmac trace step call event ∧
      step.command? = some (.sql .commit) ∧
      event.Asks row.status ∧
      row.gatewayRef = some event.data.gatewayRef ∧
      ∃ applying ∈ trace, applying.caller = some call ∧ Applying applying := by
  rcases run.decisionOf_of_became steps permitted member decided became with
    ⟨gatewayRef, recorded, decides⟩
  rcases decisionOf_eq_some decides with
    ⟨call, operation, operation', _, update, reason, before, rest, rfl, behind, decision, _⟩
  have sameOperation : operation' = operation := by
    rcases run.permits steps with ⟨⟨_, _, latest⟩, _⟩ | ⟨_, _, _, _, latest⟩ |
      ⟨_, _, _, _, _, _, _, _, _, latest⟩
    · cases behind.symm.trans latest
    · cases behind.symm.trans latest
      rfl
    · cases behind.symm.trans latest
  subst sameOperation
  have applied : .answered call operation' (.sql (.applyMoved update reason)) (.ok ()) before ∈
      own call trace := by
    rw [behind]
    exact List.mem_cons_self ..
  have applied := (mem_own.mp applied).1
  rcases List.append_of_mem applied with ⟨newer, earlier, split⟩
  rcases run.delivery_of_applied split with
    ⟨event, rawBody, sig, secret, rfl, verified, updates, inserted, _⟩
  rcases WebhookEvent.asks_of_decision updates decision with ⟨same, asks⟩
  rw [same] at recorded
  exact ⟨call, event, ⟨rawBody, sig, secret, rfl, verified, inserted⟩, rfl, asks, recorded, _,
    applied, rfl, update, reason, rfl⟩

end Deciding

/-! ## Deliveries that do not verify -/

section Unverified

variable {hmac : Hmac} {trace : List EngineEvent} {state next : EngineState}
variable {step : EngineEvent} {call : CallId} {event : WebhookEvent}
variable {rawBody secret : Bytes} {sig : String}

theorem program_of_unverified (unverified : verifySignature hmac rawBody sig secret = false) :
    (engine hmac).program (.handleWebhook event rawBody sig secret) =
      .ret (.error .badSignature) := by
  simp only [engine, Operation.program, handleWebhook, unverified, if_true]
  rfl

theorem EngineRun.rest_of_unverified (run : EngineRun hmac trace state)
    (unverified : verifySignature hmac rawBody sig secret = false)
    {rest : Interleaving.Program Command.Answer (Except RefundError Reply)}
    (running : state.calls call = .running (.handleWebhook event rawBody sig secret) rest) :
    rest = .ret (.error .badSignature) ∧ state.world.transaction call = none := by
  revert rest
  apply run.preserves fun _ state => ∀ rest,
    state.calls call = .running (.handleWebhook event rawBody sig secret) rest →
      rest = .ret (.error .badSignature) ∧ state.world.transaction call = none
  · intro charges config now rest running
    cases running
  · intro trace state step next run ih steps permitted rest running
    by_cases taken : step.caller = some call
    · cases steps with
      | start operation idle =>
          cases taken
          simp only [Function.update_self, Interleaving.Call.running.injEq] at running
          rcases running with ⟨rfl, rfl⟩
          constructor
          · exact program_of_unverified unverified
          · cases opened : state.world.transaction call with
            | none => rfl
            | some transaction =>
                have inProgress := run.inProgress_of_transaction call transaction opened
                rw [idle] at inProgress
                exact inProgress.elim
      | answer before | fail before =>
          cases taken
          simp only [Function.update_self, Interleaving.Call.running.injEq] at running
          rcases running with ⟨rfl, _⟩
          cases (ih _ before).1
      | finish | die =>
          cases taken
          simp at running
      | act => cases taken
    · rw [steps.calls_other taken] at running
      rw [transaction_of_step steps taken]
      exact ih rest running

theorem EngineRun.endTransaction_of_none (run : EngineRun hmac trace state)
    (closed : state.world.transaction call = none) :
    state.world.endTransaction call = state.world := by
  have absent : call ∉ state.world.transactions := AList.lookup_eq_none.mp closed
  have same : state.world.transactions.erase call = state.world.transactions :=
    AList.ext (List.kerase_of_notMem_keys absent)
  have resumed : Function.update state.world.suspended call none = state.world.suspended := by
    rw [Function.update_eq_self_iff, run.resumed_of_closed closed]
  rw [World.endTransaction, same, resumed]

/-- No step of a delivery that does not verify changes anything. -/
theorem EngineRun.world_of_unverified (run : EngineRun hmac trace state)
    (unverified : verifySignature hmac rawBody sig secret = false)
    (steps : (engine hmac).Step state step next)
    (taken : callOf step = some (call, .handleWebhook event rawBody sig secret)) :
    next.world = state.world ∧ ∀ result,
      step = .finished call (.handleWebhook event rawBody sig secret) result →
      result = .error .badSignature := by
  cases steps with
  | start =>
      constructor
      · rfl
      · intro result returned
        cases returned
  | answer running | fail running =>
      cases taken
      cases (run.rest_of_unverified unverified running).1
  | finish running =>
      cases taken
      rcases run.rest_of_unverified unverified running with ⟨same, closed⟩
      constructor
      · exact run.endTransaction_of_none closed
      · intro result returned
        cases returned
        cases same
        rfl
  | die running =>
      cases taken
      constructor
      · exact run.endTransaction_of_none (run.rest_of_unverified unverified running).2
      · intro result returned
        cases returned
  | act => cases taken

end Unverified

/-! ## The result -/

/-- In every interleaving: a refund settles or fails only when a delivery commits that has
verified its signature, asks for it and inserted the id of its event; events with one id are
applied by one statement at most; a statement moves at most one refund, with one audit row
for each, and leaves all terms; and a delivery that does not verify changes nothing. -/
theorem settled_on_verified_word {hmac : Hmac} {trace : List EngineEvent} {state : EngineState}
    (run : EngineRun hmac trace state) :
    (∀ step next, (engine hmac).Step state step next → NoCancel trace step →
      ∀ row ∈ next.world.rows, row.status = .settled ∨ row.status = .failed →
      (∀ earlier ∈ state.world.rows, earlier.id = row.id → earlier.status ≠ row.status) →
      ∃ call event, Delivering hmac trace step call event ∧
        step.command? = some (.sql .commit) ∧ event.Asks row.status ∧
        row.gatewayRef = some event.data.gatewayRef ∧
        ∃ applying ∈ trace, applying.caller = some call ∧ Applying applying) ∧
    (∀ step ∈ trace, Applying step → ∃ call event, Delivering hmac trace step call event) ∧
    (∀ step ∈ trace, ∀ step' ∈ trace, Applying step → Applying step' →
      ∀ call call' event event', Delivering hmac trace step call event →
      Delivering hmac trace step' call' event' → event.id = event'.id →
      call = call' ∧ step = step') ∧
    (∀ call operation update reason next, (engine hmac).Step state
        (.answered call operation (.sql (.applyMoved update reason)) (.ok ()) state.world) next →
      next.world.database.refunds = state.world.database.refunds ∧
      next.world.database.transitions = state.world.database.transitions ∧
      ∃ table, next.world.seenBy call = .ok table ∧
        Moves update state.world.rows table.rows (next.world.staged call)) ∧
    (∀ call operation update reason before next,
      .answered call operation (.sql (.applyMoved update reason)) (.ok ()) before ∈ trace →
      (engine hmac).Step state
        (.answered call operation (.sql .commit) (.ok ()) state.world) next →
      ∃ audits, next.world.database.transitions = state.world.database.transitions ++ audits ∧
        Moves update state.world.rows next.world.rows audits) ∧
    ∀ step next call event rawBody sig secret,
      verifySignature hmac rawBody sig secret = false → (engine hmac).Step state step next →
      callOf step = some (call, .handleWebhook event rawBody sig secret) →
      next.world = state.world ∧ ∀ result,
        step = .finished call (.handleWebhook event rawBody sig secret) result →
        result = .error .badSignature := by
  constructor
  · intro step next steps permitted row member decided became
    exact run.delivering_of_became steps permitted member decided became
  constructor
  · intro step member applying
    rcases run.delivering_of_applying member applying with ⟨call, event, delivering, _⟩
    exact ⟨call, event, delivering⟩
  constructor
  · intro step member step' member' applying applying' call call' event event' delivering
      delivering' same
    rcases delivering with ⟨_, _, _, taken, _⟩
    rcases delivering' with ⟨_, _, _, taken', _⟩
    exact run.applying_unique member member' applying applying' taken taken' same
  constructor
  · intro call operation update reason next step
    exact run.applied_moves step
  constructor
  · intro call operation update reason before next applied step
    exact run.committed_moves applied step
  · intro step next call event rawBody sig secret unverified steps taken
    exact run.world_of_unverified unverified steps taken

/-- The sample just before its delivery commits. -/
def sampleUncommitted : List EngineEvent × EngineState :=
  (samplePrefix (sampleLabels.length - 2)).get (by decide +kernel)

/-- The commit. -/
def sampleCommit : EngineEvent × EngineState :=
  ((engine sampleHmac).step (.execute 5) sampleUncommitted.2).get (by decide +kernel)

theorem settled_on_verified_word_sample :
    ∃ row ∈ sampleCommit.2.world.rows, row.status = .settled ∧ ∃ call event,
      Delivering sampleHmac sampleUncommitted.1 sampleCommit.1 call event ∧
      event.Asks .settled ∧ row.gatewayRef = some event.data.gatewayRef := by
  have run : EngineRun sampleHmac sampleUncommitted.1 sampleUncommitted.2 :=
    .of_play (Option.some_get _).symm
  have taken : (engine sampleHmac).step (.execute 5) sampleUncommitted.2 = some sampleCommit :=
    (Option.some_get _).symm
  have step : (engine sampleHmac).Step sampleUncommitted.2 sampleCommit.1 sampleCommit.2 :=
    Machine.step_sound taken
  have permitted : NoCancel sampleUncommitted.1 sampleCommit.1 := by
    decide +kernel
  have found : ∃ row ∈ sampleCommit.2.world.rows, row.status = .settled ∧
      ∀ earlier ∈ sampleUncommitted.2.world.rows, earlier.id = row.id →
        earlier.status ≠ .settled := by
    decide +kernel
  rcases found with ⟨row, member, settled, became⟩
  rw [← settled] at became
  rcases (settled_on_verified_word run).1 _ _ step permitted row member (.inl settled) became with
    ⟨call, event, delivering, _, asks, recorded, _⟩
  rw [settled] at asks
  exact ⟨row, member, settled, call, event, delivering, asks, recorded⟩

end RefundEngine
