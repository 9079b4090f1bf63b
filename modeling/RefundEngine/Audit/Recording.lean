import RefundEngine.Audit.Trail
import RefundEngine.Contract

/-!
# What the operations record

A second contract, read off the programs once: what an audit row rests on when it is
inserted, what an approval that has returned has behind it, and that a call which returns has
inserted the audit row of every status it changed, unless its last statement was refused.
-/

namespace RefundEngine

open Interleaving (CallId Contract own)

section History

variable (call : CallId) (operation : Operation) (events : List EngineEvent)

/-- The call has read that the refund exists. -/
def Known (refundId : Uuid) : Prop :=
  (∃ row, Answered call operation events (.sql (.getRefund refundId)) (.ok (some row))) ∨
    ∃ stuck status, Answered call operation events (.sql .selectStuck) (.ok stuck) ∧
      (refundId, status) ∈ stuck

/-- What an audit row outside a transaction rests on: an approval has run its update, or the
row does not lead out of review. -/
def Recording (refundId : Uuid) (fromStatus : Option Status) (toStatus : Status)
    (actor : String) : Prop :=
  (∃ approver read found before,
    operation = .approve refundId approver ∧ fromStatus = some .pendingReview ∧
    toStatus = .requested ∧ actor = "approver:" ++ approver ∧ read.status = .pendingReview ∧
    approver ≠ read.requestedBy ∧
    events =
      [.answered call operation (.sql (.updateRefunds (.markRequested refundId))) (.ok ()) found,
        .answered call operation (.sql (.getRefund refundId)) (.ok (some read)) before,
        .started call operation]) ∨
  (fromStatus ≠ some .pendingReview ∧ toStatus = .submitted ∧
    Known call operation events refundId)

/-- The audit row a request stages is that of the refund it has just inserted. -/
def Opening (refundId : Uuid) (toStatus : Status) : Prop :=
  ∃ new before rest,
    events = .answered call operation (.sql (.insertRefund new)) (.ok ()) before :: rest ∧
      refundId = new.id ∧ toStatus = new.status

/-- What a command rests on, as far as the audit trail is concerned. -/
def LicensedRecord : Command → Prop
  | .sql (.recordTransition refundId fromStatus toStatus actor) =>
      Recording call operation events refundId fromStatus toStatus actor
  | .sql (.insertTransition refundId toStatus _ _) =>
      Opening call operation events refundId toStatus
  | _ => True

/-- The last thing the call did failed, or was an update or the insert of an audit row that
was refused. -/
def Broken : Prop :=
  (∃ command rest, events = .failed call operation command :: rest) ∨
  (∃ update error before rest,
    events = .answered call operation (.sql (.updateRefunds update)) (.error error) before ::
      rest) ∨
  ∃ refundId fromStatus toStatus actor error before rest,
    events = .answered call operation
      (.sql (.recordTransition refundId fromStatus toStatus actor)) (.error error) before :: rest

/-- A submission that read its refund as submitted inserts no audit row. -/
def Resubmitted : Prop :=
  ∃ refundId read found before tail,
    operation = .submitRefund refundId ∧ read.status = .submitted ∧
    events = tail ++
      [.answered call operation (.sql (.updateRefunds (.markSubmitted refundId))) (.ok ()) found,
        .answered call operation (.sql (.getRefund refundId)) (.ok (some read)) before,
        .started call operation] ∧
    owed events = moved (.markSubmitted refundId) found

end History

/-- How an approval returns, with the steps it has behind it. -/
inductive Approval (call : CallId) (refundId : Uuid) (approver : String) :
    Except RefundError Reply → List EngineEvent → Prop where
  | approved {read : Refund} {recorded found before : World}
      (pending : read.status = .pendingReview) (other : approver ≠ read.requestedBy) :
      Approval call refundId approver (.ok .approved)
        [.answered call (.approve refundId approver)
            (.sql (.recordTransition refundId (some .pendingReview) .requested
              ("approver:" ++ approver))) (.ok ()) recorded,
          .answered call (.approve refundId approver)
            (.sql (.updateRefunds (.markRequested refundId))) (.ok ()) found,
          .answered call (.approve refundId approver) (.sql (.getRefund refundId))
            (.ok (some read)) before,
          .started call (.approve refundId approver)]
  | passed {read : Refund} {before : World} (past : read.status ≠ .pendingReview) :
      Approval call refundId approver (.error (.notPendingReview refundId))
        [.answered call (.approve refundId approver) (.sql (.getRefund refundId))
            (.ok (some read)) before,
          .started call (.approve refundId approver)]
  | own {read : Refund} {before : World} (pending : read.status = .pendingReview)
      (same : approver = read.requestedBy) :
      Approval call refundId approver (.error (.separationOfDuties approver))
        [.answered call (.approve refundId approver) (.sql (.getRefund refundId))
            (.ok (some read)) before,
          .started call (.approve refundId approver)]
  | missing {before : World} :
      Approval call refundId approver (.error (.refundNotFound refundId))
        [.answered call (.approve refundId approver) (.sql (.getRefund refundId)) (.ok none)
            before,
          .started call (.approve refundId approver)]
  | refused {error : DbError} {events : List EngineEvent} :
      Approval call refundId approver (.error (.db error)) events

/-- The contract of the engine with the audit trail. -/
def auditContract (hmac : Hmac) : Contract (engine hmac) where
  license call operation events := LicensedRecord call operation events
  outcome call operation events result :=
    (owed events = [] ∨ Broken call operation events ∨ Resubmitted call operation events) ∧
      ∀ refundId approver, operation = .approve refundId approver →
        Approval call refundId approver result events

section Debts

variable {call : CallId} {operation : Operation} {events : List EngineEvent} {before : World}
variable {refundId : Uuid}

@[simp] theorem owed_error {statement : Statement} {error : DbError} :
    owed (.answered call operation (.sql statement) (.error error) before :: events) =
      owed events := by
  cases statement <;> rfl

@[simp] theorem moved_recordRef {gatewayRef : String} :
    moved (.recordRef refundId gatewayRef) before = [] := by
  simp [moved, RefundUpdate.assign]

theorem eq_of_moved {update : RefundUpdate} {other : Uuid}
    (aimed : ∀ row, update.Applies row → row.id = refundId) (member : other ∈ moved update before) :
    other = refundId := by
  rcases List.mem_map.mp member with ⟨row, found, rfl⟩
  have matched := of_decide_eq_true (List.mem_filter.mp found).2
  exact aimed row matched.1

/-- The audit row of the only refund a call owes clears its debts. -/
theorem owed_recordTransition {fromStatus : Option Status} {toStatus : Status} {actor : String}
    (only : ∀ other ∈ owed events, other = refundId) :
    owed (.answered call operation
      (.sql (.recordTransition refundId fromStatus toStatus actor)) (.ok ()) before :: events) =
        [] := by
  rw [owed, List.filter_eq_nil_iff]
  intro other member
  simpa using only other member

/-- A statement that neither updates refunds by itself nor records that it did. -/
def Plain : Statement → Prop
  | .updateRefunds _ | .recordTransition _ _ _ _ => False
  | _ => True

theorem owed_plain {statement : Statement} {answer : Except DbError statement.Value}
    (plain : Plain statement) :
    owed (.answered call operation (.sql statement) answer before :: events) = owed events := by
  cases statement with
  | updateRefunds | recordTransition => exact plain.elim
  | _ => cases answer <;> rfl

end Debts

/-! ## Every operation upholds the contract -/

/-- An action that returns owes nothing, and one that ends with an error owes nothing unless
its last statement was refused. -/
def Clears {α : Type} (call : CallId) (operation : Operation) :
    Except RefundError α → List EngineEvent → Prop
  | .ok _, events => owed events = []
  | .error _, events => owed events = [] ∨ Broken call operation events

section Rules

variable {hmac : Hmac} {call : CallId} {operation : Operation} {events : List EngineEvent}
variable {α β : Type}

abbrev Clearing (hmac : Hmac) (call : CallId) (operation : Operation) (action : Action α)
    (events : List EngineEvent) : Prop :=
  Upholds (auditContract hmac) call operation (Clears call operation) action events

theorem clears_throw {error : RefundError} (clear : owed events = []) :
    Clears call operation (.error error : Except RefundError α) events := .inl clear

theorem clearing_plain {statement : Statement} {continuation : statement.Value → Action β}
    (licensed : LicensedRecord call operation events (.sql statement)) (plain : Plain statement)
    (clear : owed events = [])
    (rest : ∀ value before, owed
        (.answered call operation (.sql statement) (.ok value) before :: events) = [] →
      Clearing hmac call operation (continuation value)
        (.answered call operation (.sql statement) (.ok value) before :: events)) :
    Clearing hmac call operation (Action.sql statement >>= continuation) events := by
  apply upholds_sql licensed
  · intro value before after executed
    exact rest value before ((owed_plain plain).trans clear)
  · intro error before after executed
    exact .inl ((owed_plain plain).trans clear)
  · exact .inl clear

end Rules

section Operations

variable {hmac : Hmac} {call : CallId} {operation : Operation} {events : List EngineEvent}

theorem requestRefund_clearing (refundId chargeId : Uuid) (amountCents : Int64)
    (currency actor : String) (reasonCode : Option String) (clear : owed events = []) :
    Clearing hmac call operation
      (requestRefund refundId chargeId amountCents currency actor reasonCode) events := by
  unfold requestRefund
  refine clearing_plain trivial trivial clear ?_
  intro _ began clear
  refine clearing_plain trivial trivial clear ?_
  intro charge locked clear
  cases charge with
  | none => exact upholds_bind (upholds_throw (clears_throw clear))
  | some found =>
      apply upholds_bind (upholds_pure _)
      refine clearing_plain trivial trivial clear ?_
      intro total summed clear
      by_cases mismatch : currency ≠ found.2
      · simp only [if_pos mismatch]
        exact upholds_bind (upholds_throw (clears_throw clear))
      simp only [if_neg mismatch]
      by_cases exceeds : amountCents > found.1 - total
      · simp only [if_pos exceeds]
        refine clearing_plain trivial trivial clear ?_
        intro _ rolledBack clear
        exact upholds_bind (upholds_throw (clears_throw clear))
      simp only [if_neg exceeds]
      refine clearing_plain trivial trivial clear ?_
      intro _ inserted clear
      refine clearing_plain ⟨_, _, _, rfl, rfl, rfl⟩ trivial clear ?_
      intro _ opened clear
      refine clearing_plain trivial trivial clear ?_
      intro _ committed clear
      exact upholds_pure clear

theorem handleWebhook_clearing (event : WebhookEvent) (rawBody : Bytes) (sig : String)
    (secret : Bytes) (clear : owed events = []) :
    Clearing hmac call operation (handleWebhook hmac event rawBody sig secret) events := by
  rw [handleWebhook_eq]
  by_cases forged : verifySignature hmac rawBody sig secret = false
  · simp only [if_pos forged]
    exact upholds_bind (upholds_throw (clears_throw clear))
  simp only [if_neg forged]
  refine clearing_plain trivial trivial clear ?_
  intro inserted deduped clear
  cases inserted with
  | none => exact upholds_pure clear
  | some seen =>
      refine clearing_plain trivial trivial clear ?_
      intro _ began clear
      rw [WebhookEvent.conclude]
      split
      · refine clearing_plain trivial trivial clear ?_
        intro _ applied clear
        refine clearing_plain trivial trivial clear ?_
        intro _ committed clear
        exact upholds_pure clear
      · refine clearing_plain trivial trivial clear ?_
        intro _ committed clear
        exact upholds_pure clear

theorem approve_upholds (refundId : Uuid) (approver : String) :
    Upholds (auditContract hmac) call (.approve refundId approver)
      (fun result events => Clears call (.approve refundId approver) result events ∧
        Approval call refundId approver (result.map fun _ => .approved) events)
      (approve refundId approver) [.started call (.approve refundId approver)] := by
  unfold approve getRefund
  apply upholds_bind
  refine upholds_sql trivial ?_ ?_ ?_
  · intro found before after executed
    cases found with
    | none => exact upholds_throw ⟨.inl rfl, .missing⟩
    | some row =>
        apply upholds_pure
        by_cases past : row.status ≠ .pendingReview
        · simp only [if_pos past]
          exact upholds_bind (upholds_throw ⟨.inl rfl, .passed past⟩)
        simp only [if_neg past]
        have pending := not_not.mp past
        by_cases same : approver = row.requestedBy
        · simp only [if_pos same]
          exact upholds_bind (upholds_throw ⟨.inl rfl, .own pending same⟩)
        simp only [if_neg same]
        refine upholds_sql trivial ?_ ?_ ?_
        · intro _ found after' executed'
          refine upholds_statement
            (.inl ⟨approver, row, found, before, rfl, rfl, rfl, rfl, pending, same, rfl⟩) ?_ ?_ ?_
          · intro _ recorded after'' executed''
            refine ⟨owed_recordTransition ?_, .approved pending same⟩
            intro other member
            have moves : other ∈ moved (.markRequested refundId) found := by
              simpa [owed] using member
            apply eq_of_moved _ moves
            intro row applies
            exact applies.1
          · intro error recorded after'' executed''
            exact ⟨.inr (.inr (.inr ⟨_, _, _, _, _, _, _, rfl⟩)), .refused⟩
          · exact ⟨.inr (.inl ⟨_, _, rfl⟩), .refused⟩
        · intro error found after' executed'
          exact ⟨.inl rfl, .refused⟩
        · exact ⟨.inl rfl, .refused⟩
  · intro error before after executed
    exact ⟨.inl rfl, .refused⟩
  · exact ⟨.inl rfl, .refused⟩

/-- The end of `submit_refund`: whatever it owes when it begins stays as it is. -/
private theorem submitTail_upholds {refundId : Uuid} {row : Refund} {start : List EngineEvent}
    (settled : ∀ tail, owed (tail ++ start) = owed start →
      owed (tail ++ start) = [] ∨ Resubmitted call operation (tail ++ start)) :
    Upholds (auditContract hmac) call operation
      (fun _ events => owed events = [] ∨ Broken call operation events ∨
        Resubmitted call operation events)
      (do
        match ← Action.createRefund row.amountCents row.currency refundId.toString with
        | .accepted gw =>
            Action.sql (.updateRefunds (.recordRef refundId gw.id))
            return true
        | .dropped | .timedOut => return false)
      start := by
  have ends : ∀ tail, owed (tail ++ start) = owed start →
      owed (tail ++ start) = [] ∨ Broken call operation (tail ++ start) ∨
        Resubmitted call operation (tail ++ start) := by
    intro tail same
    rcases settled tail same with clear | resubmitted
    · exact .inl clear
    · exact .inr (.inr resubmitted)
  refine upholds_createRefund trivial ?_
  intro outcome before
  cases outcome with
  | accepted gw =>
      refine upholds_sql trivial ?_ ?_ ?_
      · intro _ found after executed
        apply upholds_pure
        apply ends [.answered call operation (.sql (.updateRefunds (.recordRef refundId gw.id)))
            (.ok ()) found,
          .answered call operation
            (.createRefund row.amountCents row.currency refundId.toString) (.accepted gw) before]
        simp only [List.cons_append, List.nil_append, owed, moved_recordRef]
      · intro error found after executed
        exact .inr (.inl (.inr (.inl ⟨_, _, _, _, rfl⟩)))
      · exact .inr (.inl (.inl ⟨_, _, rfl⟩))
  | dropped | timedOut =>
      apply upholds_pure
      apply ends [.answered call operation
        (.createRefund row.amountCents row.currency refundId.toString) _ before]
      rfl

theorem submitRefund_upholds (refundId : Uuid) :
    Upholds (auditContract hmac) call (.submitRefund refundId)
      (fun _ events => owed events = [] ∨ Broken call (.submitRefund refundId) events ∨
        Resubmitted call (.submitRefund refundId) events)
      (submitRefund refundId) [.started call (.submitRefund refundId)] := by
  unfold submitRefund getRefund
  apply upholds_bind
  refine upholds_sql trivial ?_ ?_ ?_
  · intro found before after executed
    cases found with
    | none => exact upholds_throw (.inl rfl)
    | some row =>
        apply upholds_pure
        by_cases terminal :
            row.status = .settled ∨ row.status = .failed ∨ row.status = .canceled
        · simp only [if_pos terminal]
          exact upholds_pure (.inl rfl)
        simp only [if_neg terminal]
        by_cases pending : row.status = .pendingReview
        · simp only [if_pos pending]
          exact upholds_pure (.inl rfl)
        simp only [if_neg pending]
        refine upholds_sql trivial ?_ ?_ ?_
        · intro _ found after' executed'
          by_cases resubmits : row.status ≠ .submitted
          · simp only [if_pos resubmits]
            refine upholds_sql (.inr ⟨by simpa using pending, rfl, .inl ⟨row, Answered.head.cons _⟩⟩)
              ?_ ?_ ?_
            · intro _ recorded after'' executed''
              apply submitTail_upholds
              intro tail same
              left
              rw [same]
              apply owed_recordTransition
              intro other member
              have moves : other ∈ moved (.markSubmitted refundId) found := by
                simpa [owed] using member
              apply eq_of_moved _ moves
              intro row applies
              exact applies.1
            · intro error recorded after'' executed''
              exact .inr (.inl (.inr (.inr ⟨_, _, _, _, _, _, _, rfl⟩)))
            · exact .inr (.inl (.inl ⟨_, _, rfl⟩))
          · simp only [if_neg resubmits]
            apply submitTail_upholds
            intro tail same
            right
            refine ⟨refundId, row, found, before, tail, rfl, not_not.mp resubmits, rfl, ?_⟩
            rw [same]
            simp [owed]
        · intro error found after' executed'
          exact .inr (.inl (.inr (.inl ⟨_, _, _, _, rfl⟩)))
        · exact .inr (.inl (.inl ⟨_, _, rfl⟩))
  · intro error before after executed
    exact .inl rfl
  · exact .inl rfl

/-- Where the loop of recovery stands: it has read the snapshot, lists nothing that was in
review, and owes nothing. -/
private structure Walking (call : CallId) (stuck : List (Uuid × Status))
    (events : List EngineEvent) : Prop where
  read : Answered call .recoverSubmitted events (.sql .selectStuck) (.ok stuck)
  live : ∀ entry ∈ stuck, entry.2 ≠ .pendingReview
  clear : owed events = []

/-- A row of the loop leaves nothing owed, unless its last statement was refused. -/
private def RowDone {α : Type} (call : CallId) (stuck : List (Uuid × Status)) :
    Except RefundError α → List EngineEvent → Prop
  | .ok _, events => Walking call stuck events
  | .error _, events => owed events = [] ∨ Broken call .recoverSubmitted events

section Recovery

variable {stuck : List (Uuid × Status)} {refundId : Uuid} {status : Status}

/-- The audit row of a recovered refund, the only one the call may owe. -/
private theorem recordStuck_upholds (report : RecoveryReport) {actor : String}
    (read : Answered call .recoverSubmitted events (.sql .selectStuck) (.ok stuck))
    (live : ∀ entry ∈ stuck, entry.2 ≠ .pendingReview) (listed : (refundId, status) ∈ stuck)
    (only : ∀ other ∈ owed events, other = refundId) :
    Upholds (auditContract hmac) call .recoverSubmitted (RowDone call stuck)
      (do
        recordTransition refundId (some status) .submitted actor
        return report)
      events := by
  have out : some status ≠ some .pendingReview := by
    simpa using live (refundId, status) listed
  refine upholds_sql (.inr ⟨out, rfl, .inr ⟨stuck, status, read, listed⟩⟩) ?_ ?_ ?_
  · intro _ recorded after executed
    exact upholds_pure ⟨read.cons _, live, owed_recordTransition only⟩
  · intro error recorded after executed
    exact .inr (.inr (.inr ⟨_, _, _, _, _, _, _, rfl⟩))
  · exact .inr (.inl ⟨_, _, rfl⟩)

private theorem recoverRow_upholds {report : RecoveryReport} (walking : Walking call stuck events)
    (listed : (refundId, status) ∈ stuck) :
    Upholds (auditContract hmac) call .recoverSubmitted (RowDone call stuck)
      (recoverRow report refundId status) events := by
  unfold recoverRow
  refine upholds_lookupByKey trivial ?_
  intro found lookedUp
  cases found with
  | some gw =>
      refine upholds_sql trivial ?_ ?_ ?_
      · intro _ found after executed
        apply recordStuck_upholds _ ((walking.read.cons _).cons _) walking.live listed
        intro other member
        have moves : other ∈ moved (.recoverRef refundId gw.id) found := by
          simpa [owed, walking.clear] using member
        apply eq_of_moved _ moves
        intro row applies
        exact applies.1
      · intro error found after executed
        exact .inr (.inr (.inl ⟨_, _, _, _, rfl⟩))
      · exact .inr (.inl ⟨_, _, rfl⟩)
  | none =>
      refine upholds_sql trivial ?_ ?_ ?_
      · intro terms selected after executed
        refine upholds_sql trivial ?_ ?_ ?_
        · intro _ found after' executed'
          have aimed : ∀ other ∈ moved (.markSubmitted refundId) found, other = refundId := by
            intro other moves
            apply eq_of_moved _ moves
            intro row applies
            exact applies.1
          refine upholds_createRefund trivial ?_
          intro outcome asked
          cases outcome with
          | accepted gw =>
              refine upholds_sql trivial ?_ ?_ ?_
              · intro _ recorded after'' executed''
                apply recordStuck_upholds _
                  (((((walking.read.cons _).cons _).cons _).cons _).cons _) walking.live listed
                intro other member
                exact aimed other (by simpa [owed, walking.clear] using member)
              · intro error recorded after'' executed''
                exact .inr (.inr (.inl ⟨_, _, _, _, rfl⟩))
              · exact .inr (.inl ⟨_, _, rfl⟩)
          | dropped | timedOut =>
              apply recordStuck_upholds _ ((((walking.read.cons _).cons _).cons _).cons _)
                walking.live listed
              intro other member
              exact aimed other (by simpa [owed, walking.clear] using member)
        · intro error found after' executed'
          exact .inr (.inr (.inl ⟨_, _, _, _, rfl⟩))
        · exact .inr (.inl ⟨_, _, rfl⟩)
      · intro error selected after executed
        exact .inl walking.clear
      · exact .inl walking.clear

/-- The loop, by induction on the rows still to be walked. -/
private theorem recoverRows_upholds {remaining : List (Uuid × Status)}
    (inside : remaining ⊆ stuck) (report : RecoveryReport) (events : List EngineEvent)
    (walking : Walking call stuck events) :
    Upholds (auditContract hmac) call .recoverSubmitted (RowDone call stuck)
      (recoverRows report remaining) events := by
  induction remaining generalizing report events with
  | nil => exact upholds_pure walking
  | cons entry remaining ih =>
      apply upholds_bind
      apply (recoverRow_upholds walking (inside (List.mem_cons_self ..))).mono
      intro result events walked
      cases result with
      | ok report => exact ih (List.subset_of_cons_subset inside) report events walked
      | error error => exact walked

end Recovery

theorem recoverSubmitted_upholds :
    Upholds (auditContract hmac) call .recoverSubmitted (Clears call .recoverSubmitted)
      recoverSubmitted [.started call .recoverSubmitted] := by
  unfold recoverSubmitted
  refine upholds_sql trivial ?_ ?_ ?_
  · intro stuck before after executed
    have listed : stuck = stuckRows before.rows := by
      simp only [World.execute, Option.some.injEq, Prod.mk.injEq, Except.ok.injEq] at executed
      exact executed.1.symm
    have live : ∀ entry ∈ stuck, entry.2 ≠ .pendingReview := by
      intro entry member
      rw [listed] at member
      rcases mem_stuckRows.mp member with ⟨row, _, rfl, submitted | requested⟩
      · simp [submitted]
      · simp [requested]
    apply (recoverRows_upholds (List.Subset.refl _) {} _ ⟨.head, live, rfl⟩).mono
    intro result events walked
    cases result with
    | ok report => exact walked.clear
    | error error => exact walked
  · intro error before after executed
    exact .inl rfl
  · exact .inl rfl

/-- Every operation of the engine upholds the contract. -/
theorem auditContract_upheld (hmac : Hmac) : (auditContract hmac).Upheld := by
  have cleared : ∀ {α : Type} {call : CallId} {operation : Operation} {events : List EngineEvent}
      {result : Except RefundError α}, Clears call operation result events →
      owed events = [] ∨ Broken call operation events ∨ Resubmitted call operation events := by
    intro α call operation events result clears
    cases result with
    | ok value => exact .inl clears
    | error error =>
        rcases clears with clear | broken
        · exact .inl clear
        · exact .inr (.inl broken)
  intro call operation
  cases operation with
  | requestRefund refundId chargeId amountCents currency actor reasonCode =>
      apply upholds_map
      apply (requestRefund_clearing _ _ _ _ _ _ rfl).mono
      intro result events clears
      exact ⟨cleared clears, by simp⟩
  | approve refundId approver =>
      apply upholds_map
      apply (approve_upholds refundId approver).mono
      rintro result events ⟨clears, approval⟩
      refine ⟨cleared clears, ?_⟩
      rintro refundId approver ⟨⟩
      exact approval
  | submitRefund refundId =>
      apply upholds_map
      apply (submitRefund_upholds refundId).mono
      intro result events settled
      exact ⟨settled, by simp⟩
  | recoverSubmitted =>
      apply upholds_map
      apply recoverSubmitted_upholds.mono
      intro result events clears
      exact ⟨cleared clears, by simp⟩
  | handleWebhook event rawBody sig secret =>
      apply upholds_map
      apply (handleWebhook_clearing _ _ _ _ rfl).mono
      intro result events clears
      exact ⟨cleared clears, by simp⟩
  | reconcile settlementFile =>
      apply upholds_map
      refine upholds_sql trivial ?_ ?_ ?_
      · intro settled before after executed
        exact upholds_pure ⟨.inl rfl, by simp⟩
      · intro error before after executed
        exact ⟨.inl rfl, by simp⟩
      · exact ⟨.inl rfl, by simp⟩

end Operations

/-- What an audit row outside a transaction rested on. -/
theorem EngineRun.recording {hmac : Hmac} {trace : List EngineEvent} {state : EngineState}
    (run : EngineRun hmac trace state) {call : CallId} {operation : Operation} {refundId : Uuid}
    {fromStatus : Option Status} {toStatus : Status} {actor : String}
    {answer : Except DbError Unit} {before : World} {newer earlier : List EngineEvent}
    (split : trace = newer ++ .answered call operation
      (.sql (.recordTransition refundId fromStatus toStatus actor)) answer before :: earlier) :
    Recording call operation (own call earlier) refundId fromStatus toStatus actor := by
  rcases run with ⟨_, _, _, run⟩
  have respected := (auditContract_upheld hmac).respected (fun _ => rfl) run
  rw [split] at respected
  exact respected.permits_of_append

end RefundEngine
