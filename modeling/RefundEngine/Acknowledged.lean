import RefundEngine.ApprovedOnce
import RefundEngine.EventIds
import RefundEngine.RequestSteps

/-!
# What a call has reported stays true

A call that has returned successfully has reported an effect: a refund requested, approved or
submitted, an event taken in, the stuck refunds converged.  Whatever ran at the same time and
whatever has happened since, failures and deaths of other calls included, the effect is in the
tables and in the gateway's books.
-/

namespace RefundEngine

open Interleaving (CallId Contract own mem_own)

section Reports

variable (call : CallId) (events : List EngineEvent)

/-- The call asked the gateway for the refund and got no answer. -/
def Unanswered (operation : Operation) (refundId : Uuid) : Prop :=
  ∃ amountCents currency outcome before,
    .answered call operation (.createRefund amountCents currency refundId.toString) outcome
      before ∈ events ∧ (outcome = .dropped ∨ outcome = .timedOut)

/-- The call recorded a reference for the refund. -/
def RefRecorded (operation : Operation) (refundId : Uuid) : Prop :=
  ∃ update gatewayRef,
    (update = .recordRef refundId gatewayRef ∨ update = .recoverRef refundId gatewayRef) ∧
    Answered call operation events (.sql (.updateRefunds update)) (.ok ())

/-- A recovery has done what it can for the refund. -/
def Handled (refundId : Uuid) : Prop :=
  RefRecorded call events .recoverSubmitted refundId ∨
    Unanswered call events .recoverSubmitted refundId

/-- A recovery found the refund at the gateway. -/
def Found (refundId : Uuid) : Prop :=
  (∃ refund before, .answered call .recoverSubmitted (.lookupByKey refundId.toString)
    (some refund) before ∈ events) ∧ RefRecorded call events .recoverSubmitted refundId

/-- A recovery asked the gateway for the refund. -/
def SentAgain (refundId : Uuid) : Prop :=
  (∃ amountCents currency outcome before,
    .answered call .recoverSubmitted (.createRefund amountCents currency refundId.toString)
      outcome before ∈ events) ∧ Handled call events refundId

/-- The refunds fall into so many that were found at the gateway and so many that were not. -/
def Parted (refunds : List Uuid) (already resubmitted : Nat) : Prop :=
  ∃ found sent : List Uuid, (found ++ sent).Perm refunds ∧
    found.length = already ∧ sent.length = resubmitted ∧
    (∀ refundId ∈ found, Found call events refundId) ∧
    ∀ refundId ∈ sent, SentAgain call events refundId

/-- Whether a step asks the gateway for a refund. -/
def asks : EngineEvent → Bool
  | .answered _ _ (.createRefund _ _ _) _ _ => true
  | _ => false

/-- What a recovery has done when it reports. -/
structure WalkedAll (stuck : List (Uuid × Status)) (report : RecoveryReport) : Prop where
  walked : report.walked = stuck.length
  parted : Parted call events (stuck.map Prod.fst) report.alreadyAtGateway report.resubmitted
  asked : report.resubmitted = events.countP asks

/-- The kind of reply an operation gives. -/
def Operation.Replies : Operation → Reply → Prop
  | .requestRefund .., .refundId _ | .approve .., .approved | .submitRefund _, .accepted _
  | .recoverSubmitted, .recovered _ | .handleWebhook .., .webhook _
  | .reconcile _, .reconciled _ => True
  | _, _ => False

/-- The steps behind a report of a submission or a recovery. -/
def Behind (operation : Operation) (reply : Reply) : Prop :=
  operation.Replies reply ∧
  (∀ refundId, operation = .submitRefund refundId →
    (reply = .accepted true → RefRecorded call events operation refundId) ∧
    (reply = .accepted false → Unanswered call events operation refundId ∨ ∃ row,
      Answered call operation events (.sql (.getRefund refundId)) (.ok (some row)) ∧
        row.status ≠ .requested ∧ row.status ≠ .submitted)) ∧
  (∀ report, operation = .recoverSubmitted → reply = .recovered report → ∃ stuck,
    Answered call operation events (.sql .selectStuck) (.ok stuck) ∧
      WalkedAll call events stuck report)

end Reports

/-- Reports have their steps behind them. -/
def replyContract (hmac : Hmac) : Contract (engine hmac) where
  license _ _ _ _ := True
  outcome call operation events result := ∀ reply, result = .ok reply →
    Behind call events operation reply

section Operations

variable {hmac : Hmac} {call : CallId} {operation : Operation} {events : List EngineEvent}
variable {α β : Type}

/-- The postcondition only looks at what the action returns when it succeeds. -/
abbrev Reports (hmac : Hmac) (call : CallId) (operation : Operation)
    (post : α → List EngineEvent → Prop) (action : Action α) (events : List EngineEvent) : Prop :=
  Upholds (replyContract hmac) call operation
    (fun result events => ∀ value, result = .ok value → post value events) action events

theorem reports_pure {post : α → List EngineEvent → Prop} {value : α} (holds : post value events) :
    Reports hmac call operation post (pure value) events := by
  apply upholds_pure
  rintro _ ⟨⟩
  exact holds

theorem reports_throw {post : α → List EngineEvent → Prop} {error : RefundError} :
    Reports hmac call operation post (throw error) events := by
  apply upholds_throw
  rintro _ ⟨⟩

theorem reports_sql {statement : Statement} {post : β → List EngineEvent → Prop}
    {continuation : statement.Value → Action β}
    (rest : ∀ value before, Reports hmac call operation post (continuation value)
      (.answered call operation (.sql statement) (.ok value) before :: events)) :
    Reports hmac call operation post (Action.sql statement >>= continuation) events := by
  refine upholds_sql trivial (fun value before _ _ => rest value before) ?_ ?_
  · rintro error before after executed _ ⟨⟩
  · rintro _ ⟨⟩

theorem reports_bind {action : Action α} {continuation : α → Action β}
    {post : β → List EngineEvent → Prop}
    (reports : Reports hmac call operation
      (fun value => Reports hmac call operation post (continuation value)) action events) :
    Reports hmac call operation post (action >>= continuation) events := by
  apply upholds_bind
  apply reports.mono
  intro result events holds
  cases result with
  | ok value => exact holds value rfl
  | error error => rintro _ ⟨⟩

variable {refundId : Uuid}

theorem RefRecorded.cons (event : EngineEvent)
    (recorded : RefRecorded call events operation refundId) :
    RefRecorded call (event :: events) operation refundId :=
  let ⟨update, gatewayRef, which, answered⟩ := recorded
  ⟨update, gatewayRef, which, answered.cons event⟩

theorem Unanswered.cons (event : EngineEvent)
    (unanswered : Unanswered call events operation refundId) :
    Unanswered call (event :: events) operation refundId :=
  let ⟨amountCents, currency, outcome, before, member, silent⟩ := unanswered
  ⟨amountCents, currency, outcome, before, List.mem_cons_of_mem _ member, silent⟩

theorem RefRecorded.append (newer : List EngineEvent)
    (recorded : RefRecorded call events operation refundId) :
    RefRecorded call (newer ++ events) operation refundId := by
  induction newer with
  | nil => exact recorded
  | cons event newer ih => exact ih.cons event

theorem Handled.append (newer : List EngineEvent) (handled : Handled call events refundId) :
    Handled call (newer ++ events) refundId := by
  induction newer with
  | nil => exact handled
  | cons event newer ih => exact ih.imp (RefRecorded.cons event) (Unanswered.cons event)

theorem Parted.append (newer : List EngineEvent) {refunds : List Uuid} {already resubmitted : Nat}
    (parted : Parted call events refunds already resubmitted) :
    Parted call (newer ++ events) refunds already resubmitted := by
  rcases parted with ⟨found, sent, all, counted, counted', atGateway, asked⟩
  refine ⟨found, sent, all, counted, counted', ?_, ?_⟩
  · intro refundId member
    rcases atGateway refundId member with ⟨⟨refund, before, looked⟩, recorded⟩
    exact ⟨⟨refund, before, List.mem_append_right _ looked⟩, recorded.append newer⟩
  · intro refundId member
    rcases asked refundId member with ⟨⟨amountCents, currency, outcome, before, sent⟩, handled⟩
    exact ⟨⟨amountCents, currency, outcome, before, List.mem_append_right _ sent⟩,
      handled.append newer⟩

theorem Parted.concat {refunds more : List Uuid} {already resubmitted already' resubmitted' : Nat}
    (parted : Parted call events refunds already resubmitted)
    (parted' : Parted call events more already' resubmitted') :
    Parted call events (refunds ++ more) (already + already') (resubmitted + resubmitted') := by
  rcases parted with ⟨found, sent, all, rfl, rfl, atGateway, asked⟩
  rcases parted' with ⟨found', sent', all', rfl, rfl, atGateway', asked'⟩
  refine ⟨found ++ found', sent ++ sent', ?_, List.length_append, List.length_append, ?_, ?_⟩
  · have sorted :
        (found ++ found' ++ (sent ++ sent')).Perm (found ++ sent ++ (found' ++ sent')) := by
      simpa only [List.append_assoc] using
        (List.perm_append_comm_assoc found' sent sent').append_left found
    exact sorted.trans (all.append all')
  · intro refundId member
    exact (List.mem_append.mp member).elim (atGateway refundId) (atGateway' refundId)
  · intro refundId member
    exact (List.mem_append.mp member).elim (asked refundId) (asked' refundId)

namespace WalkedAll

variable {stuck : List (Uuid × Status)} {report : RecoveryReport}

theorem split (walked : WalkedAll call events stuck report) :
    report.alreadyAtGateway + report.resubmitted = report.walked := by
  rcases walked.parted with ⟨found, sent, all, found_length, sent_length, _⟩
  rw [walked.walked, ← found_length, ← sent_length, ← List.length_append, all.length_eq,
    List.length_map]

theorem handled (walked : WalkedAll call events stuck report) {entry : Uuid × Status}
    (member : entry ∈ stuck) : Handled call events entry.1 := by
  rcases walked.parted with ⟨found, sent, all, _, _, atGateway, asked⟩
  rcases List.mem_append.mp (all.mem_iff.mpr (List.mem_map_of_mem member)) with listed | listed
  · exact .inl (atGateway _ listed).2
  · exact (asked _ listed).2

end WalkedAll

/-- What `submit_refund` has behind it when it reports. -/
private def Submitted (call : CallId) (refundId : Uuid) (accepted : Bool)
    (events : List EngineEvent) : Prop :=
  (accepted = true → RefRecorded call events (.submitRefund refundId) refundId) ∧
    (accepted = false → Unanswered call events (.submitRefund refundId) refundId ∨ ∃ row,
      Answered call (.submitRefund refundId) events (.sql (.getRefund refundId))
        (.ok (some row)) ∧ row.status ≠ .requested ∧ row.status ≠ .submitted)

theorem submitRefund_reports (refundId : Uuid) :
    Reports hmac call (.submitRefund refundId) (Submitted call refundId)
      (submitRefund refundId) events := by
  unfold submitRefund
  apply reports_bind
  unfold getRefund
  apply reports_sql
  intro found read
  cases found with
  | none => exact reports_throw
  | some row =>
      apply reports_pure
      have idle : row.status ≠ .requested ∧ row.status ≠ .submitted →
          Submitted call refundId false
            (.answered call (.submitRefund refundId) (.sql (.getRefund refundId))
              (.ok (some row)) read :: events) :=
        fun still => ⟨nofun, fun _ => .inr ⟨row, .head, still⟩⟩
      by_cases terminal : row.status = .settled ∨ row.status = .failed ∨ row.status = .canceled
      · simp only [if_pos terminal]
        apply reports_pure
        apply idle
        rcases terminal with settled | failed | canceled
        · simp [settled]
        · simp [failed]
        · simp [canceled]
      simp only [if_neg terminal]
      by_cases pending : row.status = .pendingReview
      · simp only [if_pos pending]
        apply reports_pure
        apply idle
        simp [pending]
      simp only [if_neg pending]
      apply reports_sql
      intro _ marked
      have sends : ∀ events : List EngineEvent,
          Reports hmac call (.submitRefund refundId) (Submitted call refundId)
            (Action.createRefund row.amountCents row.currency refundId.toString >>=
              recordOutcome refundId)
            events := by
        intro events
        refine upholds_createRefund trivial ?_
        intro outcome asked
        cases outcome with
        | accepted refund =>
            apply reports_sql
            intro _ recorded
            exact reports_pure ⟨fun _ => ⟨_, refund.id, .inl rfl, .head⟩, nofun⟩
        | dropped =>
            exact reports_pure ⟨nofun, fun _ => .inl
              ⟨_, _, _, asked, List.mem_cons_self .., .inl rfl⟩⟩
        | timedOut =>
            exact reports_pure ⟨nofun, fun _ => .inl
              ⟨_, _, _, asked, List.mem_cons_self .., .inr rfl⟩⟩
      by_cases submitted : row.status ≠ .submitted
      · simp only [if_pos submitted]
        apply reports_sql
        intro _ recorded
        exact sends _
      · simp only [if_neg submitted]
        exact sends _

/-- These refunds have been walked and handled since. -/
private structure Tallied (call : CallId) (refunds : List Uuid) (before after : RecoveryReport)
    (earlier events : List EngineEvent) : Prop where
  kept : ∃ newer, events = newer ++ earlier
  walked : after.walked = before.walked + refunds.length
  parted : ∃ already resubmitted, Parted call events refunds already resubmitted ∧
    after.alreadyAtGateway = before.alreadyAtGateway + already ∧
    after.resubmitted = before.resubmitted + resubmitted
  asked : after.resubmitted + earlier.countP asks = before.resubmitted + events.countP asks

private theorem Tallied.trans {refunds more : List Uuid} {first second third : RecoveryReport}
    {earlier middle later : List EngineEvent}
    (left : Tallied call refunds first second earlier middle)
    (right : Tallied call more second third middle later) :
    Tallied call (refunds ++ more) first third earlier later := by
  rcases left.kept with ⟨newer, rfl⟩
  rcases right.kept with ⟨newest, rfl⟩
  have walked := right.walked
  have asked := right.asked
  rw [left.walked] at walked
  have before := left.asked
  rcases left.parted with ⟨already, resubmitted, parted, added, added'⟩
  rcases right.parted with ⟨already', resubmitted', parted', more, more'⟩
  constructor
  · exact ⟨newest ++ newer, (List.append_assoc ..).symm⟩
  · rw [walked, List.length_append, Nat.add_assoc]
  · refine ⟨_, _, (parted.append newest).concat parted', ?_, ?_⟩
    · rw [more, added, Nat.add_assoc]
    · rw [more', added', Nat.add_assoc]
  · omega

private theorem Tallied.found {refundId : Uuid} {report : RecoveryReport}
    {earlier : List EngineEvent} (newer : List EngineEvent)
    (found : Found call (newer ++ earlier) refundId)
    (silent : newer.countP asks = 0) :
    Tallied call [refundId] report
      { report with
        alreadyAtGateway := report.alreadyAtGateway + 1
        walked := report.walked + 1 } earlier (newer ++ earlier) where
  kept := ⟨newer, rfl⟩
  walked := rfl
  parted := by
    refine ⟨1, 0, ⟨[refundId], [], .refl _, rfl, rfl, ?_, nofun⟩, rfl, rfl⟩
    rintro _ (_ | ⟨_, ⟨⟩⟩)
    exact found
  asked := by rw [List.countP_append, silent, Nat.zero_add]

private theorem Tallied.sent {refundId : Uuid} {report : RecoveryReport}
    {earlier : List EngineEvent} (newer : List EngineEvent)
    (sent : SentAgain call (newer ++ earlier) refundId)
    (once : newer.countP asks = 1) :
    Tallied call [refundId] report
      { report with
        resubmitted := report.resubmitted + 1
        walked := report.walked + 1 } earlier (newer ++ earlier) where
  kept := ⟨newer, rfl⟩
  walked := rfl
  parted := by
    refine ⟨0, 1, ⟨[], [refundId], .refl _, rfl, rfl, nofun, ?_⟩, rfl, rfl⟩
    rintro _ (_ | ⟨_, ⟨⟩⟩)
    exact sent
  asked := by rw [List.countP_append, once, Nat.add_assoc]

theorem recoverRow_reports (report : RecoveryReport) (refundId : Uuid) (status : Status) :
    Reports hmac call .recoverSubmitted
      (fun after later => Tallied call [refundId] report after events later)
      (recoverRow report refundId status) events := by
  unfold recoverRow
  refine upholds_lookupByKey trivial ?_
  intro found looked
  cases found with
  | some refund =>
      apply reports_sql
      intro _ recovered
      apply reports_sql
      intro _ audited
      apply reports_pure
      refine Tallied.found [_, _, _] ⟨⟨refund, looked, ?_⟩, ?_⟩ rfl
      · exact List.mem_cons_of_mem _ (List.mem_cons_of_mem _ (List.mem_cons_self ..))
      · exact RefRecorded.cons _ ⟨_, refund.id, .inr rfl, .head⟩
  | none =>
      apply reports_sql
      intro terms selected
      apply reports_sql
      intro _ marked
      refine upholds_createRefund trivial ?_
      intro outcome sent
      cases outcome with
      | accepted refund =>
          apply reports_sql
          intro _ recorded
          apply reports_sql
          intro _ audited
          apply reports_pure
          refine Tallied.sent [_, _, _, _, _, _] ⟨⟨_, _, _, sent,
            List.mem_cons_of_mem _ (List.mem_cons_of_mem _ (List.mem_cons_self ..))⟩, .inl ?_⟩ rfl
          exact RefRecorded.cons _ ⟨_, refund.id, .inl rfl, .head⟩
      | dropped | timedOut =>
          apply reports_sql
          intro _ audited
          apply reports_pure
          refine Tallied.sent [_, _, _, _, _]
            ⟨⟨_, _, _, sent, List.mem_cons_of_mem _ (List.mem_cons_self ..)⟩, .inr ?_⟩ rfl
          exact Unanswered.cons _ ⟨_, _, _, sent, List.mem_cons_self .., by simp⟩

/-- The loop, by induction on the rows still to be walked. -/
theorem recoverRows_reports (report : RecoveryReport) (stuck : List (Uuid × Status)) :
    Reports hmac call .recoverSubmitted
      (fun after later => Tallied call (stuck.map Prod.fst) report after events later)
      (recoverRows report stuck) events := by
  induction stuck generalizing report events with
  | nil =>
      apply reports_pure
      exact ⟨⟨[], rfl⟩, rfl, ⟨0, 0, ⟨[], [], .refl _, rfl, rfl, nofun, nofun⟩, rfl, rfl⟩, rfl⟩
  | cons entry stuck ih =>
      apply reports_bind
      apply (recoverRow_reports report entry.1 entry.2).mono
      rintro result between advanced middle rfl
      apply (ih middle).mono
      rintro result later rest after rfl
      exact (advanced middle rfl).trans (rest after rfl)

theorem recoverSubmitted_reports :
    Reports hmac call .recoverSubmitted
      (fun report events => ∃ stuck,
        Answered call .recoverSubmitted events (.sql .selectStuck) (.ok stuck) ∧
          WalkedAll call events stuck report)
      recoverSubmitted [.started call .recoverSubmitted] := by
  unfold recoverSubmitted
  apply reports_sql
  intro stuck selected
  apply (recoverRows_reports {} stuck).mono
  rintro result later rest report rfl
  have walked := rest report rfl
  rcases walked.kept with ⟨newer, rfl⟩
  refine ⟨stuck, ⟨selected, List.mem_append_right _ (List.mem_cons_self ..)⟩, ?_⟩
  rcases walked.parted with ⟨already, resubmitted, parted, counted, counted'⟩
  constructor
  · simpa using walked.walked
  · rw [counted, counted', Nat.zero_add, Nat.zero_add]
    exact parted
  · simpa [asks] using walked.asked

theorem replyContract_upheld (hmac : Hmac) : (replyContract hmac).Upheld := by
  intro call operation
  have free : ∀ {α : Type} {change : α → Reply} {action : Action α},
      (∀ value, operation.Replies (change value)) →
      (∀ refundId, operation ≠ .submitRefund refundId) → operation ≠ .recoverSubmitted →
      (engine hmac).program operation = (change <$> action).run →
      (replyContract hmac).Obeys call operation
        (fun result events => (replyContract hmac).outcome call operation events result)
        ((engine hmac).program operation) [.started call operation] := by
    intro α change action replies noSubmission noRecovery program
    rw [program]
    apply upholds_map
    apply Contract.obeys_of_free
    · intro events command
      trivial
    · intro result events reply returned
      refine ⟨?_, ?_, ?_⟩
      · cases result with
        | ok value =>
            cases returned
            exact replies value
        | error error => cases returned
      · intro refundId same
        exact (noSubmission refundId same).elim
      · intro report same
        exact (noRecovery same).elim
  cases operation with
  | submitRefund refundId =>
      apply upholds_map
      apply (submitRefund_reports refundId).mono
      intro result events reports reply returned
      cases result with
      | ok accepted =>
          cases returned
          refine ⟨trivial, ?_, nofun⟩
          rintro _ ⟨⟩
          rcases reports accepted rfl with ⟨recorded, idle⟩
          refine ⟨?_, ?_⟩
          · intro isTrue
            exact recorded (by cases isTrue; rfl)
          · intro isFalse
            exact idle (by cases isFalse; rfl)
      | error error => cases returned
  | recoverSubmitted =>
      apply upholds_map
      apply recoverSubmitted_reports.mono
      intro result events reports reply returned
      cases result with
      | ok report =>
          cases returned
          refine ⟨trivial, nofun, ?_⟩
          rintro _ _ ⟨⟩
          exact reports report rfl
      | error error => cases returned
  | requestRefund | approve | handleWebhook | reconcile =>
      refine free ?_ nofun nofun rfl
      intro value
      trivial

end Operations

/-- The refund is on the gateway's books with the terms of its row, and the row has the
reference. -/
def Placed (world : World) (refundId : Uuid) : Prop :=
  ∃ row ∈ world.rows, ∃ refund,
    row.id = refundId ∧ Status.submitted.rank ≤ row.status.rank ∧
    row.gatewayRef = some refund.id ∧
    world.gateway.lookupByKey refundId.toString = some refund ∧
    refund.amount = row.amountCents ∧ refund.currency = row.currency

section Run

variable {hmac : Hmac} {trace : List EngineEvent} {state : EngineState} {call : CallId}
variable {operation : Operation} {refundId : Uuid}

/-- A call that has returned had met every contract, and has done nothing since. -/
theorem EngineRun.before_finished (run : EngineRun hmac trace state)
    {result : Except RefundError Reply} (finished : .finished call operation result ∈ trace) :
    ∃ earlier reached, EngineRun hmac earlier reached ∧
      (∀ event ∈ own call earlier, event ∈ trace) ∧
      own call trace = .finished call operation result :: own call earlier ∧
      ∀ contract : Contract (engine hmac), contract.Upheld →
        contract.outcome call operation (own call earlier) result := by
  rcases run with ⟨charges, config, now, run⟩
  have stands : state.calls call = .finished operation result := run.calls_of_ending finished rfl
  rcases Interleaving.Contract.own_of_finished run rfl stands with
    ⟨newer, earlier, split, latest⟩
  rcases run.step_of_split split with ⟨reached, _, reaches, _, _⟩
  refine ⟨earlier, reached, ⟨charges, config, now, reaches⟩, ?_, latest, ?_⟩
  · intro event member
    exact (mem_own.mp (latest ▸ List.mem_cons_of_mem _ member : event ∈ own call trace)).1
  · intro contract upheld
    have respected := upheld.respected (fun _ => rfl) run
    rw [split] at respected
    exact respected.permits_of_append

theorem placed_of_recorded {world : World} (ok : WorldOk world) {row : Refund}
    (member : row ∈ world.rows) {gatewayRef : String}
    (recorded : row.gatewayRef = some gatewayRef) : Placed world row.id := by
  have rowOk := ok.row row member
  rcases rowOk.ref gatewayRef recorded with ⟨refund, held, rfl⟩
  rcases rowOk.object refund held with ⟨amount, currency⟩
  refine ⟨row, member, refund, rfl, rowOk.past_of_ref recorded, recorded, ?_, amount, currency⟩
  rw [← rowOk.key]
  exact held

theorem EngineRun.held_of_recordRef (run : EngineRun hmac trace state) {gatewayRef : String}
    {update : RefundUpdate}
    (records : update = .recordRef refundId gatewayRef ∨ update = .recoverRef refundId gatewayRef)
    {answer : Except DbError Unit} {before : World}
    (member : .answered call operation (.sql (.updateRefunds update)) answer before ∈ trace) :
    ∃ refund, before.gateway.lookupByKey refundId.toString = some refund := by
  rcases List.append_of_mem member with ⟨newer, earlier, split⟩
  rcases run.reached_of_split split with ⟨reached, after, reaches, rfl, _⟩
  have licensed := run.licensed split
  rcases records with rfl | rfl
  · rcases licensed with ⟨amount, currency, refund, accepted, _⟩
    exact ⟨refund, accepted.accepted reaches.recalled⟩
  · rcases licensed with ⟨_, _, refund, found, _⟩
    exact ⟨refund, found.lookedUp reaches.recalled⟩

/-- A refund whose reference a call has recorded is placed. -/
theorem EngineRun.placed_of_recorded (run : EngineRun hmac trace state)
    (recorded : RefRecorded call (own call trace) operation refundId) :
    Placed state.world refundId := by
  rcases recorded with ⟨update, gatewayRef, records, before, listed⟩
  have member := (mem_own.mp listed).1
  have ok := run.worldOk_of_answered member
  have founded := run.invariant.founded _ _ _ _ _ member
  rcases run.recalled.seen _ member with ⟨after, executed, _, since⟩
  have executed : before.execute call (.updateRefunds update) = some (.ok (), after) := executed
  rcases execute_updateRefunds ok founded.1 executed with ⟨_, refunds, rfl, rows⟩
  rcases run.held_of_recordRef records member with ⟨refund, held⟩
  rcases ok.backed _ _ held with ⟨row, inside, key⟩
  have same : row.id = refundId := by
    apply Uuid.toString_injective
    rw [← (ok.row row inside).key, key]
  have present : ((update.change before.now).apply row).gatewayRef ≠ none := by
    simp only [RefundUpdate.change]
    rcases records with rfl | rfl
    all_goals
      split
      · simp [RefundUpdate.assign]
      · rename_i skipped
        simpa [RefundUpdate.Applies, same] using skipped
  have changed : (update.change before.now).apply row ∈ (before.setRefunds refunds).rows := by
    show _ ∈ refunds.rows
    rw [rows]
    exact List.mem_map_of_mem inside
  rcases Option.ne_none_iff_exists'.mp present with ⟨written, recorded⟩
  rcases since.forward _ changed with ⟨row', inside', advances⟩
  have placed := RefundEngine.placed_of_recorded run.worldOk inside'
    (advances.gatewayRef _ recorded)
  rw [advances.id, RowChange.apply_id, same] at placed
  exact placed

theorem EngineRun.audit_of_recordTransition (run : EngineRun hmac trace state)
    {fromStatus : Option Status} {toStatus : Status} {actor : String} {before : World}
    (member : .answered call operation
      (.sql (.recordTransition refundId fromStatus toStatus actor)) (.ok ()) before ∈ trace) :
    before.auditRow refundId fromStatus toStatus actor ∈ state.world.database.transitions := by
  rw [run.transitions]
  exact List.mem_flatMap.mpr ⟨_, List.mem_reverse.mpr member, List.mem_singleton_self _⟩

theorem EngineRun.submitted_of_asked (run : EngineRun hmac trace state) {amount : Int64}
    {currency : String} {outcome : GatewayOutcome} {before : World}
    (member : .answered call operation (.createRefund amount currency refundId.toString) outcome
      before ∈ trace) :
    ∃ row ∈ state.world.rows, row.id = refundId ∧ Status.submitted.rank ≤ row.status.rank := by
  rcases run.invariant.founded _ _ _ _ _ member with ⟨row, inside, key, _, _, past⟩
  rcases run.recalled.seen _ member with ⟨after, _, changed, since⟩
  rcases (changed.trans since).forward row inside with ⟨row', inside', advances⟩
  refine ⟨row', inside', ?_, le_trans past advances.rank_le⟩
  rw [advances.id]
  apply Uuid.toString_injective
  rw [← ((run.worldOk_of_answered member).row row inside).key, key]

theorem EngineRun.row_of_read (run : EngineRun hmac trace state) {read : Refund} {before : World}
    (member : .answered call operation (.sql (.getRefund refundId)) (.ok (some read)) before ∈
      trace) : read.id = refundId ∧ ∃ row ∈ state.world.rows, Advances read row :=
  Answered.getRefund run.recalled ⟨before, mem_own.mpr ⟨member, rfl⟩⟩

/-- The gateway was asked for the refund, but was configured not to answer. -/
def Excused (trace : List EngineEvent) (call : CallId) (refundId : Uuid) : Prop :=
  ∃ amountCents currency outcome before,
    .answered call .recoverSubmitted (.createRefund amountCents currency refundId.toString)
      outcome before ∈ trace ∧
    (outcome = .dropped ∧ before.gateway.config.dropResponse = true ∨
      outcome = .timedOut ∧ before.gateway.config.timeOut = true ∧
        before.gateway.lookupByKey refundId.toString = none)

theorem EngineRun.excused_of_unanswered (run : EngineRun hmac trace state)
    (unanswered : Unanswered call trace .recoverSubmitted refundId) :
    Excused trace call refundId := by
  rcases unanswered with ⟨amountCents, currency, outcome, before, member, silent⟩
  refine ⟨amountCents, currency, outcome, before, member, ?_⟩
  rcases run.recalled.seen _ member with ⟨after, executed, _, _⟩
  have answered : (before.gateway.createRefund amountCents currency refundId.toString).1 =
      outcome := congrArg Prod.fst (Option.some.inj executed)
  rcases before.gateway.createRefund_cases amountCents currency refundId.toString with
    ⟨existing, _, result⟩ | ⟨unheld, timeOut, result⟩ | ⟨_, _, result⟩
  all_goals
    rw [result] at answered
    subst answered
  · left
    cases drops : before.gateway.config.dropResponse <;>
      simp [MockGateway.respond, drops] at silent ⊢
  · right
    exact ⟨rfl, timeOut, unheld⟩
  · left
    cases drops : before.gateway.config.dropResponse <;>
      simp [MockGateway.respond, drops] at silent ⊢

end Run

/-! ## Reports that last -/

/-- The effect that the reply to a call has reported, as a world shows it. -/
def Honored (hmac : Hmac) (trace : List EngineEvent) (call : CallId) (world : World) :
    Operation → Reply → Prop
  | .requestRefund refundId chargeId amountCents currency actor reasonCode, .refundId reported =>
      let request : RefundRequest :=
        { refundId, chargeId, amountCents, currency, actor, reasonCode }
      reported = refundId ∧
      (∃ positive began, ∃ row ∈ world.rows, Advances (request.row positive began) row) ∧
      ∃ audit ∈ world.database.transitions,
        audit.refundId = refundId ∧ audit.line = request.line
  | .approve refundId approver, .approved =>
      (∃ row ∈ world.rows, row.id = refundId ∧ row.requestedBy ≠ approver ∧
        Status.requested.rank ≤ row.status.rank) ∧
      ∃ audit ∈ world.database.transitions,
        audit.refundId = refundId ∧ audit.fromStatus = some .pendingReview ∧
          audit.toStatus = .requested ∧ audit.actor = "approver:" ++ approver
  | .submitRefund refundId, .accepted recorded => recorded = true → Placed world refundId
  | .recoverSubmitted, .recovered report =>
      ∃ stuck before, ∃ found sent : List Uuid,
        .answered call .recoverSubmitted (.sql .selectStuck) (.ok stuck) before ∈ trace ∧
        (found ++ sent).Perm (stuck.map Prod.fst) ∧ (found ++ sent).Nodup ∧
        report = { alreadyAtGateway := found.length, resubmitted := sent.length
                   walked := stuck.length } ∧
        (∀ refundId ∈ found,
          (∃ refund looked, .answered call .recoverSubmitted (.lookupByKey refundId.toString)
            (some refund) looked ∈ trace) ∧ Placed world refundId) ∧
        ∀ refundId ∈ sent,
          (∃ amountCents currency outcome asked, .answered call .recoverSubmitted
            (.createRefund amountCents currency refundId.toString) outcome asked ∈ trace) ∧
          (∃ row ∈ world.rows, row.id = refundId ∧ Status.submitted.rank ≤ row.status.rank) ∧
          (Placed world refundId ∨ Excused trace call refundId)
  | .handleWebhook event rawBody sig secret, .webhook _ =>
      verifySignature hmac rawBody sig secret = true ∧
        event.id ∈ world.database.webhookEvents
  | .reconcile _, .reconciled _ => True
  | _, _ => False

section Honors

variable {hmac : Hmac} {trace : List EngineEvent} {state : EngineState} {call : CallId}

/-- The commit of a request has put its refund and its audit row into the tables. -/
theorem EngineRun.honors_request (run : EngineRun hmac trace state) (request : RefundRequest)
    {reply : Reply} (finished : .finished call request.operation (.ok reply) ∈ trace) :
    Honored hmac trace call state.world request.operation reply := by
  rcases run.before_finished finished with ⟨earlier, _, reaches, inTrace, _, outcome⟩
  have accepted := outcome _ (intakeContract_upheld hmac) request rfl
  generalize behind : own call earlier = events at accepted inTrace
  cases accepted with
  | @accepted reading inserting recording committing admits =>
      have member := inTrace _ (List.mem_cons_self ..)
      rcases reaches.reached_of_own behind with ⟨_, reached, after, run', own', world, executed⟩
      have linked := run'.recalled.linked call
      rw [own', world] at linked
      rcases Reading.of_recorded linked with ⟨positive, audit, opened, own'', line, _⟩
      refine ⟨rfl, ?_, ?_⟩
      · have ok := run'.worldOk
        rw [world] at ok
        rcases run.recalled.seen _ member with ⟨after, executed, _, since⟩
        have rows := (commit_rows (ok.pending _ _ opened) opened executed).1
        have committed : request.row positive reading.began.now ∈ after.rows := by
          generalize after.rows = rows' at rows
          cases rows with
          | nothing empty => cases empty
          | inserted writes =>
              cases writes
              exact List.mem_append_right _ (List.mem_singleton_self _)
          | decided writes => cases writes
        rcases since.forward _ committed with ⟨row, inside, advances⟩
        exact ⟨positive, reading.began.now, row, inside, advances⟩
      · refine ⟨audit, ?_, own'', line⟩
        rw [run.transitions]
        refine List.mem_flatMap.mpr ⟨_, List.mem_reverse.mpr member, ?_⟩
        show audit ∈ committing.staged call
        rw [World.staged_of_opened opened]
        exact List.mem_singleton_self _

/-- The update and the audit row of an approval are there for good. -/
theorem EngineRun.honors_approval (run : EngineRun hmac trace state) {refundId : Uuid}
    {approver : String} {reply : Reply}
    (finished : .finished call (.approve refundId approver) (.ok reply) ∈ trace) :
    Honored hmac trace call state.world (.approve refundId approver) reply := by
  rcases run.before_finished finished with ⟨earlier, _, _, inTrace, _, outcome⟩
  have approval := (outcome _ (auditContract_upheld hmac)).2 refundId approver rfl
  generalize own call earlier = events at approval inTrace
  cases approval with
  | @approved read recorded found before pending other =>
      simp only [List.forall_mem_cons] at inTrace
      rcases inTrace with ⟨noted, marked, reads, _⟩
      rcases run.row_of_read reads with ⟨same, row, inside, advances⟩
      rcases run.released_of_marked marked with ⟨released, inside', same', past⟩
      have isSame := state.world.database.refunds.eq_of_id inside inside'
        ((advances.id.trans same).trans same'.symm)
      subst isSame
      refine ⟨⟨row, inside, same', ?_, past⟩, ?_⟩
      · rw [advances.requestedBy]
        exact other.symm
      · exact ⟨_, run.audit_of_recordTransition noted, rfl, rfl, rfl, rfl⟩

theorem EngineRun.stuck_of_selected (run : EngineRun hmac trace state) {operation : Operation}
    {stuck : List (Uuid × Status)} {before : World}
    (member : .answered call operation (.sql .selectStuck) (.ok stuck) before ∈ trace) :
    stuck = stuckRows before.rows := by
  rcases run.recalled.seen _ member with ⟨after, executed, _, _⟩
  cases executed
  rfl

theorem EngineRun.past_of_handled (run : EngineRun hmac trace state) {refundId : Uuid}
    (handled : Handled call (own call trace) refundId) :
    ∃ row ∈ state.world.rows, row.id = refundId ∧ Status.submitted.rank ≤ row.status.rank := by
  rcases handled with recorded | ⟨_, _, _, _, asked, _⟩
  · rcases run.placed_of_recorded recorded with ⟨row, inside, _, same, past, _⟩
    exact ⟨row, inside, same, past⟩
  · exact run.submitted_of_asked (mem_own.mp asked).1

theorem EngineRun.placed_or_excused (run : EngineRun hmac trace state) {refundId : Uuid}
    (handled : Handled call (own call trace) refundId) :
    Placed state.world refundId ∨ Excused trace call refundId := by
  rcases handled with recorded | ⟨amountCents, currency, outcome, asked, member, silent⟩
  · exact .inl (run.placed_of_recorded recorded)
  · exact .inr (run.excused_of_unanswered
      ⟨amountCents, currency, outcome, asked, (mem_own.mp member).1, silent⟩)

/-- What a recovery that has reported has behind it, among all events of its call. -/
theorem EngineRun.walked_of_finished (run : EngineRun hmac trace state) {reply : Reply}
    (finished : .finished call .recoverSubmitted (.ok reply) ∈ trace) :
    ∃ report stuck before, reply = .recovered report ∧
      .answered call .recoverSubmitted (.sql .selectStuck) (.ok stuck) before ∈ trace ∧
      WalkedAll call (own call trace) stuck report := by
  rcases run.before_finished finished with ⟨earlier, _, _, inTrace, latest, outcome⟩
  rcases outcome _ (replyContract_upheld hmac) reply rfl with ⟨replies, _, recovered⟩
  cases reply with
  | recovered report =>
      rcases recovered report rfl rfl with ⟨stuck, ⟨before, selected⟩, walked⟩
      refine ⟨report, stuck, before, rfl, inTrace _ selected, ?_⟩
      rw [latest]
      constructor
      · exact walked.walked
      · exact walked.parted.append [_]
      · rw [walked.asked]
        exact (List.countP_cons_of_neg Bool.false_ne_true).symm
  | refundId | approved | accepted | webhook | reconciled => exact replies.elim

/-- A recovery has placed every refund it found stuck, or the gateway did not answer. -/
theorem EngineRun.honors_recovery (run : EngineRun hmac trace state) {reply : Reply}
    (finished : .finished call .recoverSubmitted (.ok reply) ∈ trace) :
    Honored hmac trace call state.world .recoverSubmitted reply := by
  rcases run.walked_of_finished finished with ⟨report, stuck, before, rfl, selected, walked⟩
  rcases walked.parted with ⟨found, sent, all, counted, counted', atGateway, asked⟩
  refine ⟨stuck, before, found, sent, selected, all, ?_, ?_, ?_, ?_⟩
  · rw [all.nodup_iff, run.stuck_of_selected selected]
    exact stuckRows_nodup before.database.refunds
  · rw [counted, counted', ← walked.walked]
  · intro refundId listed
    rcases atGateway refundId listed with ⟨⟨refund, looked, member⟩, recorded⟩
    exact ⟨⟨refund, looked, (mem_own.mp member).1⟩, run.placed_of_recorded recorded⟩
  · intro refundId listed
    rcases asked refundId listed with ⟨⟨amountCents, currency, outcome, asked, member⟩, handled⟩
    exact ⟨⟨amountCents, currency, outcome, asked, (mem_own.mp member).1⟩,
      run.past_of_handled handled, run.placed_or_excused handled⟩

theorem EngineRun.seen_of_inserted (run : EngineRun hmac trace state) {operation : Operation}
    {event : WebhookEvent} (inserted : Inserted call operation event trace) :
    event.id ∈ state.world.database.webhookEvents := by
  rcases inserted with ⟨seen, before, member⟩
  rw [run.webhookEvents_eq, List.mem_reverse]
  exact List.mem_filterMap.mpr ⟨_, member, rfl⟩

theorem EngineRun.seen_of_finished (run : EngineRun hmac trace state) {event : WebhookEvent}
    {rawBody secret : Bytes} {sig : String} {result : WebhookResult}
    (finished : .finished call (.handleWebhook event rawBody sig secret)
      (.ok (.webhook result)) ∈ trace) :
    event.id ∈ state.world.database.webhookEvents := by
  rcases run.inserted_of_returned finished with ⟨caller, operation, seen, inserted⟩
  exact run.seen_of_inserted ⟨seen, inserted⟩

theorem EngineRun.replies_of_finished (run : EngineRun hmac trace state)
    {operation : Operation} {reply : Reply}
    (finished : .finished call operation (.ok reply) ∈ trace) : operation.Replies reply := by
  rcases run.before_finished finished with ⟨_, _, _, _, _, outcome⟩
  exact (outcome _ (replyContract_upheld hmac) reply rfl).1

theorem EngineRun.placed_of_accepted (run : EngineRun hmac trace state) {refundId : Uuid}
    (finished : .finished call (.submitRefund refundId) (.ok (.accepted true)) ∈ trace) :
    Placed state.world refundId := by
  rcases run.before_finished finished with ⟨_, _, _, inTrace, _, outcome⟩
  have behind := outcome _ (replyContract_upheld hmac) _ rfl
  rcases (behind.2.1 refundId rfl).1 rfl with ⟨update, gatewayRef, records, before, answered⟩
  exact run.placed_of_recorded
    ⟨update, gatewayRef, records, before, mem_own.mpr ⟨inTrace _ answered, rfl⟩⟩

end Honors

/-- Whatever else has run and failed since, a call that has returned successfully has done what
its reply says. -/
theorem acknowledged_lasts {hmac : Hmac} {trace : List EngineEvent} {state : EngineState}
    {call : CallId} {operation : Operation} {reply : Reply} (run : EngineRun hmac trace state)
    (finished : .finished call operation (.ok reply) ∈ trace) :
    Honored hmac trace call state.world operation reply := by
  have shape := run.replies_of_finished finished
  cases operation with
  | requestRefund refundId chargeId amountCents currency actor reasonCode =>
      exact run.honors_request
        ⟨refundId, chargeId, amountCents, currency, actor, reasonCode⟩ finished
  | approve refundId approver => exact run.honors_approval finished
  | submitRefund refundId =>
      cases reply with
      | accepted recorded =>
          rintro rfl
          exact run.placed_of_accepted finished
      | refundId | approved | recovered | webhook | reconciled => exact shape.elim
  | recoverSubmitted => exact run.honors_recovery finished
  | handleWebhook event rawBody sig secret =>
      cases reply with
      | webhook result =>
          rcases List.append_of_mem finished with ⟨newer, earlier, split⟩
          exact ⟨(run.outcome split event rawBody sig secret rfl).1 _ rfl,
            run.seen_of_finished finished⟩
      | refundId | approved | accepted | recovered | reconciled => exact shape.elim
  | reconcile settlementFile =>
      cases reply with
      | reconciled result => trivial
      | refundId | approved | accepted | recovered | webhook => exact shape.elim

theorem finished_of_ending {trace : List EngineEvent} {call : CallId} {operation : Operation}
    {result : Except RefundError Reply}
    (ended : ∃ event ∈ trace, event.ending = some (call, operation, some result)) :
    .finished call operation result ∈ trace := by
  rcases ended with ⟨event, member, ending⟩
  cases event with
  | finished =>
      cases ending
      exact member
  | started | answered | failed | died | acted => cases ending

/-- A refund is submitted, a second one is requested, and the gateway stops answering before
both are recovered. -/
def silenced : List EngineEvent × EngineState :=
  ((engine sampleHmac).play NoCancel
    (uninterrupted 0 (.requestRefund ⟨7⟩ sampleCharge.id 3000 "EUR" "alice" none) 6 ++
      uninterrupted 1 (.submitRefund ⟨7⟩) 5 ++
      uninterrupted 2 (.requestRefund ⟨8⟩ sampleCharge.id 2000 "EUR" "alice" none) 6 ++
      .act (.setConfig { timeOut := true }) :: uninterrupted 3 .recoverSubmitted 9)
    ([], initialState sampleCharges {} 10)).get (by decide +kernel)

theorem silenced_run : EngineRun sampleHmac silenced.1 silenced.2 :=
  .of_play (Option.some_get _).symm

private theorem silenced_finished : .finished 3 .recoverSubmitted
    (.ok (.recovered { alreadyAtGateway := 1, resubmitted := 1, walked := 2 })) ∈ silenced.1 :=
  finished_of_ending (by decide +kernel)

theorem acknowledged_lasts_silenced :
    Honored sampleHmac silenced.1 3 silenced.2.world .recoverSubmitted
      (.recovered { alreadyAtGateway := 1, resubmitted := 1, walked := 2 }) :=
  acknowledged_lasts silenced_run silenced_finished

/-- A refund that a recovery found stuck is placed when it reports, or the gateway was silent. -/
theorem EngineRun.placed_or_excused_of_stuck {hmac : Hmac} {trace : List EngineEvent}
    {state : EngineState} {call : CallId} (run : EngineRun hmac trace state)
    {stuck : List (Uuid × Status)} {before : World} {report : RecoveryReport}
    (selected : .answered call .recoverSubmitted (.sql .selectStuck) (.ok stuck) before ∈ trace)
    (walked : WalkedAll call (own call trace) stuck report) {row : Refund}
    (member : row ∈ before.rows) (live : row.status = .submitted ∨ row.status = .requested) :
    Placed state.world row.id ∨ Excused trace call row.id := by
  have listed : (row.id, row.status) ∈ stuck := by
    rw [run.stuck_of_selected selected]
    exact mem_stuckRows.mpr ⟨row, member, rfl, live⟩
  exact run.placed_or_excused (walked.handled listed)

/-- A recovery that has reported has walked every refund that was stuck when it looked, asked
the gateway as often as it says, and left out only those the gateway did not answer for.  This
holds whatever ran at the same time. -/
theorem recovery_leaves_only_unanswered {hmac : Hmac} {trace : List EngineEvent}
    {state : EngineState} {call : CallId} {report : RecoveryReport}
    (run : EngineRun hmac trace state)
    (finished : .finished call .recoverSubmitted (.ok (.recovered report)) ∈ trace) :
    ∃ stuck before,
      .answered call .recoverSubmitted (.sql .selectStuck) (.ok stuck) before ∈ trace ∧
      report.walked = stuck.length ∧
      report.alreadyAtGateway + report.resubmitted = report.walked ∧
      report.resubmitted = (own call trace).countP asks ∧
      ∀ row ∈ before.rows, row.status = .submitted ∨ row.status = .requested →
        Placed state.world row.id ∨ Excused trace call row.id := by
  rcases run.walked_of_finished finished with ⟨_, stuck, before, ⟨⟩, selected, walked⟩
  refine ⟨stuck, before, selected, walked.walked, walked.split, walked.asked, ?_⟩
  intro row member live
  exact run.placed_or_excused_of_stuck selected walked member live

theorem recovery_leaves_only_unanswered_silenced :
    ∃ stuck before,
      .answered 3 .recoverSubmitted (.sql .selectStuck) (.ok stuck) before ∈ silenced.1 ∧
      2 = stuck.length ∧ 1 + 1 = 2 ∧ 1 = (own 3 silenced.1).countP asks ∧
      ∀ row ∈ before.rows, row.status = .submitted ∨ row.status = .requested →
        Placed silenced.2.world row.id ∨ Excused silenced.1 3 row.id :=
  recovery_leaves_only_unanswered silenced_run silenced_finished

end RefundEngine
