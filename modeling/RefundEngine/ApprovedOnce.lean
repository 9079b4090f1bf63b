import RefundEngine.AuditTrail
import RefundEngine.Audit.Recording
import RefundEngine.SeparationOfDuties

/-!
# Approvals that race

An approval looks at the status of the refund, runs an update that only a pending refund
matches, and inserts its audit row whether or not the update matched.  So a pending refund is
approved exactly once if and only if only one of the approvals looks while it is still pending.
-/

namespace RefundEngine

open Interleaving (CallId Machine own own_append_cons mem_own)

/-- From a state in which the refund awaits review and nobody is approving it, calls of
`approve` run to their ends: at least one, none by the requester, none with an error of the
database. -/
structure Contest (state : EngineState) (more : List EngineEvent) (final : EngineState)
    (row : Refund) : Prop where
  member : row ∈ state.world.rows
  pending : row.status = .pendingReview
  unattended : ∀ call approver rest, state.calls call ≠ .running (.approve row.id approver) rest
  contested : ∃ call approver, .started call (.approve row.id approver) ∈ more
  others : ∀ call approver, .started call (.approve row.id approver) ∈ more →
    approver ≠ row.requestedBy
  finished : ∀ call approver, .started call (.approve row.id approver) ∈ more →
    ∃ result, final.calls call = .finished (.approve row.id approver) result ∧
      ∀ error, result ≠ .error (.db error)

/-- A call of `approve` looks at the refund while it is pending. -/
def FindsPending (more : List EngineEvent) (refundId : Uuid) (call : CallId) : Prop :=
  ∃ approver answer before,
    .answered call (.approve refundId approver) (.sql (.getRefund refundId)) answer before ∈
      more ∧
    ∃ row ∈ before.rows, row.id = refundId ∧ row.status = .pendingReview

/-- The audit row records the release of the refund. -/
def Transition.Releases (refundId : Uuid) (audit : Transition) : Prop :=
  audit.refundId = refundId ∧ audit.fromStatus = some .pendingReview ∧
    audit.toStatus = .requested

instance (refundId : Uuid) : DecidablePred (Transition.Releases refundId) := fun _ =>
  inferInstanceAs (Decidable (_ ∧ _ ∧ _))

/-- Exactly one call approved the refund, the others found it approved, and exactly one audit
row records its release, by the approver whose update released it. -/
def ApprovedOnce (more : List EngineEvent) (final : EngineState) (refundId : Uuid) : Prop :=
  (∃ winner approver, .started winner (.approve refundId approver) ∈ more ∧
    final.calls winner = .finished (.approve refundId approver) (.ok .approved) ∧
    ∀ call approver, .started call (.approve refundId approver) ∈ more → call ≠ winner →
      final.calls call =
        .finished (.approve refundId approver) (.error (.notPendingReview refundId))) ∧
  ∃ audit, final.world.database.transitions.filter (Transition.Releases refundId) = [audit] ∧
    NamesApprover more refundId audit

section Single

variable {hmac : Hmac} {trace : List EngineEvent} {state : EngineState} {call : CallId}
variable {operation : Operation} {refundId : Uuid}

theorem EngineRun.getRefund_answer (run : EngineRun hmac trace state)
    {answer : Except DbError (Option Refund)} {before : World}
    (member : .answered call operation (.sql (.getRefund refundId)) answer before ∈ trace) :
    answer = .ok (before.database.refunds.find? refundId) := by
  rcases List.append_of_mem member with ⟨newer, earlier, split⟩
  rcases run.reached_of_split split with ⟨reached, after, _, rfl, executed⟩
  simp only [Command.execute, World.execute, Option.some.injEq, Prod.mk.injEq] at executed
  exact executed.1.symm

/-- The update of an approval finds the refund, which the approval has read. -/
theorem EngineRun.known_of_marked (run : EngineRun hmac trace state) {found : World}
    (marked : .answered call operation (.sql (.updateRefunds (.markRequested refundId)))
      (.ok ()) found ∈ trace) : ∃ row ∈ found.rows, row.id = refundId := by
  rcases List.append_of_mem marked with ⟨newer, earlier, split⟩
  rcases run.licensed split with ⟨approver, read, _, answered, _, _⟩
  rcases run.reached_of_split split with ⟨reached, after, earlierRun, rfl, _⟩
  rcases answered.getRefund earlierRun.recalled with ⟨same, row, inside, advances⟩
  exact ⟨row, inside, advances.id.trans same⟩

/-- Once an approval has run its update, the refund is out of review. -/
theorem EngineRun.released_of_marked (run : EngineRun hmac trace state) {found : World}
    (marked : .answered call operation (.sql (.updateRefunds (.markRequested refundId)))
      (.ok ()) found ∈ trace) :
    ∃ released ∈ state.world.rows, released.id = refundId ∧
      Status.requested.rank ≤ released.status.rank := by
  rcases run.known_of_marked marked with ⟨row, known, same⟩
  have founded := run.invariant.founded _ _ _ _ _ marked
  rcases run.recalled.seen _ marked with ⟨after, executed, _, since⟩
  have executed : found.execute call (.updateRefunds (.markRequested refundId)) =
      some (.ok (), after) := executed
  rcases execute_updateRefunds (run.worldOk_of_answered marked) founded.1 executed with
    ⟨_, refunds, rfl, rows⟩
  have member : (RefundUpdate.change found.now (.markRequested refundId)).apply row ∈
      (found.setRefunds refunds).rows := by
    show _ ∈ refunds.rows
    rw [rows]
    exact List.mem_map_of_mem known
  have past : Status.requested.rank ≤
      ((RefundUpdate.change found.now (.markRequested refundId)).apply row).status.rank := by
    simp only [RefundUpdate.change]
    split
    · exact le_refl _
    · rename_i unmatched
      by_cases pending : row.status = .pendingReview
      · exact (unmatched ⟨same, pending⟩).elim
      · revert pending
        cases row.status <;> simp [Status.rank]
  rcases since.forward _ member with ⟨released, inside, advances⟩
  refine ⟨released, inside, ?_, le_trans past advances.rank_le⟩
  rw [advances.id, RowChange.apply_id]
  exact same

theorem EngineRun.approval_of_finished (run : EngineRun hmac trace state) {approver : String}
    {result : Except RefundError Reply}
    (finished : state.calls call = .finished (.approve refundId approver) result) :
    ∃ events, own call trace = .finished call (.approve refundId approver) result :: events ∧
      Approval call refundId approver result events := by
  rcases run with ⟨_, _, _, run⟩
  rcases Interleaving.Contract.own_of_finished run rfl finished with ⟨newer, earlier, split, latest⟩
  have respected := (auditContract_upheld hmac).respected (fun _ => rfl) run
  rw [split] at respected
  exact ⟨own call earlier, latest, respected.permits_of_append.2 refundId approver rfl⟩

end Single

/-! ## The contest -/

namespace Contest

variable {hmac : Hmac} {earlier more : List EngineEvent} {state final : EngineState}
variable {row : Refund} {call : CallId} {approver : String}

theorem started_of_answered (contest : Contest state more final row)
    (continued : (engine hmac).Run NoCancel state more final) {command : Command}
    {answer : command.Answer} {before : World}
    (answered : .answered call (.approve row.id approver) command answer before ∈ more) :
    .started call (.approve row.id approver) ∈ more := by
  rcases continued.origin_of_answered answered with ⟨_, started⟩ | ⟨rest, running⟩
  · exact started
  · exact (contest.unattended call approver rest running).elim

theorem of_read (contest : Contest state more final row) (run : EngineRun hmac earlier state)
    (continued : (engine hmac).Run NoCancel state more final) {operation : Operation}
    {answer : Except DbError (Option Refund)} {before : World}
    (answered : .answered call operation (.sql (.getRefund row.id)) answer before ∈ more) :
    ∃ read ∈ before.rows, read.id = row.id ∧ answer = .ok (some read) ∧ Advances row read := by
  rcases List.append_of_mem answered with ⟨newer, since, split⟩
  rcases continued.step_of_split split with ⟨reached, after, between, step, _⟩
  have answer' := (run.append continued).getRefund_answer (List.mem_append_left _ answered)
  rcases (run.later between).forward row contest.member with ⟨read, inside, advances⟩
  cases step with
  | answer running executed =>
      have found := RefundTable.find?_eq_some.mpr ⟨inside, advances.id⟩
      exact ⟨read, inside, advances.id, answer'.trans (congrArg _ found), advances⟩

/-- An approval of the contest releases the refund, or finds it released. -/
theorem outcome (contest : Contest state more final row) (run : EngineRun hmac earlier state)
    (continued : (engine hmac).Run NoCancel state more final)
    (started : .started call (.approve row.id approver) ∈ more) :
    (final.calls call = .finished (.approve row.id approver) (.ok .approved) ∧
      ∃ read recorded found before, read.status = .pendingReview ∧
        own call more =
          [.finished call (.approve row.id approver) (.ok .approved),
            .answered call (.approve row.id approver)
              (.sql (.recordTransition row.id (some .pendingReview) .requested
                ("approver:" ++ approver))) (.ok ()) recorded,
            .answered call (.approve row.id approver)
              (.sql (.updateRefunds (.markRequested row.id))) (.ok ()) found,
            .answered call (.approve row.id approver) (.sql (.getRefund row.id))
              (.ok (some read)) before,
            .started call (.approve row.id approver)]) ∨
    (final.calls call =
        .finished (.approve row.id approver) (.error (.notPendingReview row.id)) ∧
      ∃ read before, read.status ≠ .pendingReview ∧
        own call more =
          [.finished call (.approve row.id approver) (.error (.notPendingReview row.id)),
            .answered call (.approve row.id approver) (.sql (.getRefund row.id))
              (.ok (some read)) before,
            .started call (.approve row.id approver)]) := by
  rcases contest.finished call approver started with ⟨result, finished, undisturbed⟩
  rcases (run.append continued).approval_of_finished finished with ⟨events, latest, approval⟩
  rw [run.own_of_started continued started] at latest
  have inMore : ∀ {event}, event ∈ events → event ∈ more := by
    intro event member
    have inOwn : event ∈ own call more := by
      rw [latest]
      exact List.mem_cons_of_mem _ member
    exact (mem_own.mp inOwn).1
  cases approval with
  | @approved read recorded found before pending other =>
      exact .inl ⟨finished, read, recorded, found, before, pending, latest⟩
  | @passed read before past => exact .inr ⟨finished, read, before, past, latest⟩
  | own pending same =>
      rcases contest.of_read run continued (inMore (List.mem_cons_self ..)) with
        ⟨read, _, _, answer, advances⟩
      cases answer
      exact (contest.others call approver started (same.trans advances.requestedBy)).elim
  | missing =>
      rcases contest.of_read run continued (inMore (List.mem_cons_self ..)) with
        ⟨read, _, _, answer, _⟩
      cases answer
  | refused => exact (undisturbed _ rfl).elim

/-- The approvals that look at the pending refund are those that return `Ok`. -/
theorem findsPending_iff (contest : Contest state more final row)
    (run : EngineRun hmac earlier state)
    (continued : (engine hmac).Run NoCancel state more final)
    (started : .started call (.approve row.id approver) ∈ more) :
    FindsPending more row.id call ↔
      final.calls call = .finished (.approve row.id approver) (.ok .approved) := by
  have inMore : ∀ {event}, event ∈ own call more → event ∈ more := fun member =>
    (mem_own.mp member).1
  constructor
  · rintro ⟨approver', answer, before, answered, pending, pendingIn, isRow, status⟩
    rcases contest.outcome run continued started with ⟨finished, _⟩ |
      ⟨_, read, before', past, behind⟩
    · exact finished
    · exfalso
      have answer' := (run.append continued).getRefund_answer (List.mem_append_left _ answered)
      rw [RefundTable.find?_eq_some.mpr ⟨pendingIn, isRow⟩] at answer'
      have inOwn := mem_own.mpr ⟨answered, rfl⟩
      simp only [behind, answer', List.mem_cons, List.not_mem_nil, or_false, reduceCtorEq,
        false_or, Interleaving.Event.answered.injEq] at inOwn
      have same := inOwn.2.2.2.1
      simp at same
      exact past (same ▸ status)
  · intro finished
    rcases contest.outcome run continued started with
      ⟨_, read, recorded, found, before, pending, behind⟩ | ⟨finished', _⟩
    · have answered : .answered call (.approve row.id approver) (.sql (.getRefund row.id))
          (.ok (some read)) before ∈ more := by
        apply inMore
        rw [behind]
        simp
      rcases contest.of_read run continued answered with ⟨read', inside, same, answer, _⟩
      cases answer
      exact ⟨approver, _, before, answered, read, inside, same, pending⟩
    · cases finished.symm.trans finished'

theorem released (contest : Contest state more final row) (run : EngineRun hmac earlier state)
    (continued : (engine hmac).Run NoCancel state more final) :
    ∃ after ∈ final.world.rows, after.id = row.id ∧ after.status ≠ .pendingReview := by
  have whole := run.append continued
  have outOfReview : ∀ {status : Status}, Status.requested.rank ≤ status.rank →
      status ≠ .pendingReview := by
    rintro status past rfl
    simp [Status.rank] at past
  rcases contest.contested with ⟨call, approver, started⟩
  rcases contest.outcome run continued started with
    ⟨_, read, recorded, found, before, pending, behind⟩ | ⟨_, read, before, past, behind⟩
  · have marked : .answered call (.approve row.id approver)
        (.sql (.updateRefunds (.markRequested row.id))) (.ok ()) found ∈ own call more := by
      rw [behind]
      simp
    rcases whole.released_of_marked (List.mem_append_left _ (mem_own.mp marked).1) with
      ⟨after, inside, same, past⟩
    exact ⟨after, inside, same, outOfReview past⟩
  · have answered : Answered call (.approve row.id approver) (own call (more ++ earlier))
        (.sql (.getRefund row.id)) (.ok (some read)) := by
      rw [run.own_of_started continued started, behind]
      exact Answered.head.cons _
    rcases answered.getRefund whole.recalled with ⟨same, after, inside, advances⟩
    refine ⟨after, inside, advances.id.trans same, ?_⟩
    intro pending
    rcases advances.status with kept | moved
    · exact past (kept.symm.trans pending)
    · simp [pending, Status.rank] at moved

theorem mem_of_marked (contest : Contest state more final row)
    (run : EngineRun hmac earlier state) {operation : Operation} {found : World}
    (marked : .answered call operation (.sql (.updateRefunds (.markRequested row.id))) (.ok ())
      found ∈ more ++ earlier) :
    .answered call operation (.sql (.updateRefunds (.markRequested row.id))) (.ok ()) found ∈
      more := by
  rcases List.mem_append.mp marked with inMore | before
  · exact inMore
  · rcases run.released_of_marked before with ⟨after, afterIn, isRow, past⟩
    have unique := state.world.database.refunds.eq_of_id afterIn contest.member isRow
    rw [unique, contest.pending] at past
    simp [Status.rank] at past

theorem winner (contest : Contest state more final row) (run : EngineRun hmac earlier state)
    (continued : (engine hmac).Run NoCancel state more final) :
    ∃ call approver found pending, .started call (.approve row.id approver) ∈ more ∧
      .answered call (.approve row.id approver)
        (.sql (.updateRefunds (.markRequested row.id))) (.ok ()) found ∈ more ∧
      pending ∈ found.rows ∧ pending.id = row.id ∧ pending.status = .pendingReview := by
  have whole := run.append continued
  rcases contest.released run continued with ⟨after, inside, same, past⟩
  rcases (run.later continued).forward row contest.member with ⟨after', inside', advances⟩
  cases final.world.database.refunds.eq_of_id inside inside' (same.trans advances.id.symm)
  have large : reviewThresholdCents ≤ after.amountCents := by
    rw [advances.amountCents]
    by_contra small
    exact (run.worldOk.row row contest.member).small (by simpa using small) contest.pending
  rcases whole.approved after inside large past with
    ⟨call, approver, since, before, read, found, _, pending, split, _, _, _, _, pendingIn,
      isPending, status⟩
  rw [advances.id] at split isPending
  have marked : .answered call (.approve row.id approver)
      (.sql (.updateRefunds (.markRequested row.id))) (.ok ()) found ∈ more ++ earlier := by
    rw [split]
    exact List.mem_append_right _ (List.mem_cons_self ..)
  have inMore := contest.mem_of_marked run marked
  exact ⟨call, approver, found, pending, contest.started_of_answered continued inMore, inMore,
    pendingIn, isPending, status⟩

/-- An audit row that records the release was inserted by an approval that found the refund
pending, after its update. -/
theorem recorded (contest : Contest state more final row) (run : EngineRun hmac earlier state)
    (continued : (engine hmac).Run NoCancel state more final) {event : EngineEvent}
    {audit : Transition} {newer older : List EngineEvent}
    (split : more ++ earlier = newer ++ event :: older) (listed : audit ∈ appended event)
    (releases : audit.Releases row.id) :
    ∃ call approver, event.caller = some call ∧ (own call older).length = 3 ∧
      .started call (.approve row.id approver) ∈ more ∧
      final.calls call = .finished (.approve row.id approver) (.ok .approved) := by
  have whole := run.append continued
  have inside : event ∈ more ++ earlier := by
    rw [split]
    exact List.mem_append_right _ (List.mem_cons_self ..)
  rcases whole.recorded_of_released inside listed releases.2.1 releases.2.2 with
    ⟨call, operation, recordedIn, rfl⟩
  rw [releases.1] at split
  rcases whole.recording split with ⟨approver, read, found, before, rfl, _, _, _, pending, _,
    behind⟩ | ⟨outOfReview, _⟩
  · have inTrace : ∀ {event}, event ∈ own call older → event ∈ more ++ earlier := by
      intro event member
      rw [split]
      exact List.mem_append_right _ (List.mem_cons_of_mem _ (mem_own.mp member).1)
    have marked : .answered call (.approve row.id approver)
        (.sql (.updateRefunds (.markRequested row.id))) (.ok ()) found ∈ more ++ earlier := by
      apply inTrace
      rw [behind]
      simp
    have started := contest.started_of_answered continued (contest.mem_of_marked run marked)
    have answered : .answered call (.approve row.id approver) (.sql (.getRefund row.id))
        (.ok (some read)) before ∈ more := by
      have inOwn : .answered call (.approve row.id approver) (.sql (.getRefund row.id))
          (.ok (some read)) before ∈ own call (more ++ earlier) := by
        apply mem_own.mpr ⟨inTrace _, rfl⟩
        rw [behind]
        simp
      rw [run.own_of_started continued started] at inOwn
      exact (mem_own.mp inOwn).1
    refine ⟨call, approver, rfl, by rw [behind]; rfl, started, ?_⟩
    apply (contest.findsPending_iff run continued started).mp
    rcases contest.of_read run continued answered with ⟨read, inside, same, answer, _⟩
    cases answer
    exact ⟨approver, _, before, answered, read, inside, same, pending⟩
  · exact (outOfReview rfl).elim

/-- If a single approval returned `Ok`, only its fourth step recorded the release. -/
theorem releases_eq (contest : Contest state more final row) (run : EngineRun hmac earlier state)
    (continued : (engine hmac).Run NoCancel state more final) {winner : CallId}
    (only : ∀ call approver, .started call (.approve row.id approver) ∈ more →
      final.calls call = .finished (.approve row.id approver) (.ok .approved) → call = winner)
    {event : EngineEvent} {newer older : List EngineEvent}
    (split : more ++ earlier = newer ++ event :: older) (taken : event.caller = some winner)
    (fourth : (own winner older).length = 3) :
    final.world.database.transitions.filter (Transition.Releases row.id) =
      (appended event).filter (Transition.Releases row.id) := by
  have absent : ∀ events : List EngineEvent, (∀ other ∈ events, ∃ before after,
      more ++ earlier = before ++ other :: after ∧ (other.caller = some winner →
        (own winner after).length ≠ 3)) →
      (events.reverse.flatMap appended).filter (Transition.Releases row.id) = [] := by
    intro events located
    rw [List.filter_eq_nil_iff]
    intro audit listed releases
    rcases List.mem_flatMap.mp listed with ⟨other, member, appends⟩
    rcases located other (List.mem_reverse.mp member) with ⟨before, after, split, notFourth⟩
    rcases contest.recorded run continued split appends (of_decide_eq_true releases) with
      ⟨call, approver, taken, third, started, approved⟩
    cases only call approver started approved
    exact notFourth taken third
  have older' := absent older (by
    intro other member
    rcases List.append_of_mem member with ⟨between, rest, rfl⟩
    refine ⟨newer ++ event :: between, rest, ?_, ?_⟩
    · rw [split, List.append_assoc, List.cons_append]
    · intro taken'
      rw [own_append_cons taken', List.length_append, List.length_cons] at fourth
      intro third
      rw [third] at fourth
      exact absurd fourth (by simp))
  have newer' := absent newer (by
    intro other member
    rcases List.append_of_mem member with ⟨before, between, rfl⟩
    refine ⟨before, between ++ event :: older, ?_, ?_⟩
    · rw [split, List.append_assoc, List.cons_append]
    · intro taken'
      rw [own_append_cons taken, List.length_append, List.length_cons, fourth]
      simp)
  rw [(run.append continued).transitions, split, List.reverse_append, List.reverse_cons,
    List.flatMap_append, List.flatMap_append, List.filter_append, List.filter_append, older',
    newer', List.nil_append, List.append_nil, List.flatMap_singleton]

end Contest

/-- However approvals of a pending refund by others interleave, with each other and with any
other calls: once all have finished without a database error, exactly one has returned `Ok`,
the others `NotPendingReview`, and one audit row names the approver that released the refund,
if and only if only one of them looked at the refund while it was still pending. -/
theorem approved_once_iff {hmac : Hmac} {earlier more : List EngineEvent}
    {state final : EngineState} {row : Refund} (run : EngineRun hmac earlier state)
    (continued : (engine hmac).Run NoCancel state more final)
    (contest : Contest state more final row) :
    ApprovedOnce more final row.id ↔
      ∀ call other, FindsPending more row.id call → FindsPending more row.id other →
        call = other := by
  constructor
  · rintro ⟨⟨winner, approver, _, _, others⟩, _⟩ call other
    have isWinner : ∀ call, FindsPending more row.id call → call = winner := by
      rintro call ⟨approver, answer, before, answered, pending⟩
      have started := contest.started_of_answered continued answered
      have approved := (contest.findsPending_iff run continued started).mp
        ⟨approver, answer, before, answered, pending⟩
      by_contra different
      cases approved.symm.trans (others call approver started different)
    intro finds finds'
    rw [isWinner call finds, isWinner other finds']
  · intro single
    rcases contest.winner run continued with
      ⟨winner, approver, found, pending, started, marked, pendingIn, isPending, status⟩
    rcases contest.outcome run continued started with
      ⟨approved, _, recorded, _, _, _, behind⟩ | ⟨_, _, _, _, behind⟩
    · have finds := (contest.findsPending_iff run continued started).mpr approved
      have only : ∀ call approver, .started call (.approve row.id approver) ∈ more →
          final.calls call = .finished (.approve row.id approver) (.ok .approved) →
          call = winner := by
        intro call approver started approved
        exact single call winner
          ((contest.findsPending_iff run continued started).mpr approved) finds
      constructor
      · refine ⟨winner, approver, started, approved, ?_⟩
        intro call approver started different
        rcases contest.outcome run continued started with ⟨approved, _⟩ | ⟨passed, _⟩
        · exact (different (only call approver started approved)).elim
        · exact passed
      · rw [← run.own_of_started continued started] at behind
        rcases List.filter_eq_cons_iff.mp behind with ⟨last, rest, split, _, _, behind⟩
        rcases List.filter_eq_cons_iff.mp behind with ⟨between, older, rfl, _, _, behind⟩
        rw [← List.cons_append, ← List.append_assoc] at split
        refine ⟨recorded.auditRow row.id (some .pendingReview) .requested
          ("approver:" ++ approver), ?_, winner, approver, found, pending, rfl, marked, pendingIn,
          isPending, status⟩
        rw [contest.releases_eq run continued only split rfl (by rw [own, behind]; rfl)]
        simp [appended, Transition.Releases, World.auditRow]
    · have inOwn := mem_own.mpr ⟨marked, rfl⟩
      rw [behind] at inOwn
      simp at inOwn

/-! ## One look, and two -/

/-- The approvals that start in a run. -/
def entrants (more : List EngineEvent) : List (CallId × Uuid × String) :=
  more.filterMap fun
    | .started call (.approve refundId approver) => some (call, refundId, approver)
    | _ => none

theorem Contest.of_entrants {state final : EngineState} {more : List EngineEvent} {row : Refund}
    {call : CallId} {approver : String} (member : row ∈ state.world.rows)
    (pending : row.status = .pendingReview) (quiet : state.Quiet)
    (contested : (call, row.id, approver) ∈ entrants more)
    (each : ∀ call approver, (call, row.id, approver) ∈ entrants more →
      approver ≠ row.requestedBy ∧ ∃ result,
        final.calls call = .finished (.approve row.id approver) result ∧
          ∀ error, result ≠ .error (.db error)) : Contest state more final row := by
  have entrant : ∀ {call approver}, .started call (.approve row.id approver) ∈ more →
      (call, row.id, approver) ∈ entrants more := fun started =>
    List.mem_filterMap.mpr ⟨_, started, rfl⟩
  refine ⟨member, pending, ?_, ?_, ?_, ?_⟩
  · intro call approver rest running
    apply quiet call
    rw [running]
    trivial
  · rcases List.mem_filterMap.mp contested with ⟨event, inside, starts⟩
    split at starts
    · cases starts
      exact ⟨call, approver, inside⟩
    · cases starts
  · intro call approver started
    exact (each call approver (entrant started)).1
  · intro call approver started
    exact (each call approver (entrant started)).2

/-- A large refund awaits review. -/
def awaiting : List EngineEvent × EngineState :=
  ((engine sampleHmac).play NoCancel
    (uninterrupted 0 (.requestRefund ⟨7⟩ sampleCharge.id 150000 "EUR" "alice" none) 6)
    ([], initialState sampleCharges {} 10)).get (by decide +kernel)

theorem awaiting_run : EngineRun sampleHmac awaiting.1 awaiting.2 :=
  .of_play (Option.some_get _).symm

theorem awaiting_quiet : awaiting.2.Quiet :=
  awaiting_run.quiet_of_ended (by decide +kernel)

/-- One approval looks late; the other records its approval only after the refund has been
submitted. -/
def oneLook : List EngineEvent × EngineState :=
  ((engine sampleHmac).play NoCancel
    ([.start 1 (.approve ⟨7⟩ "bob"), .execute 1, .start 2 (.approve ⟨7⟩ "carol"), .execute 1,
        .execute 2, .finish 2] ++
      uninterrupted 3 (.submitRefund ⟨7⟩) 5 ++ [.execute 1, .finish 1])
    ([], awaiting.2)).get (by decide +kernel)

/-- The approvals that look at the refund while it is pending. -/
def lookers (more : List EngineEvent) (refundId : Uuid) : List CallId :=
  more.filterMap fun
    | .answered call (.approve approved _) (.sql (.getRefund read)) _ before =>
        if approved = refundId ∧ read = refundId ∧
            ∃ row ∈ before.rows, row.id = refundId ∧ row.status = .pendingReview then
          some call
        else
          none
    | _ => none

theorem FindsPending.mem_lookers {more : List EngineEvent} {refundId : Uuid} {call : CallId}
    (finds : FindsPending more refundId call) : call ∈ lookers more refundId := by
  rcases finds with ⟨approver, answer, before, answered, pending⟩
  exact List.mem_filterMap.mpr ⟨_, answered, if_pos ⟨rfl, rfl, pending⟩⟩

private theorem contest_of_two {more : List EngineEvent} {final : EngineState} {row : Refund}
    (member : row ∈ awaiting.2.world.rows) (pending : row.status = .pendingReview)
    (requestedBy : row.requestedBy = "alice")
    (listed : entrants more = [(2, row.id, "carol"), (1, row.id, "bob")])
    {bobs carols : Except RefundError Reply}
    (bob : final.calls 1 = .finished (.approve row.id "bob") bobs)
    (carol : final.calls 2 = .finished (.approve row.id "carol") carols)
    (undisturbed : ∀ error, bobs ≠ .error (.db error) ∧ carols ≠ .error (.db error)) :
    Contest awaiting.2 more final row := by
  have contested : (1, row.id, "bob") ∈ entrants more := by simp [listed]
  refine .of_entrants member pending awaiting_quiet contested ?_
  intro call approver entrant
  rw [listed] at entrant
  rw [requestedBy]
  rcases List.mem_pair.mp entrant with isCarol | isBob
  · cases isCarol
    exact ⟨by decide, carols, carol, fun error => (undisturbed error).2⟩
  · cases isBob
    exact ⟨by decide, bobs, bob, fun error => (undisturbed error).1⟩

theorem awaiting_row : ∃ row ∈ awaiting.2.world.rows, row.id = ⟨7⟩ ∧
    row.status = .pendingReview ∧ row.requestedBy = "alice" := by
  decide +kernel

theorem approved_once_oneLook : ApprovedOnce oneLook.1 oneLook.2 ⟨7⟩ := by
  rcases awaiting_row with ⟨row, member, same, pending, requestedBy⟩
  have listed : entrants oneLook.1 = [(2, ⟨7⟩, "carol"), (1, ⟨7⟩, "bob")] := by decide +kernel
  have bob : oneLook.2.calls 1 = .finished (.approve ⟨7⟩ "bob") (.ok .approved) := rfl
  have carol : oneLook.2.calls 2 =
      .finished (.approve ⟨7⟩ "carol") (.error (.notPendingReview ⟨7⟩)) := rfl
  have looked : lookers oneLook.1 ⟨7⟩ = [1] := by decide +kernel
  rw [← same] at listed bob carol looked ⊢
  have contest := contest_of_two member pending requestedBy listed bob carol (by simp)
  have continued : (engine sampleHmac).Run NoCancel awaiting.2 oneLook.1 oneLook.2 :=
    Machine.play_run .nil (Option.some_get _).symm
  apply (approved_once_iff awaiting_run continued contest).mpr
  intro call other finds finds'
  have first := finds.mem_lookers
  have second := finds'.mem_lookers
  rw [looked, List.mem_singleton] at first second
  rw [first, second]

/-- Both approvals look before either runs its update. -/
def twoLooks : List EngineEvent × EngineState :=
  ((engine sampleHmac).play NoCancel
    [.start 1 (.approve ⟨7⟩ "bob"), .start 2 (.approve ⟨7⟩ "carol"), .execute 1, .execute 2,
      .execute 1, .execute 2, .execute 1, .execute 2, .finish 1, .finish 2]
    ([], awaiting.2)).get (by decide +kernel)

/-- Both approvals return `Ok`, and two audit rows record the release, one by each approver. -/
theorem approved_twice :
    EngineRun sampleHmac awaiting.1 awaiting.2 ∧
    (engine sampleHmac).Run NoCancel awaiting.2 twoLooks.1 twoLooks.2 ∧
    twoLooks.2.calls 1 = .finished (.approve ⟨7⟩ "bob") (.ok .approved) ∧
    twoLooks.2.calls 2 = .finished (.approve ⟨7⟩ "carol") (.ok .approved) ∧
    ((twoLooks.2.world.database.transitions.filter (Transition.Releases ⟨7⟩)).map
      Transition.actor) = ["approver:bob", "approver:carol"] ∧
    ∃ row ∈ awaiting.2.world.rows, row.id = ⟨7⟩ ∧ Contest awaiting.2 twoLooks.1 twoLooks.2 row ∧
      ¬ApprovedOnce twoLooks.1 twoLooks.2 ⟨7⟩ := by
  have bob : twoLooks.2.calls 1 = .finished (.approve ⟨7⟩ "bob") (.ok .approved) := rfl
  have carol : twoLooks.2.calls 2 = .finished (.approve ⟨7⟩ "carol") (.ok .approved) := rfl
  have actors : ((twoLooks.2.world.database.transitions.filter
      (Transition.Releases ⟨7⟩)).map Transition.actor) = ["approver:bob", "approver:carol"] := by
    decide +kernel
  refine ⟨awaiting_run, Machine.play_run .nil (Option.some_get _).symm, bob, carol, actors, ?_⟩
  rcases awaiting_row with ⟨row, member, same, pending, requestedBy⟩
  have listed : entrants twoLooks.1 = [(2, ⟨7⟩, "carol"), (1, ⟨7⟩, "bob")] := by decide +kernel
  refine ⟨row, member, same, ?_, ?_⟩
  · rw [← same] at listed bob carol
    exact contest_of_two member pending requestedBy listed bob carol (by simp)
  · rintro ⟨_, audit, once, _⟩
    rw [once] at actors
    simp at actors

end RefundEngine
