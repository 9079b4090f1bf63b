import RefundEngine.AuditTrail
import RefundEngine.Audit.Numbered

/-!
# The audit trail of overlapping calls

An approval, a submission and a recovery insert their audit row after the update it records,
in a statement of its own, whatever has become of the refund in between.  As long as the
refund still has the status the row names, and no webhook moves it in between, the newest
audit row of every refund names its status; a row that comes late hides a later status.
-/

namespace RefundEngine

open Interleaving (CallId Machine own own_cons_self own_cons_other mem_own)

/-- The calls that have changed the status of the refund and still owe its audit row. -/
def debtors (trace : List EngineEvent) (refundId : Uuid) : List CallId :=
  (trace.filterMap Interleaving.Event.caller).filter fun call =>
    refundId ∈ owed (own call trace)

/-- The calls follow each other closely enough, and none fails: a row outside a transaction is
inserted only while the refund has the status it names, or some other call still owes a row,
and no open transaction has moved the refund; a webhook moves a refund only while no call
owes a row for it, and only if it has not missed one while it waited for the refund. -/
def Orderly (trace : List EngineEvent) : EngineEvent → Prop
  | .failed _ _ _ | .died _ _ => False
  | .answered call _ (.sql (.recordTransition refundId _ toStatus _)) _ before =>
      Free before refundId ∧ ((∀ row ∈ before.rows, row.id = refundId → row.status = toStatus) ∨
        ∃ other ∈ debtors trace refundId, other ≠ call)
  | .answered call _ (.sql (.applyMoved update _)) _ before =>
      ∀ row ∈ before.rows, update.Applies row →
        debtors trace row.id = [] ∧ before.Sees call update row.id
  | _ => True

instance (trace : List EngineEvent) (event : EngineEvent) : Decidable (Orderly trace event) :=
  match event with
  | .failed .. | .died .. => isFalse id
  | .answered _ _ (.sql (.recordTransition _ _ _ _)) _ _ =>
      inferInstanceAs (Decidable (_ ∧ (_ ∨ _)))
  | .answered _ _ (.sql (.applyMoved _ _)) _ _ =>
      inferInstanceAs (Decidable (∀ row ∈ _, _ → _))
  | .answered _ _ (.sql (.getRefund _)) _ _ | .answered _ _ (.sql (.updateRefunds _)) _ _
  | .answered _ _ (.sql .selectStuck) _ _ | .answered _ _ (.sql (.selectAmount _)) _ _
  | .answered _ _ (.sql (.insertWebhookEvent _)) _ _ | .answered _ _ (.sql .selectSettled) _ _
  | .answered _ _ (.sql .begin) _ _ | .answered _ _ (.sql (.lockCharge _)) _ _
  | .answered _ _ (.sql (.sumRefunds _)) _ _ | .answered _ _ (.sql (.insertRefund _)) _ _
  | .answered _ _ (.sql (.insertTransition _ _ _ _)) _ _ | .answered _ _ (.sql .commit) _ _
  | .answered _ _ (.sql .rollback) _ _ | .answered _ _ (.createRefund _ _ _) _ _
  | .answered _ _ (.lookupByKey _) _ _ => isTrue trivial
  | .started .. | .finished .. | .acted .. => isTrue trivial

/-- A run without cancellations that stays orderly. -/
def OrderlyRun (hmac : Hmac) (trace : List EngineEvent) (state : EngineState) : Prop :=
  ∃ charges config now,
    (engine hmac).Run (fun trace event => NoCancel trace event ∧ Orderly trace event)
      (initialState charges config now) trace state

section Debts

variable {trace : List EngineEvent} {refundId : Uuid} {call : CallId} {event : EngineEvent}

theorem mem_debtors : call ∈ debtors trace refundId ↔ refundId ∈ owed (own call trace) := by
  rw [debtors, List.mem_filter, decide_eq_true_eq, and_iff_right_iff_imp]
  intro owes
  cases events : own call trace with
  | nil =>
      rw [events] at owes
      cases owes
  | cons event rest =>
      have member : event ∈ own call trace := by
        rw [events]
        exact List.mem_cons_self ..
      rcases mem_own.mp member with ⟨inTrace, taken⟩
      exact List.mem_filterMap.mpr ⟨event, inTrace, taken⟩

theorem debtors_eq_nil : debtors trace refundId = [] ↔ ∀ call, refundId ∉ owed (own call trace) := by
  rw [List.eq_nil_iff_forall_not_mem]
  constructor
  · intro none call owes
    exact none call (mem_debtors.mpr owes)
  · intro none call member
    exact none call (mem_debtors.mp member)

theorem owed_own_cons_subset (stands : ∀ events, owed events ⊆ owed (event :: events)) :
    owed (own call trace) ⊆ owed (own call (event :: trace)) := by
  by_cases taken : event.caller = some call
  · rw [own_cons_self taken]
    exact stands _
  · rw [own_cons_other taken]
    exact List.Subset.refl _

theorem OrderlyRun.engineRun {hmac : Hmac} {state : EngineState}
    (run : OrderlyRun hmac trace state) : EngineRun hmac trace state := by
  rcases run with ⟨charges, config, now, run⟩
  exact ⟨charges, config, now, run.mono fun _ _ permitted => permitted.1⟩

end Debts

/-! ## What holds in every state -/

/-- The newest audit row of a refund names its status unless some call owes one, and calls
that are not in progress owe none. -/
structure Truthful (trace : List EngineEvent) (state : EngineState) : Prop where
  numbered : Numbered True state.world
  newest : ∀ row ∈ state.world.rows, debtors trace row.id = [] →
    newestStatus state.world.database.transitions row.id = some row.status
  settled : ∀ call, ¬(state.calls call).InProgress → owed (own call trace) = []

section Step

variable {hmac : Hmac} {trace : List EngineEvent} {state next : EngineState}
variable {event : EngineEvent}

private theorem Truthful.newest_of_same (truthful : Truthful trace state)
    (rows : next.world.rows = state.world.rows)
    (transitions : next.world.database.transitions = state.world.database.transitions)
    (stands : ∀ events, owed events ⊆ owed (event :: events)) :
    ∀ row ∈ next.world.rows, debtors (event :: trace) row.id = [] →
      newestStatus next.world.database.transitions row.id = some row.status := by
  intro row member free
  rw [rows] at member
  rw [transitions]
  apply truthful.newest row member
  rw [debtors_eq_nil] at free ⊢
  intro call owes
  exact free call (owed_own_cons_subset stands owes)

private theorem Truthful.newest_of_update (truthful : Truthful trace state) {call : CallId}
    {operation : Operation} {update : RefundUpdate}
    (rows : next.world.rows = state.world.rows.map (update.change state.world.now).apply)
    (transitions : next.world.database.transitions = state.world.database.transitions) :
    ∀ row ∈ next.world.rows,
      debtors (.answered call operation (.sql (.updateRefunds update)) (.ok ()) state.world ::
        trace) row.id = [] →
      newestStatus next.world.database.transitions row.id = some row.status := by
  intro row member free
  rw [debtors_eq_nil] at free
  rw [rows] at member
  rcases List.mem_map.mp member with ⟨earlier, earlierIn, rfl⟩
  rw [RowChange.apply_id] at free ⊢
  have debts : ∀ debtor, owed (own debtor trace) ⊆ owed (own debtor
      (.answered call operation (.sql (.updateRefunds update)) (.ok ()) state.world :: trace)) := by
    intro debtor
    apply owed_own_cons_subset
    intro events
    exact List.subset_append_right _ _
  have same : ((update.change state.world.now).apply earlier).status = earlier.status := by
    by_contra changed
    simp only [RefundUpdate.change] at changed
    split at changed
    · rename_i applies
      apply free call
      rw [own_cons_self rfl, owed]
      apply List.mem_append_left
      exact List.mem_map_of_mem
        (List.mem_filter.mpr ⟨earlierIn, decide_eq_true ⟨applies, changed⟩⟩)
    · exact changed rfl
  rw [transitions, same]
  apply truthful.newest earlier earlierIn
  rw [debtors_eq_nil]
  intro debtor owes
  exact free debtor (debts debtor owes)

/-- An audit row inserted in time names the status, or another one is still to come. -/
private theorem Truthful.newest_of_record (truthful : Truthful trace state) {call : CallId}
    {operation : Operation} {refundId : Uuid} {fromStatus : Option Status} {toStatus : Status}
    {actor : String}
    (timely : (∀ row ∈ state.world.rows, row.id = refundId → row.status = toStatus) ∨
      ∃ other ∈ debtors trace refundId, other ≠ call)
    (rows : next.world.rows = state.world.rows)
    (transitions : next.world.database.transitions = state.world.database.transitions ++
      [state.world.auditRow refundId fromStatus toStatus actor]) :
    ∀ row ∈ next.world.rows,
      debtors (.answered call operation
        (.sql (.recordTransition refundId fromStatus toStatus actor)) (.ok ()) state.world ::
          trace) row.id = [] →
      newestStatus next.world.database.transitions row.id = some row.status := by
  intro row member free
  rw [debtors_eq_nil] at free
  rw [rows] at member
  rw [transitions]
  by_cases own' : row.id = refundId
  · rcases timely with status | ⟨other, owes, different⟩
    · rw [status row member own', own']
      apply newestStatus_concat_self
      intro earlier inside _
      exact truthful.numbered.bounded earlier inside
    · exfalso
      apply free other
      rw [own_cons_other, own']
      · exact mem_debtors.mp owes
      · intro taken
        cases taken
        exact different rfl
  · rw [newestStatus_concat_other (Ne.symm own')]
    apply truthful.newest row member
    rw [debtors_eq_nil]
    intro debtor owes
    apply free debtor
    by_cases taken : debtor = call
    · rw [taken, own_cons_self rfl, owed, List.mem_filter]
      rw [taken] at owes
      exact ⟨owes, decide_eq_true own'⟩
    · rw [own_cons_other]
      · exact owes
      · intro same
        cases same
        exact taken rfl

/-- A transaction that commits a write has staged an audit row. -/
private theorem EngineRun.staged_of_commit (run : EngineRun hmac trace state) {call : CallId}
    {operation : Operation} {transaction : Transaction}
    (step : (engine hmac).Step state
      (.answered call operation (.sql .commit) (.ok ()) state.world) next)
    (opened : state.world.transaction call = some transaction)
    (written : transaction.refundWrites ≠ []) : transaction.transitionWrites ≠ [] := by
  have linked := run.recalled.linked call
  rcases run.permits step with ⟨⟨_, _, latest⟩, _⟩ | ⟨update, reason, before, rest, latest⟩ |
    ⟨new, refundId, toStatus, actor, reason, inserting, before, rest, _, latest⟩
  · rw [latest] at linked
    cases opened.symm.trans (transaction_of_began linked)
    exact (written rfl).elim
  · rcases List.filter_eq_cons_iff.mp latest with ⟨newer, earlier, split, _, _, same⟩
    rcases run.licensed split with ⟨_, _, _, _, _, _, _, _, _, _, behind⟩
    rw [latest, ← same, ← own, behind] at linked
    rcases transaction_of_delivery linked with ⟨audits, opened', audited, _⟩
    cases opened.symm.trans opened'
    intro unstaged
    apply written
    simp only at unstaged ⊢
    rw [unstaged, List.map_nil] at audited
    rw [List.map_eq_nil_iff.mp audited.symm, List.map_nil]
  · rw [latest] at linked
    rcases linked with ⟨⟨after, executed, rely⟩, _⟩
    simp only [engine, Command.execute, World.execute, World.insertTransition,
      World.inTransaction] at executed
    split at executed
    · split at executed
      · cases executed
        rw [rely.own, World.transaction_advanceSequence,
          World.transaction_setTransaction_self] at opened
        cases opened
        simp
      · cases executed
    · cases executed

/-- The audit row of a refund inserted with it names its status, and says nothing of others. -/
private theorem newest_of_inserted {committed audits : List Transition} {rows : List Refund}
    {inserted row : Refund} (known : ∀ audit ∈ committed, audit.refundId ∈ rows.map Refund.id)
    (fresh : inserted.id ∉ rows.map Refund.id) (nonempty : audits ≠ [])
    (accompanies : ∀ audit ∈ audits, Accompanies True committed [.insert inserted] audit)
    (member : row ∈ rows ++ [inserted])
    (before : row ∈ rows → newestStatus committed row.id = some row.status) :
    newestStatus (committed ++ audits) row.id = some row.status := by
  have own : ∀ audit ∈ audits, audit.refundId = inserted.id ∧
      audit.toStatus = inserted.status := by
    intro audit isStaged
    cases accompanies audit isStaged with
    | opening own status => exact ⟨own, status⟩
  rcases List.mem_append.mp member with earlier | new
  · rw [newestStatus_append_other]
    · exact before earlier
    · intro audit isStaged same
      apply fresh
      rw [← (own audit isStaged).1, same]
      exact List.mem_map_of_mem earlier
  · rw [List.mem_singleton.mp new]
    apply newestStatus_append_self nonempty own
    intro audit _ earlier inside same
    rw [← same] at fresh
    exact (fresh (known earlier inside)).elim

/-- The audit row of a decision names the status the refund has got, and says nothing of
others. -/
private theorem newest_of_decided {committed audits : List Transition} {row : Refund} {id : Uuid}
    {update : RefundUpdate} {writtenAt : Timestamp} (nonempty : audits ≠ [])
    (accompanies : ∀ audit ∈ audits,
      Accompanies True committed [.update id update writtenAt] audit)
    (before : newestStatus committed row.id = some row.status) :
    newestStatus (committed ++ audits) row.id =
      some (if row.id = id then update.assign writtenAt row else row).status := by
  have own : ∀ audit ∈ audits, audit.refundId = id ∧
      audit.toStatus = (update.assign writtenAt row).status ∧
      ∀ earlier ∈ committed, earlier.refundId = id → earlier.id < audit.id := by
    intro audit isStaged
    cases accompanies audit isStaged with
    | deciding decides own reached newest =>
        refine ⟨own, ?_, newest trivial⟩
        rw [reached, RefundUpdate.status_of_decision decides]
  by_cases isDecided : row.id = id
  · rw [if_pos isDecided]
    apply newestStatus_append_self nonempty
    · intro audit isStaged
      rcases own audit isStaged with ⟨own, reached, _⟩
      exact ⟨own.trans isDecided.symm, reached⟩
    · intro audit isStaged committed inside same
      exact (own audit isStaged).2.2 committed inside (same.trans isDecided)
  · rw [if_neg isDecided, newestStatus_append_other]
    · exact before
    · intro audit isStaged same
      exact isDecided (same.symm.trans (own audit isStaged).1)

private theorem Truthful.newest_of_commit (truthful : Truthful trace state)
    (run : EngineRun hmac trace state) {call : CallId} {operation : Operation}
    (step : (engine hmac).Step state
      (.answered call operation (.sql .commit) (.ok ()) state.world) next) :
    ∀ row ∈ next.world.rows,
      debtors (.answered call operation (.sql .commit) (.ok ()) state.world :: trace) row.id =
        [] →
      newestStatus next.world.database.transitions row.id = some row.status := by
  have transitions := transitions_of_step step
  have before : ∀ row ∈ state.world.rows,
      debtors (.answered call operation (.sql .commit) (.ok ()) state.world :: trace) row.id =
        [] → newestStatus state.world.database.transitions row.id = some row.status := by
    intro row member free
    apply truthful.newest row member
    rw [debtors_eq_nil] at free ⊢
    intro debtor owes
    exact free debtor (owed_own_cons_subset (fun _ => List.Subset.refl _) owes)
  cases opened : state.world.transaction call with
  | none =>
      cases step with
      | answer running executed =>
          simp only [engine, Command.execute, World.execute, World.commit, World.inTransaction,
            opened] at executed
          cases executed
  | some transaction =>
      have staged := truthful.numbered.staged call transaction opened
      have nonempty := run.staged_of_commit step opened
      have pending := run.worldOk.pending call transaction opened
      have appended' : appended (.answered call operation (.sql .commit) (.ok ()) state.world) =
          transaction.transitionWrites := World.staged_of_opened opened
      rw [appended'] at transitions
      have rows : CommitRows state.world transaction (.ok ()) next.world.rows := by
        cases step with
        | answer running executed => exact (commit_rows pending opened executed).1
      generalize next.world.rows = after at rows ⊢
      rw [transitions]
      cases rows with
      | nothing empty =>
          rw [truthful.numbered.unstaged opened empty, List.append_nil]
          exact before
      | @inserted inserted writes unused =>
          have fresh := ((ids_of_commitRows run.worldOk opened
            (.inserted writes unused)).2 rfl inserted writes).1
          rw [writes] at staged nonempty
          intro row member free
          exact newest_of_inserted truthful.numbered.known fresh (nonempty (List.cons_ne_nil _ _))
            (fun audit isStaged => (staged audit isStaged).2) member
            fun earlier => before row earlier free
      | @decided decided update writtenAt writes =>
          rw [writes] at staged nonempty
          intro row member free
          rcases List.mem_map.mp member with ⟨earlier, earlierIn, rfl⟩
          rw [show (if earlier.id = decided.id then update.assign writtenAt earlier
            else earlier).id = earlier.id by split <;> simp] at free ⊢
          exact newest_of_decided (nonempty (List.cons_ne_nil _ _))
            (fun audit isStaged => (staged audit isStaged).2) (before earlier earlierIn free)

private theorem Truthful.newest_of_step (truthful : Truthful trace state)
    (run : EngineRun hmac trace state) (step : (engine hmac).Step state event next)
    (permitted : NoCancel trace event) (orderly : Orderly trace event) :
    ∀ row ∈ next.world.rows, debtors (event :: trace) row.id = [] →
      newestStatus next.world.database.transitions row.id = some row.status := by
  have transitions := transitions_of_step step
  cases step with
  | start | finish => exact truthful.newest_of_same rfl rfl fun _ => List.Subset.refl _
  | fail | die => exact orderly.elim
  | @act action world acted =>
      have drifts := Drifts.of_act permitted acted
      exact truthful.newest_of_same drifts.rows drifts.transitions fun _ => List.Subset.refl _
  | @answer call operation command next' answer world running executed =>
      have step' := Machine.Step.answer running executed
      cases command with
      | createRefund | lookupByKey =>
          cases executed
          exact truthful.newest_of_same rfl rfl fun _ => List.Subset.refl _
      | sql statement =>
          have executed : state.world.execute call statement = some (answer, world) := executed
          cases answer with
          | error error =>
              have database := (tables_of_error executed).1
              refine truthful.newest_of_same ?_ ?_ ?_
              · exact congrArg (fun tables => tables.refunds.rows) database
              · exact congrArg Database.transitions database
              · intro events
                rw [owed_error]
                exact List.Subset.refl _
          | ok value =>
              by_cases plain : Plain statement ∧ statement ≠ .commit
              · rcases tables_of_plain plain.1 plain.2 executed with ⟨rows, none⟩
                rw [none, List.append_nil] at transitions
                refine truthful.newest_of_same rows transitions ?_
                intro events
                rw [owed_plain plain.1]
                exact List.Subset.refl _
              · cases statement with
                | updateRefunds update =>
                    have transitions := transitions.trans (List.append_nil _)
                    have rows : world.rows =
                        state.world.rows.map (update.change state.world.now).apply := by
                      have founded := (run.cons step' permitted).invariant.founded _ _ _ _ _
                        (List.mem_cons_self ..)
                      rcases execute_updateRefunds run.worldOk founded.1 executed with
                        ⟨_, refunds, rfl, rows⟩
                      exact rows
                    exact truthful.newest_of_update rows transitions
                | recordTransition refundId fromStatus toStatus actor =>
                    have rows : world.rows = state.world.rows := by
                      cases statementEffect executed with
                      | same tables => exact congrArg RefundTable.rows tables.refunds
                    exact truthful.newest_of_record orderly.2 rows transitions
                | commit => exact truthful.newest_of_commit run step'
                | _ => exact (plain ⟨trivial, by simp⟩).elim

/-- A call leaves progress with nothing owed if one that finishes owes nothing. -/
private theorem Truthful.settled_of_step (truthful : Truthful trace state)
    (step : (engine hmac).Step state event next) (orderly : Orderly trace event)
    (settles : ∀ call operation result, event = .finished call operation result →
      owed (own call trace) = []) :
    ∀ call, ¬(next.calls call).InProgress → owed (own call (event :: trace)) = [] := by
  intro call ended
  by_cases taken : event.caller = some call
  · cases step with
    | start | answer | fail =>
        cases taken
        simp [Interleaving.Call.InProgress] at ended
    | finish =>
        cases taken
        rw [own_cons_self rfl]
        exact settles _ _ _ rfl
    | die => exact orderly.elim
    | act => cases taken
  · rw [own_cons_other taken]
    rw [step.calls_other taken] at ended
    exact truthful.settled call ended

end Step

section Finished

variable {hmac : Hmac} {trace : List EngineEvent} {state : EngineState} {call : CallId}
variable {operation : Operation}

/-- Every update of a run is granted. -/
theorem EngineRun.update_ok (run : EngineRun hmac trace state) {update : RefundUpdate}
    {error : DbError} {before : World} :
    Interleaving.Event.answered call operation (.sql (.updateRefunds update)) (.error error)
      before ∉ trace := by
  intro member
  have founded := run.invariant.founded _ _ _ _ _ member
  rcases List.append_of_mem member with ⟨newer, earlier, split⟩
  rcases run.reached_of_split split with ⟨reached, after, earlierRun, rfl, executed⟩
  have executed : reached.world.execute call (.updateRefunds update) = some (.error error, after) :=
    executed
  rcases execute_updateRefunds earlierRun.worldOk founded.1 executed with ⟨fails, _⟩
  cases fails

theorem Known.mem {refundId : Uuid} (run : EngineRun hmac trace state)
    (known : Known call operation (own call trace) refundId) :
    refundId ∈ state.world.rows.map Refund.id := by
  rcases known with ⟨row, read⟩ | ⟨stuck, status, read, listed⟩
  · rcases read.getRefund run.recalled with ⟨rfl, row', member, advances⟩
    rw [← advances.id]
    exact List.mem_map_of_mem member
  · rcases read.seen run.recalled with ⟨before, after, _, executed, changed, since⟩
    simp only [Command.execute, World.execute, Option.some.injEq, Prod.mk.injEq,
      Except.ok.injEq] at executed
    rw [← executed.1] at listed
    rcases mem_stuckRows.mp listed with ⟨row, member, same, _⟩
    cases same
    rcases (changed.trans since).forward row member with ⟨row', member', advances⟩
    rw [← advances.id]
    exact List.mem_map_of_mem member'

theorem Recording.known {refundId : Uuid} {fromStatus : Option Status} {toStatus : Status}
    {actor : String} {events : List EngineEvent}
    (recording : Recording call operation events refundId fromStatus toStatus actor) :
    Known call operation events refundId := by
  rcases recording with ⟨approver, read, found, before, _, _, _, _, _, _, rfl⟩ | ⟨_, _, known⟩
  · exact .inl ⟨read, before, by simp⟩
  · exact known

/-- Every insert of an audit row outside a transaction is granted: its refund exists. -/
theorem EngineRun.record_ok (run : EngineRun hmac trace state) {refundId : Uuid}
    {fromStatus : Option Status} {toStatus : Status} {actor : String} {error : DbError}
    {before : World} :
    Interleaving.Event.answered call operation
      (.sql (.recordTransition refundId fromStatus toStatus actor)) (.error error) before ∉
        trace := by
  intro member
  rcases List.append_of_mem member with ⟨newer, earlier, split⟩
  have recording := run.recording split
  rcases run.reached_of_split split with ⟨reached, after, earlierRun, rfl, executed⟩
  have exists' := recording.known.mem earlierRun
  simp only [Command.execute, World.execute, World.recordTransition, if_pos exists',
    Option.some.injEq, Prod.mk.injEq] at executed
  cases executed.1

theorem Resubmitted.clear (run : EngineRun hmac trace state)
    (resubmitted : Resubmitted call operation (own call trace)) : owed (own call trace) = [] := by
  rcases resubmitted with ⟨refundId, read, found, before, tail, rfl, submitted, behind, debts⟩
  rw [debts, List.eq_nil_iff_forall_not_mem]
  intro other member
  rcases List.mem_map.mp member with ⟨row, matched, rfl⟩
  rcases List.mem_filter.mp matched with ⟨rowIn, changes⟩
  rcases of_decide_eq_true changes with ⟨applies, changed⟩
  rcases List.filter_eq_append_iff.mp behind with ⟨newer, rest, split, _, marked⟩
  rcases List.filter_eq_cons_iff.mp marked with ⟨between, earlier, rfl, _, _, reading⟩
  have split : trace = (newer ++ between) ++ .answered call (.submitRefund refundId)
      (.sql (.updateRefunds (.markSubmitted refundId))) (.ok ()) found :: earlier := by
    rw [split, List.append_assoc]
  rcases run.reached_of_split split with ⟨reached, after, earlierRun, rfl, _⟩
  have answered : Answered call (.submitRefund refundId) (own call earlier)
      (.sql (.getRefund refundId)) (.ok (some read)) := by
    rw [own, reading]
    exact Answered.head
  rcases answered.getRefund earlierRun.recalled with ⟨same, row', row'In, advances⟩
  -- What is submitted when it is read is not `requested` when it is updated.
  cases reached.world.database.refunds.eq_of_id row'In rowIn
    (advances.id.trans (same.trans applies.1.symm))
  have rank := advances.rank_le
  rcases applies.2 with requested | stays
  · rw [requested, submitted] at rank
    simp [Status.rank] at rank
  · exact changed stays.symm

end Finished

section Runs

variable {hmac : Hmac} {trace : List EngineEvent} {state : EngineState}

/-- A call that finishes an orderly run has recorded every status it changed. -/
theorem OrderlyRun.settles {next : EngineState} (run : OrderlyRun hmac trace state)
    {call : CallId} {operation : Operation} {result : Except RefundError Reply}
    (step : (engine hmac).Step state (.finished call operation result) next) :
    owed (own call trace) = [] := by
  have engineRun := run.engineRun
  rcases run with ⟨charges, config, now, run⟩
  have outcome := (auditContract_upheld hmac).permits (fun _ => rfl) run step
  have inTrace : ∀ {event rest}, own call trace = event :: rest → event ∈ trace := by
    intro event rest behind
    have member : event ∈ own call trace := by
      rw [behind]
      exact List.mem_cons_self ..
    exact (mem_own.mp member).1
  rcases outcome.1 with clear | broken | resubmitted
  · exact clear
  · rcases broken with ⟨command, rest, failed⟩ | ⟨update, error, before, rest, refused⟩ |
      ⟨refundId, fromStatus, toStatus, actor, error, before, rest, refused⟩
    · rcases run.exists_step_of_mem (inTrace failed) with ⟨_, _, _, _, _, _, orderly⟩
      exact orderly.elim
    · exact (engineRun.update_ok (inTrace refused)).elim
    · exact (engineRun.record_ok (inTrace refused)).elim
  · exact resubmitted.clear engineRun

theorem OrderlyRun.truthful (run : OrderlyRun hmac trace state) : Truthful trace state := by
  rcases run with ⟨charges, config, now, run⟩
  apply run.preserves Truthful
  · exact
      { numbered :=
          { bounded := fun _ member => by cases member
            known := fun _ member => by cases member
            staged := fun _ _ opened => by cases opened }
        newest := fun _ member => by cases member
        settled := fun _ _ => rfl }
  · rintro trace state event next run truthful step ⟨permitted, orderly⟩
    have orderlyRun : OrderlyRun hmac trace state := ⟨charges, config, now, run⟩
    have engineRun := orderlyRun.engineRun
    constructor
    · apply engineRun.numbered_of_step truthful.numbered step permitted
      · intro _ refundId fromStatus toStatus actor recording
        cases event with
        | answered call operation command answer before =>
            cases recording
            cases step with
            | answer => exact orderly.1
        | failed => exact orderly.elim
        | _ => cases recording
      · rintro _ call operation update reason answer rfl row member applies
        exact (orderly row member applies).2
    · exact truthful.newest_of_step engineRun step permitted orderly
    · apply truthful.settled_of_step step orderly
      rintro call operation result rfl
      exact orderlyRun.settles step

end Runs

/-- A large refund is approved while a small one is submitted, statement by statement; then the
large one is submitted while a webhook settles the small one. -/
def overlapLabels : List (Machine.Label Operation Environment) :=
  uninterrupted 0 (.requestRefund ⟨7⟩ sampleCharge.id 150000 "EUR" "alice" none) 6 ++
  uninterrupted 1 (.requestRefund ⟨8⟩ sampleCharge.id 2000 "EUR" "alice" none) 6 ++
  [.start 2 (.approve ⟨7⟩ "bob"), .start 3 (.submitRefund ⟨8⟩), .execute 2, .execute 3,
    .execute 2, .execute 3, .execute 2, .execute 3, .finish 2, .execute 3, .execute 3, .finish 3,
    .start 4 (.submitRefund ⟨7⟩),
    .start 5 (.handleWebhook sampleEvent [] (sign sampleHmac [] []) []),
    .execute 4, .execute 5, .execute 4, .execute 5, .execute 5, .execute 4, .execute 5,
    .execute 4, .finish 5, .execute 4, .finish 4]

def overlapEnd : List EngineEvent × EngineState :=
  ((engine sampleHmac).play (fun trace event => NoCancel trace event ∧ Orderly trace event)
    overlapLabels ([], initialState sampleCharges {} 10)).get (by decide +kernel)

theorem overlapEnd_run : OrderlyRun sampleHmac overlapEnd.1 overlapEnd.2 :=
  ⟨sampleCharges, {}, 10, Machine.play_run .nil (Option.some_get _).symm⟩

theorem overlapEnd_quiet : overlapEnd.2.Quiet :=
  overlapEnd_run.engineRun.quiet_of_ended (by decide +kernel)

/-- A submission runs between the update of an approval and its audit row. -/
def lateLabels : List (Machine.Label Operation Environment) :=
  uninterrupted 0 (.requestRefund ⟨7⟩ sampleCharge.id 150000 "EUR" "alice" none) 6 ++
  [.start 1 (.approve ⟨7⟩ "bob"), .execute 1, .execute 1] ++
  uninterrupted 2 (.submitRefund ⟨7⟩) 5 ++
  [.execute 1, .finish 1]

def lateEnd : List EngineEvent × EngineState :=
  ((engine sampleHmac).play NoCancel lateLabels ([], initialState sampleCharges {} 10)).get
    (by decide +kernel)

end RefundEngine
