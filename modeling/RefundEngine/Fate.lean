import RefundEngine.Invariant.Run

/-!
# A refund's fate is decided once

The status of a refund with a reference is a function of the history: `submitted` until
the first webhook statement that found the reference recorded and was committed, and that
statement's status ever after.
-/

namespace RefundEngine

open Interleaving (CallId Event Machine own mem_own own_cons_self)

/-- The status an event decides for a reference: it commits a statement of its call that
applied a settlement or a failure while a row had the reference recorded. -/
def decisionOf (gatewayRef : String) (earlier : List EngineEvent) : EngineEvent → Option Status
  | .answered call _ (.sql .commit) (.ok ()) _ =>
      match own call earlier with
      | .answered _ _ (.sql (.applyMoved update _)) (.ok ()) before :: _ =>
          match update.decision with
          | some (decided, status) =>
              if decided = gatewayRef ∧ ∃ row ∈ before.rows, row.gatewayRef = some gatewayRef
              then some status
              else none
          | none => none
      | _ => none
  | _ => none

/-- The first decision for a reference in a history. -/
def fate (gatewayRef : String) : List EngineEvent → Option Status
  | [] => none
  | event :: earlier => (fate gatewayRef earlier).or (decisionOf gatewayRef earlier event)

section Decision

variable {gatewayRef : String} {status : Status} {earlier : List EngineEvent}
variable {event : EngineEvent}

theorem exists_decision_of_fate {trace : List EngineEvent}
    (decided : fate gatewayRef trace = some status) :
    ∃ newer event earlier, trace = newer ++ event :: earlier ∧
      decisionOf gatewayRef earlier event = some status := by
  induction trace with
  | nil => cases decided
  | cons latest trace ih =>
      rw [fate, Option.or_eq_some_iff] at decided
      rcases decided with before | ⟨_, now⟩
      · rcases ih before with ⟨newer, event, earlier, rfl, decides⟩
        exact ⟨latest :: newer, event, earlier, rfl, decides⟩
      · exact ⟨[], latest, trace, rfl, now⟩

theorem exists_fate_of_decision (newer : List EngineEvent)
    (decides : decisionOf gatewayRef earlier event = some status) :
    ∃ sealed, fate gatewayRef (newer ++ event :: earlier) = some sealed := by
  induction newer with
  | nil =>
      rw [List.nil_append, fate, decides]
      cases fate gatewayRef earlier with
      | none => exact ⟨status, rfl⟩
      | some sealed => exact ⟨sealed, rfl⟩
  | cons latest newer ih =>
      rcases ih with ⟨sealed, decided⟩
      rw [List.cons_append, fate, decided]
      exact ⟨sealed, rfl⟩

/-- What an event that decides has behind it. -/
theorem decisionOf_eq_some (decides : decisionOf gatewayRef earlier event = some status) :
    ∃ call operation operation' committed update reason before rest,
      event = .answered call operation (.sql .commit) (.ok ()) committed ∧
      own call earlier =
        .answered call operation' (.sql (.applyMoved update reason)) (.ok ()) before :: rest ∧
      update.decision = some (gatewayRef, status) ∧
      ∃ row ∈ before.rows, row.gatewayRef = some gatewayRef := by
  unfold decisionOf at decides
  split at decides
  · rename_i call operation committed
    split at decides
    · rename_i caller operation' update reason before rest behind
      have mine : Event.answered caller operation' (.sql (.applyMoved update reason))
          (.ok ()) before ∈ own call earlier := by
        rw [behind]
        exact List.mem_cons_self ..
      have sameCaller : some caller = some call := (mem_own.mp mine).2
      cases sameCaller
      split at decides
      · rename_i decided decision
        split at decides
        · rename_i recorded
          cases decides
          rcases recorded with ⟨rfl, recorded⟩
          exact ⟨_, _, _, _, _, _, _, _, rfl, behind, decision, recorded⟩
        · cases decides
      · cases decides
    · cases decides
  · cases decides

theorem decisionOf_commit {call caller : CallId} {operation operation' : Operation}
    {committed before : World} {update : RefundUpdate} {reason : Option String}
    {rest : List EngineEvent} {row : Refund}
    (behind : own call earlier =
      .answered caller operation' (.sql (.applyMoved update reason)) (.ok ()) before :: rest)
    (decision : update.decision = some (gatewayRef, status)) (member : row ∈ before.rows)
    (recorded : row.gatewayRef = some gatewayRef) :
    decisionOf gatewayRef earlier
      (.answered call operation (.sql .commit) (.ok ()) committed) = some status := by
  unfold decisionOf
  simp only [behind, decision]
  exact if_pos ⟨trivial, row, member, recorded⟩

theorem terminal_of_decision {update : RefundUpdate}
    (decision : update.decision = some (gatewayRef, status)) :
    status.isTerminal = true ∧ status ≠ .canceled := by
  cases update <;> cases decision <;> simp [Status.isTerminal]

end Decision

section Written

variable {hmac : Hmac} {trace : List EngineEvent} {world : World} {call : CallId}
variable {operation : Operation} {rest : List EngineEvent} {before : World}

/-- After a webhook's statement its transaction holds the decisions on the rows found. -/
theorem transaction_of_applied {update : RefundUpdate} {reason : Option String}
    (linked : (engineRegime hmac).Linked
      (.answered call operation (.sql (.applyMoved update reason)) (.ok ()) before :: rest)
      world)
    (founded : Founded call before (.sql (.applyMoved update reason))) :
    ∃ writtenAt, (world.transaction call).map Transaction.refundWrites =
      some ((before.rows.filter fun row => update.Applies row).map fun row =>
        .update row.id update writtenAt) := by
  rcases linked with ⟨⟨after, executed, rely⟩, _⟩
  simp only [engine, Command.execute, World.execute, World.applyMoved,
    World.inTransaction] at executed
  split at executed
  · rename_i transaction opened
    split at executed
    · cases executed
    · cases executed
      exists transaction.began
      rw [rely.own]
      simp [founded.2 transaction opened]
  · cases executed

theorem transaction_of_delivery {update : RefundUpdate} {reason : Option String} {began : World}
    (linked : (engineRegime hmac).Linked
      (.answered call operation (.sql (.applyMoved update reason)) (.ok ()) before ::
        .answered call operation (.sql .begin) (.ok ()) began :: rest) world) :
    ∃ audits, world.transaction call = some
        { began := began.now
          refundWrites := (before.rows.filter fun row => update.Applies row).map fun row =>
            .update row.id update began.now
          transitionWrites := audits } ∧
      audits.map Transition.refundId =
        (before.rows.filter fun row => update.Applies row).map Refund.id ∧
      ∀ audit ∈ audits, audit.actor = "webhook" ∧ audit.reason = reason := by
  rcases linked with ⟨⟨after, executed, rely⟩, earlier⟩
  have opened := transaction_of_began earlier
  simp only [engine, Command.execute, World.execute, World.applyMoved, World.inTransaction,
    opened] at executed
  split at executed
  · cases executed
  · cases executed
    rw [rely.own]
    refine ⟨_, World.transaction_setTransaction_self _ _ _, ?_, ?_⟩
    · simp only [List.nil_append]
      exact List.ext_getElem (by simp) (by simp)
    · intro audit member
      rcases List.mem_mapIdx.mp member with ⟨index, inside, rfl⟩
      exact ⟨rfl, rfl⟩

theorem transaction_of_insertRefund {new : NewRefund}
    (linked : (engineRegime hmac).Linked
      (.answered call operation (.sql (.insertRefund new)) (.ok ()) before :: rest) world)
    (founded : Founded call before (.sql (.insertRefund new))) :
    ∃ transaction row, world.transaction call = some transaction ∧
      transaction.refundWrites = [.insert row] ∧ row.id = new.id ∧ row.status = new.status := by
  rcases linked with ⟨⟨after, executed, rely⟩, _⟩
  simp only [engine, Command.execute, World.execute, World.insertRefund,
    World.inTransaction] at executed
  split at executed
  · rename_i transaction opened
    have empty := (founded.2 transaction opened).1
    repeat' split at executed
    all_goals cases executed
    rw [rely.own, World.transaction_setTransaction_self]
    refine ⟨_, ?row, rfl, ?writes, ?id, ?status⟩
    case writes =>
      simp only [empty, List.nil_append]
      rfl
    case id => rfl
    case status => rfl
  · cases executed

theorem transaction_of_inserted {new : NewRefund} {refundId : Uuid} {toStatus : Status}
    {actor : String} {reason : Option String} {inserting : World}
    (linked : (engineRegime hmac).Linked
      (.answered call operation (.sql (.insertTransition refundId toStatus actor reason))
          (.ok ()) before ::
        .answered call operation (.sql (.insertRefund new)) (.ok ()) inserting :: rest)
      world)
    (founded : Founded call inserting (.sql (.insertRefund new))) :
    ∃ row, (world.transaction call).map Transaction.refundWrites = some [.insert row] := by
  rcases linked with ⟨⟨after, executed, rely⟩, earlier⟩
  rcases transaction_of_insertRefund earlier founded with ⟨transaction, row, opened, writes, _⟩
  simp only [engine, Command.execute, World.execute, World.insertTransition,
    World.inTransaction, opened] at executed
  split at executed
  · cases executed
    rw [rely.own]
    simp [writes]
  · cases executed

end Written

/-! ## The fate of a reference along a run -/

/-- The status of the row with a reference is the one its fate says. -/
def Fated (trace : List EngineEvent) (world : World) : Prop :=
  ∀ gatewayRef,
    (∀ status, fate gatewayRef trace = some status → status.isTerminal = true ∧
      ∃ row ∈ world.rows, row.gatewayRef = some gatewayRef ∧ row.status = status) ∧
    (fate gatewayRef trace = none → ∀ row ∈ world.rows, row.gatewayRef = some gatewayRef →
      row.status = .submitted)

section Step

variable {hmac : Hmac} {trace : List EngineEvent} {state next : EngineState}
variable {event : EngineEvent} {gatewayRef : String} {status : Status}

/-- A row still undecided was found by the statement that was applied to its reference. -/
private theorem applies_of_undecided {row : Refund} {update : RefundUpdate}
    (decision : update.decision = some (gatewayRef, status))
    (recorded : row.gatewayRef = some gatewayRef) (waiting : row.status = .submitted) :
    update.Applies row := by
  cases update with
  | settle =>
      cases decision
      exact ⟨recorded, .inl waiting⟩
  | fail =>
      cases decision
      exact ⟨recorded, by simp [waiting]⟩
  | _ => cases decision

private theorem filter_of_undecided {world : World} {row : Refund} {update : RefundUpdate}
    (decision : update.decision = some (gatewayRef, status)) (member : row ∈ world.rows)
    (recorded : row.gatewayRef = some gatewayRef) (waiting : row.status = .submitted) :
    (world.rows.filter fun row => update.Applies row) = [row] := by
  have applies := applies_of_undecided decision recorded waiting
  have inside : row ∈ world.rows.filter fun row => update.Applies row := by
    simp [member, applies]
  rcases world.database.refunds.filter_of_decision decision with none | ⟨other, _, _, only⟩
  · rw [World.rows, none] at inside
    cases inside
  · rw [World.rows, only, List.mem_singleton] at inside
    rw [World.rows, only, inside]

/-- The commit of the first decision moves the row to its status. -/
private theorem decided_of_commit (run : EngineRun hmac trace state)
    (undecided : ∀ row ∈ state.world.rows, row.gatewayRef = some gatewayRef →
      row.status = .submitted)
    (step : (engine hmac).Step state event next)
    (decides : decisionOf gatewayRef trace event = some status) :
    ∃ row ∈ next.world.rows, row.gatewayRef = some gatewayRef ∧ row.status = status := by
  rcases decisionOf_eq_some decides with ⟨call, operation, operation', committed, update,
    reason, before, rest, rfl, behind, decision, found, foundIn, recorded⟩
  have applied : Event.answered call operation' (.sql (.applyMoved update reason)) (.ok ())
      before ∈ trace := by
    apply (mem_own.mp _).1
    · exact call
    · rw [behind]
      exact List.mem_cons_self ..
  have linked := run.recalled.linked call
  rw [behind] at linked
  rcases transaction_of_applied linked (run.invariant.founded _ _ _ _ _ applied) with
    ⟨writtenAt, written⟩
  -- The row was undecided when the statement ran, since it still is.
  rcases run.recalled.seen _ applied with ⟨after, executed, changed, since⟩
  rcases (changed.trans since).forward found foundIn with ⟨row, member, advances⟩
  have waiting := undecided row member (advances.gatewayRef _ recorded)
  have beforeOk := run.worldOk_of_answered applied
  have foundWaiting : found.status = .submitted := by
    have past := (beforeOk.row found foundIn).past_of_ref recorded
    have bound := advances.rank_le
    rw [waiting] at bound
    revert past bound
    cases found.status <;> simp [Status.rank]
  have only := filter_of_undecided decision foundIn recorded foundWaiting
  rw [only, List.map_singleton, Option.map_eq_some_iff] at written
  rcases written with ⟨transaction, opened, writes⟩
  cases step with
  | @answer _ _ _ _ _ world running executed =>
      have rows := (commit_rows (run.worldOk.pending call transaction opened) opened executed).1
      generalize world.rows = after at rows ⊢
      cases rows with
      | nothing empty =>
          rw [writes] at empty
          cases empty
      | inserted writes' =>
          rw [writes] at writes'
          cases writes'
      | decided writes' =>
          rw [writes] at writes'
          simp only [List.cons.injEq, RefundWrite.update.injEq, and_true] at writes'
          rcases writes' with ⟨sameId, rfl, rfl⟩
          exists update.assign writtenAt row
          constructor
          · apply List.mem_map.mpr
            exists row
            constructor
            · exact member
            · rw [if_pos (advances.id.trans sameId)]
          · constructor
            · have recorded' := advances.gatewayRef _ recorded
              cases update <;> cases decision <;> exact recorded'
            · exact RefundUpdate.status_of_decision decision _ _

/-- The update of an earlier statement that reaches the row now is a decision that counts. -/
private theorem decision_of_decided (run : EngineRun hmac trace state)
    (permits : (engineContract hmac).Permits trace event)
    {call : CallId} {operation : Operation} {transaction : Transaction}
    {update : RefundUpdate} {writtenAt : Timestamp} {row : Refund}
    (isCommit : event = .answered call operation (.sql .commit) (.ok ()) state.world)
    (opened : state.world.transaction call = some transaction)
    (writes : transaction.refundWrites = [.update row.id update writtenAt])
    (decision : update.decision = some (gatewayRef, status)) :
    decisionOf gatewayRef trace event = some status := by
  subst isCommit
  have linked := run.recalled.linked call
  have founded := run.invariant.founded
  have mine : ∀ event ∈ own call trace, event ∈ trace :=
    fun event member => (mem_own.mp member).1
  rcases permits with ⟨⟨before, rest, behind⟩, _⟩ | ⟨update', reason, before, rest, behind⟩ |
    ⟨new, _, _, _, _, inserting, before, rest, _, behind⟩
  · rw [behind] at linked
    rw [transaction_of_began linked] at opened
    cases opened
    cases writes
  · rw [behind] at linked mine
    rcases transaction_of_applied linked (founded _ _ _ _ _ (mine _ (List.mem_cons_self ..)))
      with ⟨writtenAt', written⟩
    rw [opened, Option.map_some, writes, Option.some.injEq] at written
    have inside : RefundWrite.update row.id update writtenAt ∈
        (before.rows.filter fun row => update'.Applies row).map fun row =>
          .update row.id update' writtenAt' := by
      rw [← written]
      exact List.mem_singleton_self _
    rcases List.mem_map.mp inside with ⟨found, foundIn, same⟩
    simp only [RefundWrite.update.injEq] at same
    rcases same with ⟨_, rfl, _⟩
    simp only [List.mem_filter, decide_eq_true_eq] at foundIn
    exact decisionOf_commit behind decision foundIn.1
      (RefundUpdate.gatewayRef_of_decision decision foundIn.2)
  · rw [behind] at linked mine
    rcases transaction_of_inserted linked
      (founded _ _ _ _ _ (mine _ (List.mem_cons_of_mem _ (List.mem_cons_self ..)))) with
      ⟨_, written⟩
    rw [opened, Option.map_some, writes] at written
    cases written

private theorem submitted_of_step (run : EngineRun hmac trace state)
    (undecided : ∀ row ∈ state.world.rows, row.gatewayRef = some gatewayRef →
      row.status = .submitted)
    (step : (engine hmac).Step state event next) (permitted : NoCancel trace event)
    (decides : decisionOf gatewayRef trace event = none) {row : Refund}
    (member : row ∈ next.world.rows) (recorded : row.gatewayRef = some gatewayRef) :
    row.status = .submitted := by
  have ok := run.worldOk
  cases rowOrigin ok step member with
  | kept earlier => exact undecided row earlier recorded
  | @updated call operation update earlier earlierIn applies =>
      have legit := ((run.guarantee step permitted).invariant.founded _ _ _ _ _
        (List.mem_cons_self ..)).1 earlier earlierIn applies
      have rowOk := ok.row earlier earlierIn
      cases update with
      | markSubmitted | recoverRef => rfl
      | recordRef id name =>
          rcases legit with ⟨refund, held, _⟩
          rw [← applies.1, ← rowOk.key] at held
          exact rowOk.submitted_of_unrecorded applies.2 (rowOk.past_of_held held)
            (run.not_canceled earlier earlierIn)
      | markRequested id =>
          have unrecorded := (rowOk.unsent (by simp [applies.2, Status.rank])).1
          cases unrecorded.symm.trans recorded
      | settle | fail => exact (run.permits step).elim
  | @decided call operation transaction update writtenAt earlier decided status opened writes
      earlierIn applies decision =>
      have recorded' : earlier.gatewayRef = some gatewayRef := by
        cases update <;> cases decision <;> exact recorded
      cases (RefundUpdate.gatewayRef_of_decision decision applies).symm.trans recorded'
      cases decides.symm.trans
        (decision_of_decided run (run.permits step) rfl opened writes decision)
  | inserted opened writes new => cases new.gatewayRef.symm.trans recorded
  | canceled => exact permitted.elim

/-- One step keeps the statuses and the fates in agreement. -/
private theorem fated_step (run : EngineRun hmac trace state) (fated : Fated trace state.world)
    (step : (engine hmac).Step state event next) (permitted : NoCancel trace event) :
    Fated (event :: trace) next.world := by
  intro gatewayRef
  rcases fated gatewayRef with ⟨sealed, waiting⟩
  have later := (run.guarantee step permitted).later
  cases earlier : fate gatewayRef trace with
  | some status =>
      have same : fate gatewayRef (event :: trace) = some status := by simp [fate, earlier]
      rw [same]
      constructor
      · intro status' equal
        cases equal
        rcases sealed status earlier with ⟨terminal, row, member, recorded, rfl⟩
        rcases later.forward row member with ⟨row', member', advances⟩
        exact ⟨terminal, row', member', advances.gatewayRef _ recorded,
          advances.status_of_isTerminal terminal⟩
      · intro none
        cases none
  | none =>
      have same : fate gatewayRef (event :: trace) = decisionOf gatewayRef trace event := by
        simp [fate, earlier]
      rw [same]
      constructor
      · intro status decides
        rcases decisionOf_eq_some decides with ⟨_, _, _, _, _, _, _, _, _, _, decision, _⟩
        constructor
        · exact (terminal_of_decision decision).1
        · exact decided_of_commit run (waiting earlier) step decides
      · intro decides row member recorded
        exact submitted_of_step run (waiting earlier) step permitted decides member recorded

/-- The status of every row with a reference is the one its fate says. -/
theorem EngineRun.fated (run : EngineRun hmac trace state) : Fated trace state.world := by
  apply run.preserves fun trace state => Fated trace state.world
  · intro charges config now gatewayRef
    constructor
    · intro status decided
      cases decided
    · intro _ row member
      cases member
  · intro trace state event next run fated step permitted
    exact fated_step run fated step permitted

end Step

theorem EngineRun.status_eq {hmac : Hmac} {trace : List EngineEvent} {state : EngineState}
    (run : EngineRun hmac trace state) {row : Refund} (member : row ∈ state.world.rows)
    {gatewayRef : String} (recorded : row.gatewayRef = some gatewayRef) :
    row.status = (fate gatewayRef trace).getD .submitted := by
  rcases run.fated gatewayRef with ⟨sealed, waiting⟩
  cases decided : fate gatewayRef trace with
  | none => exact waiting decided row member recorded
  | some status =>
      rcases sealed status decided with ⟨_, found, foundIn, recorded', rfl⟩
      rw [state.world.database.refunds.eq_of_gatewayRef member foundIn recorded recorded']
      rfl

/-- The first webhook statement for a recorded reference finds the row in `submitted`, and
its transaction holds the decision on it. -/
theorem EngineRun.applied_of_undecided {hmac : Hmac} {trace : List EngineEvent}
    {state next : EngineState} (run : EngineRun hmac trace state) {row : Refund}
    (member : row ∈ state.world.rows) {gatewayRef : String}
    (recorded : row.gatewayRef = some gatewayRef) (undecided : fate gatewayRef trace = none)
    {call : CallId} {operation : Operation} {update : RefundUpdate} {reason : Option String}
    {status : Status} (decision : update.decision = some (gatewayRef, status))
    (step : (engine hmac).Step state
      (.answered call operation (.sql (.applyMoved update reason)) (.ok ()) state.world) next) :
    row.status = .submitted ∧ ∃ writtenAt,
      (next.world.transaction call).map Transaction.refundWrites =
        some [.update row.id update writtenAt] := by
  have waiting : row.status = .submitted := (run.fated gatewayRef).2 undecided row member recorded
  have run' := run.cons step trivial
  have linked := run'.recalled.linked call
  rw [own_cons_self rfl] at linked
  rcases transaction_of_applied linked
    (run'.invariant.founded _ _ _ _ _ (List.mem_cons_self ..)) with ⟨writtenAt, written⟩
  rw [filter_of_undecided decision member recorded waiting] at written
  exact ⟨waiting, writtenAt, written⟩

/-- A refund's fate is decided once.  Its reference is the id the gateway holds under its
key; it has none before it is submitted and has one once it is decided; with a reference
it is `submitted` until the first webhook statement that takes effect and then what that
statement says; the first such statement holds its decision until it commits; and in
every continuation the reference and a decided status stay. -/
theorem fate_decided_once {hmac : Hmac} {trace : List EngineEvent} {state : EngineState}
    (run : EngineRun hmac trace state) (row : Refund) (member : row ∈ state.world.rows) :
    (∀ gatewayRef, row.gatewayRef = some gatewayRef →
      (∃ refund, state.world.gateway.lookupByKey row.id.toString = some refund ∧
        refund.id = gatewayRef) ∧
      row.status = (fate gatewayRef trace).getD .submitted) ∧
    (row.status = .requested ∨ row.status = .pendingReview → row.gatewayRef = none) ∧
    (row.status = .settled ∨ row.status = .failed → row.gatewayRef ≠ none) ∧
    (∀ gatewayRef call operation update reason status next,
      row.gatewayRef = some gatewayRef → fate gatewayRef trace = none →
      update.decision = some (gatewayRef, status) →
      (engine hmac).Step state
        (.answered call operation (.sql (.applyMoved update reason)) (.ok ()) state.world)
        next →
      row.status = .submitted ∧ ∃ writtenAt,
        (next.world.transaction call).map Transaction.refundWrites =
          some [.update row.id update writtenAt]) ∧
    ∀ more later, (engine hmac).Run NoCancel state more later →
      ∀ row' ∈ later.world.rows, row'.id = row.id →
        (∀ gatewayRef, row.gatewayRef = some gatewayRef → row'.gatewayRef = some gatewayRef) ∧
        (row.status = .settled ∨ row.status = .failed → row'.status = row.status) := by
  have rowOk := run.worldOk.row row member
  constructor
  · intro gatewayRef recorded
    constructor
    · rw [← rowOk.key]
      exact rowOk.ref gatewayRef recorded
    · exact run.status_eq member recorded
  constructor
  · intro early
    apply (rowOk.unsent _).1
    rcases early with status | status <;> simp [status, Status.rank]
  constructor
  · exact rowOk.decided
  constructor
  · intro gatewayRef call operation update reason status next recorded undecided decision step
    exact run.applied_of_undecided member recorded undecided decision step
  · intro more later continued row' member' same
    rcases (run.later continued).forward row member with ⟨found, foundIn, advances⟩
    have isRow := later.world.database.refunds.eq_of_id member' foundIn
      (same.trans advances.id.symm)
    subst isRow
    constructor
    · exact advances.gatewayRef
    · intro decided
      apply advances.status_of_isTerminal
      rcases decided with status | status <;> simp [status, Status.isTerminal]

/-- In the sample the settlement decides the first reference, and nothing the second. -/
theorem fate_decided_once_sample :
    fate "re_mock_00000001" sampleEnd.1 = some .settled ∧
      fate "re_mock_00000002" sampleEnd.1 = none ∧
      ∃ row ∈ sampleEnd.2.world.rows, row.gatewayRef = some "re_mock_00000001" ∧
        row.status = (fate "re_mock_00000001" sampleEnd.1).getD .submitted := by
  have exists_row : ∃ row ∈ sampleEnd.2.world.rows,
      row.gatewayRef = some "re_mock_00000001" := by decide +kernel
  rcases exists_row with ⟨row, member, recorded⟩
  refine ⟨by decide +kernel, by decide +kernel, row, member, recorded, ?_⟩
  exact ((fate_decided_once sampleEnd_run row member).1 _ recorded).2

/-- The status that the first statement for a reference asks for, once a row has the reference
recorded, whether or not the statement is ever committed. -/
def firstAsked (gatewayRef : String) (trace : List EngineEvent) : Option Status :=
  trace.reverse.findSome? fun event =>
    match event with
    | .answered _ _ (.sql (.applyMoved update _)) (.ok ()) before =>
        match update.decision with
        | some (decided, status) =>
            if decided = gatewayRef ∧ ∃ row ∈ before.rows, row.gatewayRef = some gatewayRef
            then some status
            else none
        | none => none
    | _ => none

/-- The second refund of the sample is reported to have settled after all. -/
def clearedEvent : WebhookEvent where
  id := "evt_3"
  eventType := "refund.settled"
  data := { gatewayRef := "re_mock_00000002", reason := none }

/-- A failure is delivered, but the process dies before its `COMMIT`; then the settlement is. -/
def abandonedEnd : List EngineEvent × EngineState :=
  ((engine sampleHmac).play NoCancel
    ([.start 10 (.handleWebhook declinedEvent [] (sign sampleHmac [] []) []),
      .execute 10, .execute 10, .execute 10, .die 10] ++
      uninterrupted 11 (.handleWebhook clearedEvent [] (sign sampleHmac [] []) []) 4)
    sampleEnd).get (by decide +kernel)

/-- The first statement for the reference asks for `failed`, and the refund ends up settled. -/
theorem first_asked_not_decided :
    EngineRun sampleHmac abandonedEnd.1 abandonedEnd.2 ∧
    firstAsked "re_mock_00000002" abandonedEnd.1 = some .failed ∧
    ∃ row ∈ abandonedEnd.2.world.rows, row.gatewayRef = some "re_mock_00000002" ∧
      row.status = .settled := by
  rcases sampleEnd_run with ⟨charges, config, now, run⟩
  exact ⟨⟨charges, config, now, Machine.play_run run (Option.some_get _).symm⟩,
    by decide +kernel, by decide +kernel⟩

end RefundEngine
