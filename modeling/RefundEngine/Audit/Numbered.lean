import RefundEngine.Audit.Origin
import RefundEngine.Audit.Recording
import RefundEngine.Audit.Walk
import RefundEngine.Fate

/-!
# The ids of audit rows under concurrency

Ids are drawn from a sequence when a row is written, and a transaction that commits later
than it writes publishes an older id.  What still holds in every interleaving: ids are below
the sequence, audit rows belong to refunds, and what a transaction has staged names the
refund it has written and the status it will have.  As long as no refund that an open
transaction has updated gets an audit row from outside, and no statement misses an audit row
while it waits, what is staged is also newer than what is committed, and leads on from it.
-/

namespace RefundEngine

open Interleaving (CallId Machine own)

/-- A staged audit row and the write it goes with: the refund inserted, or the one decided.
As long as the committed rows are watched, a row that decides is newer than every committed one
of its refund and leads on from the newest of them. -/
inductive Accompanies (watched : Prop) (committed : List Transition) :
    List RefundWrite → Transition → Prop where
  | opening {row : Refund} {audit : Transition} (own : audit.refundId = row.id)
      (status : audit.toStatus = row.status) :
      Accompanies watched committed [.insert row] audit
  | deciding {id : Uuid} {update : RefundUpdate} {writtenAt : Timestamp} {gatewayRef : String}
      {status : Status} {audit : Transition} (decides : update.decision = some (gatewayRef, status))
      (own : audit.refundId = id) (reached : audit.toStatus = status)
      (newest : watched → ∀ earlier ∈ committed, earlier.refundId = id → earlier.id < audit.id)
      (source : watched → audit.fromStatus = newestStatus committed id) :
      Accompanies watched committed [.update id update writtenAt] audit

/-- Ids are below the sequence, audit rows belong to refunds, and what is staged accompanies
what is written. -/
structure Numbered (watched : Prop) (world : World) : Prop where
  bounded : ∀ audit ∈ world.database.transitions, audit.id < world.database.nextTransition
  known : ∀ audit ∈ world.database.transitions, audit.refundId ∈ world.rows.map Refund.id
  staged : ∀ call transaction, world.transaction call = some transaction →
    ∀ audit ∈ transaction.transitionWrites, audit.id < world.database.nextTransition ∧
      Accompanies watched world.database.transitions transaction.refundWrites audit

/-- No open transaction has updated the refund. -/
def Free (world : World) (refundId : Uuid) : Prop :=
  ¬world.OtherTransaction none fun transaction => refundId ∈ transaction.lockedRows

instance (world : World) (refundId : Uuid) : Decidable (Free world refundId) :=
  inferInstanceAs (Decidable (¬_))

theorem Free.notMem {world : World} {refundId : Uuid} (free : Free world refundId) {call : CallId}
    {transaction : Transaction} (opened : world.transaction call = some transaction) :
    refundId ∉ transaction.lockedRows := by
  intro locked
  apply free
  exact World.otherTransaction_iff.mpr ⟨call, transaction, by simp, opened, locked⟩

namespace Numbered

variable {watched : Prop} {world after : World} {call : CallId}

theorem unstaged (numbered : Numbered watched world) {transaction : Transaction}
    (opened : world.transaction call = some transaction)
    (unwritten : transaction.refundWrites = []) : transaction.transitionWrites = [] := by
  rw [List.eq_nil_iff_forall_not_mem]
  intro audit member
  have accompanies := (numbered.staged call transaction opened audit member).2
  rw [unwritten] at accompanies
  cases accompanies

theorem of_same (numbered : Numbered watched world)
    (ids : after.rows.map Refund.id = world.rows.map Refund.id)
    (transitions : after.database.transitions = world.database.transitions)
    (next : after.database.nextTransition = world.database.nextTransition)
    (transactions : ∀ call transaction, after.transaction call = some transaction →
      transaction.transitionWrites = [] ∨ ∃ earlier, world.transaction call = some earlier ∧
        transaction.refundWrites = earlier.refundWrites ∧
        transaction.transitionWrites = earlier.transitionWrites) :
    Numbered watched after where
  bounded := by
    rw [transitions, next]
    exact numbered.bounded
  known := by
    rw [transitions, ids]
    exact numbered.known
  staged call transaction opened audit member := by
    rw [transitions, next]
    rcases transactions call transaction opened with none | ⟨earlier, before, writes, staged⟩
    · rw [none] at member
      cases member
    · rw [staged] at member
      rw [writes]
      exact numbered.staged call earlier before audit member

theorem endTransaction (numbered : Numbered watched world) :
    Numbered watched (world.endTransaction call) := by
  refine numbered.of_same rfl rfl rfl ?_
  intro other transaction opened
  have before := (World.transaction_of_endTransaction opened).2
  exact .inr ⟨transaction, before, rfl, rfl⟩

theorem setTransaction (numbered : Numbered watched world) {transaction : Transaction} {count : Nat}
    (staged : ∀ audit ∈ transaction.transitionWrites,
      audit.id < world.database.nextTransition + count ∧
        Accompanies watched world.database.transitions transaction.refundWrites audit) :
    Numbered watched ((world.setTransaction call transaction).advanceSequence count) where
  bounded audit member := Nat.lt_add_right count (numbered.bounded audit member)
  known := numbered.known
  staged other transaction' opened audit member := by
    rw [World.transaction_advanceSequence] at opened
    by_cases own : other = call
    · rw [own, World.transaction_setTransaction_self] at opened
      cases opened
      exact staged audit member
    · rw [World.transaction_setTransaction_of_ne _ _ own] at opened
      rcases numbered.staged other transaction' opened audit member with ⟨bounded, accompanies⟩
      exact ⟨Nat.lt_add_right count bounded, accompanies⟩

end Numbered

/-- What accompanies a write still does when rows of other refunds are committed. -/
theorem Accompanies.append {watched : Prop} {committed more : List Transition}
    {writes : List RefundWrite} {audit : Transition}
    (accompanies : Accompanies watched committed writes audit)
    (others : watched → ∀ id update writtenAt, writes = [.update id update writtenAt] →
      ∀ other ∈ more, other.refundId ≠ id) :
    Accompanies watched (committed ++ more) writes audit := by
  cases accompanies with
  | opening own status => exact .opening own status
  | deciding decides own reached newest source =>
      refine .deciding decides own reached ?_ ?_
      · intro isWatched earlier member same
        rcases List.mem_append.mp member with before | new
        · exact newest isWatched earlier before same
        · exact (others isWatched _ _ _ rfl earlier new same).elim
      · intro isWatched
        rw [newestStatus_append_other (others isWatched _ _ _ rfl)]
        exact source isWatched

section Statements

variable {watched : Prop} {world after : World} {call : CallId}

/-- The statement stages no audit row and inserts none; a request inserts its refund before
it stages anything. -/
private def Unstaging (world : World) (call : CallId) : Statement → Prop
  | .recordTransition _ _ _ _ | .insertTransition _ _ _ _ | .applyMoved _ _ | .commit => False
  | .insertRefund _ => ∀ transaction, world.transaction call = some transaction →
      transaction.transitionWrites = []
  | _ => True

private theorem Numbered.unstaging (numbered : Numbered watched world) {statement : Statement}
    {answer : Except DbError statement.Value} (unstaging : Unstaging world call statement)
    (executed : world.execute call statement = some (answer, after)) : Numbered watched after := by
  have replaced : ∀ transaction : Transaction, (∀ audit ∈ transaction.transitionWrites,
      audit.id < world.database.nextTransition + 0 ∧
        Accompanies watched world.database.transitions transaction.refundWrites audit) →
      Numbered watched (world.setTransaction call transaction) := by
    intro transaction staged
    exact numbered.setTransaction staged
  cases statement with
  | recordTransition | insertTransition | applyMoved | commit => exact unstaging.elim
  | getRefund | selectStuck | selectSettled | selectAmount =>
      simp only [World.execute, Option.some.injEq, Prod.mk.injEq] at executed
      rw [← executed.2]
      exact numbered
  | sumRefunds =>
      simp only [World.execute, World.sumRefunds, World.inTransaction] at executed
      split at executed
      · simp only [Option.some.injEq, Prod.mk.injEq] at executed
        rw [← executed.2]
        exact numbered
      · cases executed
        exact numbered
  | insertWebhookEvent =>
      simp only [World.execute, World.insertWebhookEvent] at executed
      split at executed
      · cases executed
        exact numbered
      · cases executed
        exact ⟨numbered.bounded, numbered.known, numbered.staged⟩
  | updateRefunds update =>
      simp only [World.execute, World.updateRefunds] at executed
      split at executed
      · cases executed
      · split at executed
        · rename_i refunds revised
          cases executed
          have ids : (world.setRefunds refunds).rows.map Refund.id = world.rows.map Refund.id := by
            simp only [World.rows, World.setRefunds, RefundTable.rows_of_revise revised,
              List.map_map, Function.comp_def, RowChange.apply_id]
          refine ⟨numbered.bounded, ?_, numbered.staged⟩
          rw [ids]
          exact numbered.known
        · cases executed
          exact numbered
  | begin =>
      cases executed
      apply replaced
      intro audit member
      cases member
  | rollback =>
      cases executed
      exact numbered.endTransaction
  | lockCharge =>
      simp only [World.execute, World.lockCharge, World.inTransaction] at executed
      split at executed
      · rename_i transaction opened
        split at executed
        · cases executed
          exact numbered
        · split at executed
          · cases executed
          · cases executed
            exact replaced _ (numbered.staged call transaction opened)
      · cases executed
        exact numbered
  | insertRefund =>
      simp only [World.execute, World.insertRefund, World.inTransaction] at executed
      split at executed
      · rename_i transaction opened
        repeat' split at executed
        all_goals cases executed
        all_goals try exact numbered
        apply replaced
        intro audit member
        simp only [unstaging transaction opened, List.not_mem_nil] at member
      · cases executed
        exact numbered

private theorem Numbered.recordTransition (numbered : Numbered watched world) {refundId : Uuid}
    {fromStatus : Option Status} {toStatus : Status} {actor : String}
    {answer : Except DbError Unit} (free : watched → Free world refundId)
    (executed : world.execute call (.recordTransition refundId fromStatus toStatus actor) =
      some (answer, after)) : Numbered watched after := by
  simp only [World.execute, World.recordTransition, Option.some.injEq] at executed
  split at executed
  · rename_i exists'
    cases executed
    refine ⟨?_, ?_, ?_⟩
    · intro audit member
      rcases List.mem_append.mp member with earlier | new
      · exact Nat.lt_succ_of_lt (numbered.bounded audit earlier)
      · rw [List.mem_singleton.mp new]
        exact Nat.lt_succ_self _
    · intro audit member
      rcases List.mem_append.mp member with earlier | new
      · exact numbered.known audit earlier
      · rw [List.mem_singleton.mp new]
        exact exists'
    · intro other transaction opened audit member
      rcases numbered.staged other transaction opened audit member with ⟨bounded, accompanies⟩
      refine ⟨Nat.lt_succ_of_lt bounded, accompanies.append ?_⟩
      intro isWatched id update writtenAt writes new isNew
      rw [List.mem_singleton.mp isNew]
      rintro rfl
      apply (free isWatched).notMem opened
      rw [Transaction.lockedRows, writes]
      exact List.mem_singleton_self _
  · cases executed
    exact numbered

private theorem Numbered.insertTransition (numbered : Numbered watched world) {refundId : Uuid}
    {toStatus : Status} {actor : String} {reason : Option String} {answer : Except DbError Unit}
    (inserted : ∀ transaction, world.transaction call = some transaction →
      ∃ row, transaction.refundWrites = [.insert row] ∧ refundId = row.id ∧ toStatus = row.status)
    (executed : world.execute call (.insertTransition refundId toStatus actor reason) =
      some (answer, after)) : Numbered watched after := by
  simp only [World.execute, World.insertTransition, World.inTransaction] at executed
  split at executed
  · rename_i transaction opened
    rcases inserted transaction opened with ⟨row, writes, own, status⟩
    split at executed
    · cases executed
      apply numbered.setTransaction
      intro audit member
      rcases List.mem_append.mp member with earlier | new
      · rcases numbered.staged call transaction opened audit earlier with ⟨bounded, accompanies⟩
        exact ⟨Nat.lt_succ_of_lt bounded, accompanies⟩
      · rw [List.mem_singleton.mp new]
        refine ⟨Nat.lt_succ_self _, ?_⟩
        simp only [writes]
        exact .opening own status
    · cases executed
      exact numbered
  · cases executed
    exact numbered

private theorem Numbered.applyMoved (numbered : Numbered watched world) {update : RefundUpdate}
    {reason : Option String} {answer : Except DbError Unit}
    (founded : Founded call world (.sql (.applyMoved update reason)))
    (sees : watched → ∀ row ∈ world.rows, update.Applies row → world.Sees call update row.id)
    (executed : world.execute call (.applyMoved update reason) = some (answer, after)) :
    Numbered watched after := by
  rcases Option.ne_none_iff_exists'.mp founded.1 with ⟨⟨gatewayRef, status⟩, decides⟩
  simp only [World.execute, World.applyMoved, World.inTransaction] at executed
  split at executed
  · rename_i transaction opened
    have unwritten := founded.2 transaction opened
    have unstaged := numbered.unstaged opened unwritten
    split at executed
    · cases executed
    · cases executed
      apply numbered.setTransaction
      intro audit member
      simp only [unstaged, unwritten, List.nil_append] at member ⊢
      rcases world.database.refunds.filter_of_decision decides with
        none | ⟨row, rowIn, applies, only⟩
      · simp only [World.rows, none, List.mapIdx_nil, List.not_mem_nil] at member
      · simp only [World.rows, only, List.mapIdx_cons, List.mapIdx_nil, List.mem_singleton,
          List.map_cons, List.map_nil, List.length_singleton] at member ⊢
        rw [member]
        refine ⟨Nat.lt_succ_self _, .deciding decides rfl ?_ ?_ ?_⟩
        · exact RefundUpdate.status_of_decision decides _ _
        · intro _ earlier inside _
          exact numbered.bounded earlier inside
        · intro isWatched
          exact sees isWatched row rowIn applies
  · cases executed
    exact numbered

/-- What is committed names a refund that no other transaction has updated. -/
private theorem Numbered.committed_elsewhere (numbered : Numbered watched world) (ok : WorldOk world)
    {transaction other : Transaction} {caller : CallId}
    (opened : world.transaction call = some transaction)
    (opened' : world.transaction caller = some other) (different : caller ≠ call)
    (unused : ∀ row, transaction.refundWrites = [.insert row] →
      row.id ∉ world.rows.map Refund.id)
    {id : Uuid} {update : RefundUpdate} {writtenAt : Timestamp}
    (writes : other.refundWrites = [.update id update writtenAt]) {audit : Transition}
    (member : audit ∈ transaction.transitionWrites) : audit.refundId ≠ id := by
  rintro rfl
  have locked : audit.refundId ∈ other.lockedRows := by
    rw [Transaction.lockedRows, writes]
    exact List.mem_singleton_self _
  have accompanies := (numbered.staged call transaction opened audit member).2
  generalize written : transaction.refundWrites = mine at accompanies
  cases accompanies with
  | opening own status =>
      -- The other transaction has updated a committed row; this one inserts a new one.
      have pending := ok.pending caller other opened'
      rw [writes] at pending
      generalize theirs : audit.refundId = id at pending
      cases pending with
      | update inside =>
          apply unused _ written
          rw [← own, theirs]
          exact List.mem_map_of_mem inside
  | deciding decides own reached =>
      apply different
      apply ok.rowLocks caller call other transaction audit.refundId opened' opened locked
      rw [Transaction.lockedRows, written, own]
      exact List.mem_singleton_self _

theorem ids_of_commitRows (ok : WorldOk world) {transaction : Transaction}
    {answer : Except DbError Unit} {rows : List Refund}
    (opened : world.transaction call = some transaction)
    (committed : CommitRows world transaction answer rows) :
    world.rows.map Refund.id ⊆ rows.map Refund.id ∧ (answer = .ok () →
      ∀ row, transaction.refundWrites = [.insert row] →
        row.id ∉ world.rows.map Refund.id ∧ row.id ∈ rows.map Refund.id) := by
  cases committed with
  | failed =>
      constructor
      · exact List.Subset.refl _
      · intro fails
        cases fails
  | nothing empty =>
      constructor
      · exact List.Subset.refl _
      · intro _ row writes
        cases empty.symm.trans writes
  | @inserted row writes unused =>
      constructor
      · rw [List.map_append]
        exact List.subset_append_left _ _
      · intro _ other writes'
        cases writes.symm.trans writes'
        constructor
        · intro taken
          rcases List.mem_map.mp taken with ⟨earlier, earlierIn, same⟩
          have pending := ok.pending call transaction opened
          rw [writes] at pending
          cases pending with
          | insert new =>
              apply unused
              rw [new.key, ← same, ← (ok.row earlier earlierIn).key]
              exact List.mem_map_of_mem earlierIn
        · rw [List.map_append]
          exact List.mem_append_right _ (List.mem_singleton_self _)
  | @decided row update writtenAt writes =>
      have ids : ∀ other : Refund,
          (if other.id = row.id then update.assign writtenAt other else other).id = other.id := by
        intro other
        split <;> simp
      constructor
      · simp only [List.map_map, Function.comp_def, ids]
        exact List.Subset.refl _
      · intro _ other writes'
        cases writes.symm.trans writes'

/-- The tables of the audit trail after a commit. -/
theorem Database.trail_of_commit {database committed : Database} {transaction : Transaction}
    (commits : database.commit transaction = .ok committed) :
    committed.transitions = database.transitions ++ transaction.transitionWrites ∧
      committed.nextTransition = database.nextTransition := by
  simp only [Database.commit] at commits
  cases written : transaction.refundWrites.foldlM RefundTable.write database.refunds with
  | error error =>
      rw [written] at commits
      cases commits
  | ok refunds =>
      rw [written] at commits
      cases commits
      exact ⟨rfl, rfl⟩

private theorem Numbered.commit (numbered : Numbered watched world) (ok : WorldOk world)
    {answer : Except DbError Unit}
    (executed : world.execute call .commit = some (answer, after)) : Numbered watched after := by
  have executed' := executed
  simp only [World.execute, World.commit, World.inTransaction] at executed
  split at executed
  · rename_i transaction opened
    have rows := (commit_rows (ok.pending call transaction opened) opened executed').1
    rcases ids_of_commitRows ok opened rows with ⟨kept, inserted⟩
    split at executed
    · rename_i database committed
      cases executed
      rcases Database.trail_of_commit committed with ⟨transitions, next⟩
      refine ⟨?_, ?_, ?_⟩
      · intro audit member
        rw [next]
        rw [transitions] at member
        rcases List.mem_append.mp member with earlier | new
        · exact numbered.bounded audit earlier
        · exact (numbered.staged call transaction opened audit new).1
      · intro audit member
        rw [transitions] at member
        rcases List.mem_append.mp member with earlier | new
        · exact kept (numbered.known audit earlier)
        · have accompanies := (numbered.staged call transaction opened audit new).2
          have pending := ok.pending call transaction opened
          generalize written : transaction.refundWrites = writes at accompanies pending
          cases accompanies with
          | opening own status =>
              rw [own]
              exact (inserted rfl _ written).2
          | deciding decides own reached =>
              rw [own]
              generalize theirs : audit.refundId = id at own pending
              cases pending with
              | update inside => exact kept (List.mem_map_of_mem inside)
      · intro other transaction' opened' audit member
        rcases World.transaction_of_endTransaction opened' with ⟨different, before⟩
        rcases numbered.staged other transaction' before audit member with ⟨bounded, accompanies⟩
        rw [transitions, next]
        refine ⟨bounded, accompanies.append ?_⟩
        intro _ id update writtenAt writes new isNew
        exact numbered.committed_elsewhere ok opened before different
          (fun row written => (inserted rfl row written).1) writes isNew
    · cases executed
      exact numbered.endTransaction
  · cases executed
    exact numbered

end Statements

/-- A statement that neither updates refunds by itself, nor records that it did, nor commits
leaves refunds and audit rows alone. -/
theorem tables_of_plain {world after : World} {call : CallId} {operation : Operation}
    {statement : Statement} {answer : Except DbError statement.Value} (plain : Plain statement)
    (uncommitted : statement ≠ .commit)
    (executed : world.execute call statement = some (answer, after)) :
    after.rows = world.rows ∧
      appended (.answered call operation (.sql statement) answer world) = [] := by
  constructor
  · cases statementEffect executed with
    | same tables => exact congrArg RefundTable.rows tables.refunds
    | updated => exact plain.elim
    | conflict | inserted => rfl
    | committed => exact (uncommitted rfl).elim
  · cases statement with
    | recordTransition => exact plain.elim
    | commit => exact (uncommitted rfl).elim
    | _ => cases answer <;> rfl

section Step

variable {hmac : Hmac} {trace : List EngineEvent} {state next : EngineState}
variable {event : EngineEvent} {watched : Prop}

/-- A request stages the audit row of the refund it has inserted. -/
private theorem EngineRun.inserted_of_opening (run : EngineRun hmac trace state)
    {call : CallId} {operation : Operation} {refundId : Uuid} {toStatus : Status}
    (opening : Opening call operation (own call trace) refundId toStatus)
    (transaction : Transaction) (opened : state.world.transaction call = some transaction) :
    ∃ row, transaction.refundWrites = [.insert row] ∧ refundId = row.id ∧
      toStatus = row.status := by
  rcases opening with ⟨new, before, rest, latest, same, status⟩
  have inserting : .answered call operation (.sql (.insertRefund new)) (.ok ()) before ∈
      own call trace := by
    rw [latest]
    exact List.mem_cons_self ..
  have founded := run.invariant.founded _ _ _ _ _ (Interleaving.mem_own.mp inserting).1
  have linked := run.recalled.linked call
  rw [latest] at linked
  rcases transaction_of_insertRefund linked founded with
    ⟨transaction', row, opened', writes, id, status'⟩
  cases opened.symm.trans opened'
  exact ⟨row, writes, same.trans id.symm, status.trans status'.symm⟩

/-- Whatever the interleaving, ids stay in order as long as no refund that an open transaction
has updated gets an audit row from outside. -/
theorem EngineRun.numbered_of_step (run : EngineRun hmac trace state)
    (numbered : Numbered watched state.world) (step : (engine hmac).Step state event next)
    (permitted : NoCancel trace event)
    (free : watched → ∀ refundId fromStatus toStatus actor,
      event.command? = some (.sql (.recordTransition refundId fromStatus toStatus actor)) →
      Free state.world refundId)
    (sees : watched → ∀ call operation update reason answer,
      event = .answered call operation (.sql (.applyMoved update reason)) answer state.world →
      ∀ row ∈ state.world.rows, update.Applies row → state.world.Sees call update row.id) :
    Numbered watched next.world := by
  have same : ∀ {after : World},
      after.rows.map Refund.id = state.world.rows.map Refund.id →
      after.database.transitions = state.world.database.transitions →
      after.database.nextTransition = state.world.database.nextTransition →
      after.transactions = state.world.transactions → Numbered watched after := by
    intro after ids transitions next transactions
    apply numbered.of_same ids transitions next
    intro call transaction opened
    rw [World.transaction, transactions] at opened
    exact .inr ⟨transaction, opened, rfl, rfl⟩
  have licensed : ∀ {call operation command answer before},
      event = .answered call operation command answer before →
      LicensedRecord call operation (own call trace) command ∧ Founded call before command := by
    rintro call operation command answer before rfl
    constructor
    · rcases run with ⟨_, _, _, run⟩
      exact (auditContract_upheld hmac).permits (fun _ => rfl) run step
    · exact (run.cons step permitted).invariant.founded _ _ _ _ _ (List.mem_cons_self ..)
  cases step with
  | start | fail => exact numbered
  | finish | die => exact numbered.endTransaction
  | @act action world acted =>
      have drifts := Drifts.of_act permitted acted
      exact same (congrArg _ drifts.rows) drifts.transitions drifts.nextTransition
        drifts.transactions
  | @answer call operation command next' answer world running executed =>
      rcases licensed rfl with ⟨licensed, founded⟩
      cases command with
      | createRefund | lookupByKey =>
          cases executed
          exact same rfl rfl rfl rfl
      | sql statement =>
          have executed : state.world.execute call statement = some (answer, world) := executed
          cases statement with
          | getRefund | selectStuck | selectSettled | selectAmount | insertWebhookEvent
          | updateRefunds | sumRefunds | begin | lockCharge | rollback =>
              refine numbered.unstaging ?_ executed
              exact trivial
          | insertRefund =>
              refine numbered.unstaging ?_ executed
              intro transaction opened
              exact numbered.unstaged opened (founded.2 transaction opened).1
          | recordTransition =>
              apply numbered.recordTransition _ executed
              intro isWatched
              exact free isWatched _ _ _ _ rfl
          | insertTransition =>
              exact numbered.insertTransition (run.inserted_of_opening licensed) executed
          | applyMoved =>
              refine numbered.applyMoved founded ?_ executed
              intro isWatched
              exact sees isWatched _ _ _ _ _ rfl
          | commit => exact numbered.commit run.worldOk executed

/-- In every run ids stay in order. -/
theorem EngineRun.numbered (run : EngineRun hmac trace state) : Numbered False state.world := by
  apply run.preserves fun _ state => Numbered False state.world
  · intro charges config now
    constructor
    · intro audit member
      cases member
    · intro audit member
      cases member
    · intro call transaction opened
      cases opened
  · intro trace state event next run numbered step permitted
    apply run.numbered_of_step numbered step permitted
    all_goals exact False.elim

theorem Numbered.watch {world : World} (numbered : Numbered False world)
    (unlocked : ∀ call, world.transaction call = none) : Numbered True world where
  bounded := numbered.bounded
  known := numbered.known
  staged call transaction opened := by
    rw [unlocked] at opened
    cases opened

end Step

end RefundEngine
