import RefundEngine.Invariant.Run
import RefundEngine.Sequential

/-!
# Recovery converges

From every reachable state with no call in progress and a healthy gateway, recovery run
to completion succeeds and leaves every stuck refund submitted, with the reference of its
own object at the gateway.
-/

namespace RefundEngine

open Interleaving (CallId Machine)

theorem refs_nodup_of_rowOk {gateway : MockGateway} (consistent : gateway.Consistent)
    {rows : List Refund} (keys : (rows.map Refund.idempotencyKey).Nodup)
    (ok : ∀ row ∈ rows, RowOk gateway row) : (rows.filterMap Refund.gatewayRef).Nodup := by
  apply List.pairwise_filterMap.mpr
  have distinct := List.pairwise_map.mp keys
  refine distinct.imp_of_mem ?_
  intro left right leftIn rightIn different gatewayRef leftRef gatewayRef' rightRef same
  subst same
  rcases (ok left leftIn).ref gatewayRef leftRef with ⟨refund, held, name⟩
  rcases (ok right rightIn).ref gatewayRef rightRef with ⟨refund', held', name'⟩
  exact different (consistent.distinct _ _ _ _ held held' (name.trans name'.symm))

/-- An update whose references were learned from the gateway never violates the unique
index on `gateway_ref`. -/
theorem WorldOk.revise_ok {world : World} (ok : WorldOk world) {update : RefundUpdate}
    (legit : ∀ row ∈ world.rows, update.Applies row → update.Legit world.gateway row)
    (now : Timestamp) :
    ∃ refunds, world.database.refunds.revise (update.change now) = .ok refunds := by
  have rowsOk : ∀ row ∈ world.rows.map (update.change now).apply,
      RowOk world.gateway row := by
    intro row member
    rcases List.mem_map.mp member with ⟨earlier, earlierIn, rfl⟩
    simp only [RefundUpdate.change]
    split
    · rename_i applies
      exact ((ok.row earlier earlierIn).assign applies (legit earlier earlierIn applies) now).1
    · exact ok.row earlier earlierIn
  have keys : ((world.rows.map (update.change now).apply).map Refund.idempotencyKey).Nodup := by
    have same : Refund.idempotencyKey ∘ (update.change now).apply = Refund.idempotencyKey := by
      funext row
      exact (update.change now).apply_idempotencyKey row
    rw [List.map_map, same]
    exact world.database.refunds.keys_nodup
  have unique := refs_nodup_of_rowOk ok.consistent keys rowsOk
  exact ⟨_, dif_pos unique⟩

/-! ## A world at rest -/

/-- Nothing is open, the invariant holds, and the gateway neither drops responses nor
times out. -/
structure Calm (world : World) : Prop where
  ok : WorldOk world
  unlocked : ∀ call, world.transaction call = none
  responds : world.gateway.config.dropResponse = false
  answers : world.gateway.config.timeOut = false

namespace Calm

variable {world : World} {call : CallId}

theorem updateRefunds (calm : Calm world) {update : RefundUpdate}
    (founded : Founded call world (.sql (.updateRefunds update))) :
    ∃ after, world.execute call (.updateRefunds update) = some (.ok (), after) ∧
      Calm after ∧ after.rows = world.rows.map (update.change world.now).apply ∧
      after.gateway = world.gateway ∧ after.charges = world.charges := by
  rcases calm.ok.revise_ok founded.1 world.now with ⟨refunds, revised⟩
  have free : ¬world.MustWait none update :=
    World.not_mustWait (fun other _ => calm.unlocked other) update
  have executed : world.execute call (.updateRefunds update) =
      some (.ok (), world.setRefunds refunds) := by
    simp only [World.execute, World.updateRefunds, if_neg free, revised]
  have kept := founded.kept calm.ok executed
  exact ⟨_, executed, ⟨kept.ok, calm.unlocked, calm.responds, calm.answers⟩,
    RefundTable.rows_of_revise revised, rfl, rfl⟩

theorem recordTransition (calm : Calm world) (call : CallId) {refundId : Uuid}
    (fromStatus : Option Status) (toStatus : Status) (actor : String)
    (known : refundId ∈ world.rows.map Refund.id) :
    ∃ after, world.execute call (.recordTransition refundId fromStatus toStatus actor) =
        some (.ok (), after) ∧
      Calm after ∧ after.rows = world.rows ∧ after.gateway = world.gateway ∧
      after.charges = world.charges := by
  let after := (world.recordTransition refundId fromStatus toStatus actor).2
  have answered : world.recordTransition refundId fromStatus toStatus actor = (.ok (), after) := by
    simp only [after, World.recordTransition, if_pos known]
  have executed : world.execute call (.recordTransition refundId fromStatus toStatus actor) =
      some (.ok (), after) := congrArg some answered
  have same : after.rows = world.rows ∧ after.gateway = world.gateway ∧
      after.charges = world.charges ∧ after.transactions = world.transactions := by
    simp only [after, World.recordTransition]
    split <;> exact ⟨rfl, rfl, rfl, rfl⟩
  rcases same with ⟨rows, gateway, charges, transactions⟩
  have founded : Founded call world
      (.sql (.recordTransition refundId fromStatus toStatus actor)) := trivial
  have calm' : Calm after :=
    { ok := (founded.kept calm.ok executed).ok
      unlocked := by
        intro other
        rw [World.transaction, transactions]
        exact calm.unlocked other
      responds := by
        rw [gateway]
        exact calm.responds
      answers := by
        rw [gateway]
        exact calm.answers }
  exact ⟨after, executed, calm', rows, gateway, charges⟩

/-- A healthy gateway that does not hold the key of a row past review issues its object. -/
theorem createRefund (calm : Calm world) {row : Refund} (member : row ∈ world.rows)
    (past : Status.submitted.rank ≤ row.status.rank)
    (unheld : world.gateway.lookupByKey row.id.toString = none) :
    ∃ refund gateway,
      world.gateway.createRefund row.amountCents row.currency row.id.toString =
        (.accepted refund, gateway) ∧
      Calm { world with gateway := gateway } ∧
      gateway.lookupByKey row.id.toString = some refund ∧
      (∀ key, key ≠ row.id.toString →
        gateway.lookupByKey key = world.gateway.lookupByKey key) ∧
      gateway.issuedCount = world.gateway.issuedCount + 1 := by
  have issued : world.gateway.createRefund row.amountCents row.currency row.id.toString =
      (.accepted (world.gateway.freshRefund row.amountCents row.currency row.id.toString),
        world.gateway.issue row.amountCents row.currency row.id.toString) := by
    rcases world.gateway.createRefund_cases row.amountCents row.currency row.id.toString with
      ⟨existing, held, _⟩ | ⟨_, timeOut, _⟩ | ⟨_, _, result⟩
    · cases unheld.symm.trans held
    · cases calm.answers.symm.trans timeOut
    · rw [result, MockGateway.respond, calm.responds]
      rfl
  have founded : Founded 0 world
      (.createRefund row.amountCents row.currency row.id.toString) :=
    ⟨row, member, (calm.ok.row row member).key, rfl, rfl, past⟩
  have executed := congrArg
    (fun answered => some (answered.1, { world with gateway := answered.2 })) issued
  have kept := founded.kept calm.ok executed
  refine ⟨_, _, issued, ⟨kept.ok, calm.unlocked, calm.responds, calm.answers⟩, ?_, ?_, rfl⟩
  · exact MockGateway.lookupByKey_issue_self _ _ _ _
  · intro key different
    exact MockGateway.lookupByKey_issue_of_ne _ _ _ different

end Calm

/-- What recovery has done once it has walked some refunds: each is submitted, with a
reference, and everything else is as it was. -/
structure Walked (refundIds : List Uuid) (before after : World) : Prop where
  ids : after.rows.map Refund.id = before.rows.map Refund.id
  charges : after.charges = before.charges
  others : ∀ row ∈ before.rows, row.id ∉ refundIds → row ∈ after.rows
  converged : ∀ row ∈ before.rows, row.id ∈ refundIds →
    ∃ row' ∈ after.rows, Advances row row' ∧ row'.status = .submitted ∧ row'.gatewayRef ≠ none
  unwalked : ∀ refundId, refundId ∉ refundIds →
    after.gateway.lookupByKey refundId.toString = before.gateway.lookupByKey refundId.toString

/-- How many of the refunds the gateway does not hold. -/
def unheldCount (gateway : MockGateway) (refundIds : List Uuid) : Nat :=
  refundIds.countP fun refundId => (gateway.lookupByKey refundId.toString).isNone

/-- What recovery reports after walking some refunds, and what the gateway has issued. -/
structure Reported (refundIds : List Uuid) (before after : World)
    (report report' : RecoveryReport) : Prop where
  walked : report'.walked = report.walked + refundIds.length
  resubmitted : report'.resubmitted =
    report.resubmitted + unheldCount before.gateway refundIds
  alreadyAtGateway : report'.alreadyAtGateway + unheldCount before.gateway refundIds =
    report.alreadyAtGateway + refundIds.length
  issued : after.gateway.issuedCount =
    before.gateway.issuedCount + unheldCount before.gateway refundIds

section Row

variable {world after : World} {call : CallId} {row : Refund} {refundId : Uuid}

private theorem walked_of_map {change : RowChange} (member : row ∈ world.rows)
    (rows : after.rows = world.rows.map change.apply) (charges : after.charges = world.charges)
    (only : ∀ other ∈ world.rows, other.id ≠ row.id → change.apply other = other)
    (advances : Advances row (change.apply row))
    (submitted : (change.apply row).status = .submitted)
    (recorded : (change.apply row).gatewayRef ≠ none)
    (objects : ∀ refundId, refundId ≠ row.id →
      after.gateway.lookupByKey refundId.toString =
        world.gateway.lookupByKey refundId.toString) :
    Walked [row.id] world after where
  ids := by
    rw [rows, List.map_map]
    exact List.map_congr_left fun other _ => change.apply_id other
  charges := charges
  others := by
    intro other otherIn different
    rw [rows]
    apply List.mem_map.mpr
    exact ⟨other, otherIn, only other otherIn (by simpa using different)⟩
  converged := by
    intro other otherIn walked
    have isRow := world.database.refunds.eq_of_id otherIn member (List.mem_singleton.mp walked)
    subst isRow
    rw [rows]
    exact ⟨_, List.mem_map_of_mem member, advances, submitted, recorded⟩
  unwalked refundId different := objects refundId (by simpa using different)

private theorem change_of_ne {update : RefundUpdate} {now : Timestamp} {other : Refund}
    (aimed : ∀ row, update.Applies row → row.id = refundId) (different : other.id ≠ refundId) :
    (update.change now).apply other = other := by
  apply if_neg
  intro applies
  exact different (aimed other applies)

/-- A row whose object the gateway holds gets its reference recorded. -/
private theorem recoverRow_of_held (calm : Calm world) (member : row ∈ world.rows)
    (live : row.status = .requested ∨ row.status = .submitted) {gw : GatewayRefund}
    (held : world.gateway.lookupByKey row.id.toString = some gw) (report : RecoveryReport)
    (status : Status) :
    ∃ after, (recoverRow report row.id status).eval call world =
        some (.ok { report with
          walked := report.walked + 1
          alreadyAtGateway := report.alreadyAtGateway + 1 }, after) ∧
      Calm after ∧ Walked [row.id] world after ∧ after.gateway = world.gateway := by
  have rowOk := calm.ok.row row member
  have isRow : ∀ other ∈ world.rows, other.id = row.id → other = row :=
    fun other otherIn same => world.database.refunds.eq_of_id otherIn member same
  have past : Status.submitted.rank ≤ row.status.rank := by
    apply rowOk.past_of_held
    rw [rowOk.key]
    exact held
  have waiting : row.status = .submitted := by
    revert past
    rcases live with status | status <;> simp [status, Status.rank]
  have founded : Founded call world (.sql (.updateRefunds (.recoverRef row.id gw.id))) := by
    constructor
    · intro other otherIn applies
      cases isRow other otherIn applies.1
      exact ⟨⟨gw, held, rfl⟩, by simp [waiting]⟩
    · intro refundId isMark
      cases isMark
  rcases calm.updateRefunds founded with ⟨updated, executed, quiet, rows, gateway, charges⟩
  have known : row.id ∈ updated.rows.map Refund.id := by
    rw [rows, List.map_map]
    apply List.mem_map.mpr
    exact ⟨row, member, RowChange.apply_id _ row⟩
  rcases quiet.recordTransition call (some status) .submitted "job:recover" known with
    ⟨after, recorded, final, finalRows, finalGateway, finalCharges⟩
  refine ⟨after, ?_, final, ?_, finalGateway.trans gateway⟩
  · simp only [recoverRow, RefundEngine.recordTransition, Action.eval_lookupByKey, held,
      Action.eval_sql_ok executed, Action.eval_sql_ok recorded, Action.eval_pure]
  · have reached : Advances row
          (((RefundUpdate.recoverRef row.id gw.id).change world.now).apply row) ∧
        (((RefundUpdate.recoverRef row.id gw.id).change world.now).apply row).status =
          .submitted ∧
        (((RefundUpdate.recoverRef row.id gw.id).change world.now).apply row).gatewayRef ≠
          none := by
      simp only [RefundUpdate.change]
      split
      · rename_i applies
        exact ⟨(rowOk.assign applies (founded.1 row member applies) _).2, rfl, Option.some_ne_none _⟩
      · rename_i skipped
        refine ⟨.refl row, waiting, ?_⟩
        intro unrecorded
        exact skipped ⟨rfl, unrecorded⟩
    refine walked_of_map member (finalRows.trans rows) (finalCharges.trans charges) ?_ reached.1
      reached.2.1 reached.2.2 ?_
    · intro other _ different
      exact change_of_ne (fun _ applies => applies.1) different
    · intro other _
      rw [finalGateway, gateway]

/-- What resubmitting does to the rows: the guarded update, and later the reference. -/
private def resubmission (refundId : Uuid) (gatewayRef : String)
    (markedAt recordedAt : Timestamp) : RowChange :=
  ((RefundUpdate.markSubmitted refundId).change markedAt).andThen
    ((RefundUpdate.recordRef refundId gatewayRef).change recordedAt)

private theorem resubmission_self (live : row.status = .requested ∨ row.status = .submitted)
    (unrecorded : row.gatewayRef = none) (gatewayRef : String)
    (markedAt recordedAt : Timestamp) :
    (resubmission row.id gatewayRef markedAt recordedAt).apply row =
      { row with
        status := .submitted
        gatewayRef := some gatewayRef
        updatedAt := recordedAt } := by
  have marks : (RefundUpdate.markSubmitted row.id).Applies row := ⟨rfl, live⟩
  have records : (RefundUpdate.recordRef row.id gatewayRef).Applies
      (RefundUpdate.assign markedAt (.markSubmitted row.id) row) := ⟨rfl, unrecorded⟩
  simp only [resubmission, RowChange.andThen, RefundUpdate.change, if_pos marks]
  exact if_pos records

private theorem resubmission_of_ne {other : Refund} (different : other.id ≠ refundId)
    (gatewayRef : String) (markedAt recordedAt : Timestamp) :
    (resubmission refundId gatewayRef markedAt recordedAt).apply other = other := by
  have unmarked : ((RefundUpdate.markSubmitted refundId).change markedAt).apply other = other :=
    change_of_ne (fun _ applies => applies.1) different
  simp only [resubmission, RowChange.andThen, unmarked]
  exact change_of_ne (fun _ applies => applies.1) different

/-- A row the gateway does not hold is resubmitted under its own key. -/
private theorem recoverRow_of_unheld (calm : Calm world) (member : row ∈ world.rows)
    (live : row.status = .requested ∨ row.status = .submitted)
    (unheld : world.gateway.lookupByKey row.id.toString = none) (report : RecoveryReport)
    (status : Status) :
    ∃ after, (recoverRow report row.id status).eval call world =
        some (.ok { report with
          walked := report.walked + 1
          resubmitted := report.resubmitted + 1 }, after) ∧
      Calm after ∧ Walked [row.id] world after ∧
      after.gateway.issuedCount = world.gateway.issuedCount + 1 := by
  have rowOk := calm.ok.row row member
  have unrecorded : row.gatewayRef = none := by
    cases recorded : row.gatewayRef with
    | none => rfl
    | some gatewayRef =>
        rcases rowOk.ref gatewayRef recorded with ⟨refund, held, _⟩
        rw [rowOk.key, unheld] at held
        cases held
  have selected : world.execute call (.selectAmount row.id) =
      some (.ok (row.amountCents, row.currency), world) := by
    simp only [World.execute, World.selectAmount,
      RefundTable.find?_eq_some.mpr ⟨member, rfl⟩]
  -- The guarded update marks the row, since the gateway has not heard of it.
  have marks : Founded call world (.sql (.updateRefunds (.markSubmitted row.id))) := by
    constructor
    · intro _ _ _
      trivial
    · intro refundId isMark
      cases isMark
      refine ⟨row, member, rfl, ?_⟩
      rcases live with status | status <;> simp [status, Status.rank]
  rcases calm.updateRefunds marks with ⟨marked, marking, markedCalm, markedRows, markedGateway,
    markedCharges⟩
  let markedRow := RefundUpdate.assign world.now (.markSubmitted row.id) row
  have markedIn : markedRow ∈ marked.rows := by
    rw [markedRows]
    apply List.mem_map.mpr
    exact ⟨row, member, if_pos ⟨rfl, live⟩⟩
  have stillUnheld : marked.gateway.lookupByKey markedRow.id.toString = none := by
    rw [markedGateway]
    exact unheld
  rcases markedCalm.createRefund markedIn (le_refl _) stillUnheld with
    ⟨gw, gateway, issued, issuedCalm, held, objects, count⟩
  have records : Founded call { marked with gateway := gateway }
      (.sql (.updateRefunds (.recordRef row.id gw.id))) := by
    constructor
    · intro other _ _
      exact ⟨gw, held, rfl⟩
    · intro refundId isMark
      cases isMark
  rcases issuedCalm.updateRefunds records with
    ⟨recorded, recording, recordedCalm, recordedRows, recordedGateway, recordedCharges⟩
  have known : row.id ∈ recorded.rows.map Refund.id := by
    rw [recordedRows, List.map_map]
    apply List.mem_map.mpr
    exact ⟨markedRow, markedIn, RowChange.apply_id _ markedRow⟩
  rcases recordedCalm.recordTransition call (some status) .submitted "job:recover-resubmit" known
    with ⟨after, transition, final, finalRows, finalGateway, finalCharges⟩
  refine ⟨after, ?_, final, ?_, ?_⟩
  · have answered : marked.gateway.createRefund row.amountCents row.currency row.id.toString =
      (.accepted gw, gateway) := issued
    simp only [recoverRow, RefundEngine.recordTransition, Action.eval_lookupByKey, unheld,
      Action.eval_sql_ok selected, Action.eval_sql_ok marking, Action.eval_createRefund,
      answered, Action.eval_sql_ok recording, Action.eval_sql_ok transition, Action.eval_pure]
  · have rows : after.rows =
        world.rows.map (resubmission row.id gw.id world.now marked.now).apply := by
      rw [finalRows, recordedRows, show World.rows { marked with gateway := gateway } = _ from
        markedRows, List.map_map]
      rfl
    have charges := finalCharges.trans (recordedCharges.trans markedCharges)
    have reached := resubmission_self live unrecorded gw.id world.now marked.now
    apply walked_of_map member rows charges
    · intro other _ different
      exact resubmission_of_ne different ..
    · rw [reached]
      refine ⟨rfl, rfl, rfl, rfl, rfl, rfl, by simp [unrecorded], ?_⟩
      rcases live with status | status <;> simp [status, Status.rank]
    · rw [reached]
    · rw [reached]
      exact Option.some_ne_none _
    · intro other different
      rw [finalGateway, recordedGateway, ← markedGateway]
      apply objects
      intro same
      exact different (Uuid.toString_injective same)
  · rw [finalGateway, recordedGateway, count, markedGateway]

private theorem recoverRow_eval (call : CallId) (calm : Calm world) (member : row ∈ world.rows)
    (live : row.status = .requested ∨ row.status = .submitted) (report : RecoveryReport)
    (status : Status) :
    ∃ after report', (recoverRow report row.id status).eval call world =
        some (.ok report', after) ∧
      Calm after ∧ Walked [row.id] world after ∧ Reported [row.id] world after report report' := by
  cases held : world.gateway.lookupByKey row.id.toString with
  | some gw =>
      rcases recoverRow_of_held calm member live held report status with
        ⟨after, evaluates, afterCalm, walked, gateway⟩
      refine ⟨after, _, evaluates, afterCalm, walked, ?_⟩
      constructor <;> simp [unheldCount, held, gateway]
  | none =>
      rcases recoverRow_of_unheld calm member live held report status with
        ⟨after, evaluates, afterCalm, walked, issued⟩
      refine ⟨after, _, evaluates, afterCalm, walked, ?_⟩
      constructor <;> simp [unheldCount, held, issued]

end Row

/-! ## The loop -/

theorem Walked.refl (world : World) : Walked [] world world where
  ids := rfl
  charges := rfl
  others := fun _ member _ => member
  converged := nofun
  unwalked := fun _ _ => rfl

theorem Walked.cons {refundId : Uuid} {refundIds : List Uuid} {before middle after : World}
    (first : Walked [refundId] before middle) (rest : Walked refundIds middle after)
    (distinct : refundId ∉ refundIds) : Walked (refundId :: refundIds) before after where
  ids := rest.ids.trans first.ids
  charges := rest.charges.trans first.charges
  others := by
    intro row member unwalked
    simp only [List.mem_cons, not_or] at unwalked
    exact rest.others row (first.others row member (by simpa using unwalked.1)) unwalked.2
  converged := by
    intro row member walked
    rcases List.mem_cons.mp walked with own | later
    · rcases first.converged row member (List.mem_singleton.mpr own) with
        ⟨row', member', advances, status, recorded⟩
      refine ⟨row', rest.others row' member' ?_, advances, status, recorded⟩
      rw [advances.id, own]
      exact distinct
    · have different : row.id ∉ [refundId] := by
        rw [List.mem_singleton]
        intro same
        exact distinct (same ▸ later)
      exact rest.converged row (first.others row member different) later
  unwalked := by
    intro other unwalked
    simp only [List.mem_cons, not_or] at unwalked
    rw [rest.unwalked other unwalked.2, first.unwalked other (by simpa using unwalked.1)]

theorem Reported.cons {refundId : Uuid} {refundIds : List Uuid} {before middle after : World}
    {report report₁ report' : RecoveryReport} (walked : Walked [refundId] before middle)
    (first : Reported [refundId] before middle report report₁)
    (rest : Reported refundIds middle after report₁ report') (distinct : refundId ∉ refundIds) :
    Reported (refundId :: refundIds) before after report report' := by
  have unheld : unheldCount middle.gateway refundIds =
      unheldCount before.gateway refundIds := by
    apply List.countP_congr
    intro other otherIn
    rw [walked.unwalked other]
    rw [List.mem_singleton]
    intro own
    exact distinct (own ▸ otherIn)
  have split : unheldCount before.gateway (refundId :: refundIds) =
      unheldCount before.gateway [refundId] + unheldCount before.gateway refundIds := by
    rw [unheldCount, ← List.singleton_append, List.countP_append]
    rfl
  have length : (refundId :: refundIds).length = refundIds.length + 1 := List.length_cons
  rcases first with ⟨walkedCount, resubmitted, already, issued⟩
  rcases rest with ⟨walkedCount', resubmitted', already', issued'⟩
  rw [unheld] at resubmitted' already' issued'
  rw [List.length_singleton] at walkedCount already
  constructor
  · omega
  · omega
  · omega
  · omega

/-- The loop converges every row of its snapshot, by induction on the rows still to be
walked. -/
theorem recoverRows_eval {world : World} (call : CallId) (calm : Calm world)
    {stuck : List (Uuid × Status)} (distinct : (stuck.map Prod.fst).Nodup)
    (live : ∀ entry ∈ stuck, ∃ row ∈ world.rows, row.id = entry.1 ∧
      (row.status = .requested ∨ row.status = .submitted))
    (report : RecoveryReport) :
    ∃ after report', (recoverRows report stuck).eval call world = some (.ok report', after) ∧
      Calm after ∧ Walked (stuck.map Prod.fst) world after ∧
      Reported (stuck.map Prod.fst) world after report report' := by
  induction stuck generalizing world report with
  | nil => exact ⟨world, report, rfl, calm, .refl world, rfl, rfl, rfl, rfl⟩
  | cons entry stuck ih =>
      rcases entry with ⟨refundId, status⟩
      rcases List.nodup_cons.mp distinct with ⟨notLater, laterDistinct⟩
      rcases live (refundId, status) (List.mem_cons_self ..) with ⟨row, member, rfl, rowLive⟩
      rcases recoverRow_eval call calm member rowLive report status with
        ⟨middle, report₁, evaluates, middleCalm, walked, reported⟩
      have stillLive : ∀ entry ∈ stuck, ∃ row ∈ middle.rows, row.id = entry.1 ∧
          (row.status = .requested ∨ row.status = .submitted) := by
        intro entry entryIn
        rcases live entry (List.mem_cons_of_mem _ entryIn) with ⟨other, otherIn, same, otherLive⟩
        refine ⟨other, walked.others other otherIn ?_, same, otherLive⟩
        rw [List.mem_singleton, same]
        intro own
        exact notLater (List.mem_map.mpr ⟨entry, entryIn, own⟩)
      rcases ih middleCalm laterDistinct stillLive report₁ with
        ⟨after, report', evaluates', afterCalm, walked', reported'⟩
      refine ⟨after, report', ?_, afterCalm, walked.cons walked' notLater,
        reported.cons walked reported' notLater⟩
      rw [recoverRows, Action.eval_bind_ok evaluates]
      exact evaluates'

/-- A row that recovery has to converge. -/
def Refund.Stuck (row : Refund) : Prop := row.status = .requested ∨ row.status = .submitted

instance (row : Refund) : Decidable row.Stuck := inferInstanceAs (Decidable (_ ∨ _))

/-- What a recovery that ran alone has achieved. -/
structure Recovered (before after : World) (report : RecoveryReport) : Prop where
  ids : after.rows.map Refund.id = before.rows.map Refund.id
  charges : after.charges = before.charges
  others : ∀ row ∈ before.rows, ¬row.Stuck → row ∈ after.rows
  converged : ∀ row ∈ before.rows, row.Stuck → ∃ row' ∈ after.rows, row'.id = row.id ∧
    row'.status = .submitted ∧ ∃ refund,
      after.gateway.lookupByKey row.id.toString = some refund ∧
      row'.gatewayRef = some refund.id ∧ refund.amount = row.amountCents ∧
      refund.currency = row.currency
  walked : report.walked = before.rows.countP fun row => row.Stuck
  split : report.walked = report.alreadyAtGateway + report.resubmitted
  resubmitted : report.resubmitted = before.rows.countP fun row =>
    row.Stuck ∧ before.gateway.lookupByKey row.id.toString = none
  issued : after.gateway.issuedCount = before.gateway.issuedCount + report.resubmitted

theorem stuckRows_perm (rows : List Refund) :
    ((stuckRows rows).map Prod.fst).Perm ((rows.filter fun row => row.Stuck).map Refund.id) := by
  have sorted := (rows.filter fun row =>
    row.status = .submitted ∨ row.status = .requested).perm_insertionSort
      fun left right => left.createdAt ≤ right.createdAt
  have same : (rows.filter fun row => row.status = .submitted ∨ row.status = .requested) =
      rows.filter fun row => row.Stuck := by
    apply List.filter_congr
    intro row _
    apply decide_eq_decide.mpr
    exact or_comm
  rw [stuckRows, List.map_map, ← same]
  exact sorted.map Refund.id

theorem length_stuckRows (rows : List Refund) :
    (stuckRows rows).length = rows.countP fun row => row.Stuck := by
  rw [← List.length_map Prod.fst, (stuckRows_perm rows).length_eq, List.length_map,
    List.countP_eq_length_filter]

theorem mem_map_stuckRows {rows : List Refund} {refundId : Uuid} :
    refundId ∈ (stuckRows rows).map Prod.fst ↔ ∃ row ∈ rows, row.id = refundId ∧ row.Stuck := by
  rw [(stuckRows_perm rows).mem_iff]
  simp only [List.mem_map, List.mem_filter, decide_eq_true_eq]
  constructor
  · intro listed
    rcases listed with ⟨row, ⟨member, stuck⟩, same⟩
    exact ⟨row, member, same, stuck⟩
  · intro listed
    rcases listed with ⟨row, member, same, stuck⟩
    exact ⟨row, ⟨member, stuck⟩, same⟩

theorem mem_stuckRows_id {table : RefundTable} {row : Refund} (member : row ∈ table.rows) :
    row.id ∈ (stuckRows table.rows).map Prod.fst ↔ row.Stuck := by
  rw [mem_map_stuckRows]
  constructor
  · intro listed
    rcases listed with ⟨other, otherIn, same, stuck⟩
    cases table.eq_of_id otherIn member same
    exact stuck
  · intro stuck
    exact ⟨row, member, rfl, stuck⟩

theorem unheldCount_stuckRows (gateway : MockGateway) (rows : List Refund) :
    unheldCount gateway ((stuckRows rows).map Prod.fst) =
      rows.countP fun row => row.Stuck ∧ gateway.lookupByKey row.id.toString = none := by
  rw [unheldCount, (stuckRows_perm rows).countP_eq, List.countP_map, List.countP_filter]
  apply List.countP_congr
  intro row _
  simp [and_comm]

/-- Recovery of a calm world. -/
theorem recoverSubmitted_eval {world : World} (calm : Calm world) (call : CallId) :
    ∃ after report, recoverSubmitted.eval call world = some (.ok report, after) ∧
      Calm after ∧ Recovered world after report := by
  have live : ∀ entry ∈ stuckRows world.rows, ∃ row ∈ world.rows, row.id = entry.1 ∧
      (row.status = .requested ∨ row.status = .submitted) := by
    intro entry listed
    rcases mem_stuckRows.mp listed with ⟨row, member, rfl, stuck⟩
    exact ⟨row, member, rfl, stuck.symm⟩
  have distinct : ((stuckRows world.rows).map Prod.fst).Nodup :=
    stuckRows_nodup world.database.refunds
  rcases recoverRows_eval call calm distinct live {} with
    ⟨after, report, evaluates, final, walked, reported⟩
  refine ⟨after, report, ?_, final, ?_⟩
  · rw [recoverSubmitted, Action.eval_sql_ok rfl]
    exact evaluates
  have length : ((stuckRows world.rows).map Prod.fst).length =
      world.rows.countP fun row => row.Stuck := by
    rw [List.length_map, length_stuckRows]
  have unheld := unheldCount_stuckRows world.gateway world.rows
  rcases reported with ⟨walkedCount, resubmitted, already, issued⟩
  simp only [Nat.zero_add] at walkedCount resubmitted already
  constructor
  · exact walked.ids
  · exact walked.charges
  · intro row member settled
    apply walked.others row member
    intro listed
    exact settled ((mem_stuckRows_id member).mp listed)
  · intro row member stuck
    rcases walked.converged row member ((mem_stuckRows_id member).mpr stuck) with
      ⟨row', member', advances, status, recorded⟩
    rcases Option.ne_none_iff_exists'.mp recorded with ⟨gatewayRef, recorded⟩
    have rowOk := final.ok.row row' member'
    rcases rowOk.ref gatewayRef recorded with ⟨refund, held, name⟩
    rcases rowOk.object refund held with ⟨amount, currency⟩
    rw [rowOk.key, advances.id] at held
    refine ⟨row', member', advances.id, status, refund, held, ?_, ?_, ?_⟩
    · rw [recorded, name]
    · exact amount.trans advances.amountCents
    · exact currency.trans advances.currency
  · rw [walkedCount, length]
  · omega
  · rw [resubmitted, unheld]
  · omega

section Runs

variable {hmac : Hmac} {trace : List EngineEvent} {state : EngineState}

theorem EngineRun.calm (run : EngineRun hmac trace state) (quiet : state.Quiet)
    (responds : state.world.gateway.config.dropResponse = false)
    (answers : state.world.gateway.config.timeOut = false) : Calm state.world where
  ok := run.worldOk
  unlocked := run.unlocked quiet
  responds := responds
  answers := answers

/-- Recovery that evaluates can run alone to its end, and does there what it evaluates to. -/
theorem recoverSubmitted_alone {call : CallId} (idle : state.calls call = .idle)
    {after : World} {report : RecoveryReport}
    (evaluates : recoverSubmitted.eval call state.world = some (.ok report, after)) :
    (∃ more final result,
      (engine hmac).Run (Machine.Alone call .recoverSubmitted) state more final ∧
      final.calls call = .finished .recoverSubmitted result) ∧
    ∀ more final result,
      (engine hmac).Run (Machine.Alone call .recoverSubmitted) state more final →
      final.calls call = .finished .recoverSubmitted result →
      result = .ok (.recovered report) ∧ final.world = after.endTransaction call := by
  have program : ((engine hmac).program .recoverSubmitted).eval ((engine hmac).execute call)
      state.world = some (.ok (.recovered report), after) := Action.eval_map_ok evaluates
  constructor
  · rcases Machine.exists_alone_run idle program with ⟨more, final, alone, finished⟩
    exact ⟨more, final, _, alone, finished⟩
  · intro more final result alone finished
    rcases alone.eval_of_alone idle finished with ⟨reached, evaluates', closed⟩
    rw [program, Option.some.injEq, Prod.mk.injEq] at evaluates'
    rcases evaluates' with ⟨rfl, rfl⟩
    exact ⟨rfl, closed⟩

/-- Recovery converges.  From a state of any run with no call in progress and a healthy
gateway, recovery run alone can reach its end, and whenever it does it has succeeded:
every stuck row is submitted with the reference of its own object, all else is as it was,
and the report counts what was done. -/
theorem recovery_converges (run : EngineRun hmac trace state) (quiet : state.Quiet)
    (responds : state.world.gateway.config.dropResponse = false)
    (answers : state.world.gateway.config.timeOut = false) {call : CallId}
    (idle : state.calls call = .idle) :
    (∃ more final result,
      (engine hmac).Run (Machine.Alone call .recoverSubmitted) state more final ∧
      final.calls call = .finished .recoverSubmitted result) ∧
    ∀ more final result,
      (engine hmac).Run (Machine.Alone call .recoverSubmitted) state more final →
      final.calls call = .finished .recoverSubmitted result →
      ∃ report, result = .ok (.recovered report) ∧
        Recovered state.world final.world report := by
  rcases recoverSubmitted_eval (run.calm quiet responds answers) call with
    ⟨after, report, evaluates, _, recovered⟩
  rcases recoverSubmitted_alone idle evaluates with ⟨runs, ends⟩
  constructor
  · exact runs
  · intro more final result alone finished
    rcases ends more final result alone finished with ⟨succeeded, closed⟩
    refine ⟨report, succeeded, ?_⟩
    rw [closed]
    exact ⟨recovered.ids, recovered.charges, recovered.others, recovered.converged,
      recovered.walked, recovered.split, recovered.resubmitted, recovered.issued⟩

end Runs

/-- The sample just before its recovery: the response to one refund was dropped and the
other was never submitted. -/
def sampleCrash : List EngineEvent × EngineState :=
  (samplePrefix 29).get (by decide +kernel)

theorem sampleCrash_run : EngineRun sampleHmac sampleCrash.1 sampleCrash.2 :=
  .of_play (Option.some_get _).symm

/-- Recovery of the sample records one reference and resubmits the other refund. -/
theorem recovery_converges_sample : ∃ more final report,
    (engine sampleHmac).Run (Machine.Alone 4 .recoverSubmitted) sampleCrash.2 more final ∧
    Recovered sampleCrash.2.world final.world report ∧ report.walked = 2 ∧
    report.resubmitted = 1 := by
  have quiet : sampleCrash.2.Quiet := sampleCrash_run.quiet_of_ended (by decide +kernel)
  have idle : sampleCrash.2.calls 4 = .idle :=
    sampleCrash_run.idle_of_absent (by decide +kernel)
  have converges := recovery_converges sampleCrash_run quiet (by decide +kernel)
    (by decide +kernel) idle
  rcases converges.1 with ⟨more, final, result, alone, finished⟩
  rcases converges.2 more final result alone finished with ⟨report, _, recovered⟩
  refine ⟨more, final, report, alone, recovered, ?_, ?_⟩
  · rw [recovered.walked]
    decide +kernel
  · rw [recovered.resubmitted]
    decide +kernel

end RefundEngine
