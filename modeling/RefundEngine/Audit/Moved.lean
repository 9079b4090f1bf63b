import RefundEngine.Audit.Origin
import RefundEngine.Issued

/-!
# The audit rows of webhooks

The statement that applies an event stages an audit row for each refund it moves, and no other
writes rows that settle or fail a refund.  Such a row leads on from the newest audit row the
statement sees; where that one names the status of the refund, the row tells the truth.
-/

namespace RefundEngine

open Interleaving (CallId)

/-- The audit row tells what the update did to the refund: from the status it had just before to
the one it has got. -/
structure Tells (update : RefundUpdate) (reason : Option String) (row : Refund)
    (audit : Transition) : Prop where
  refundId : audit.refundId = row.id
  fromStatus : audit.fromStatus = some row.status
  toStatus : ∀ now, audit.toStatus = (update.assign now row).status
  actor : audit.actor = "webhook"
  reason : audit.reason = reason

theorem RefundUpdate.status_assign (update : RefundUpdate) (first second : Timestamp)
    (row : Refund) : (update.assign first row).status = (update.assign second row).status := by
  cases update <;> rfl

section Statements

variable {world after : World} {call : CallId} {update : RefundUpdate} {reason : Option String}

/-- The statement stages one audit row for each refund it moves, in their order. -/
theorem World.SeesTruth.staged (truth : world.SeesTruth call update)
    (executed : world.execute call (.applyMoved update reason) = some (.ok (), after)) :
    ∃ audits, after.staged call = world.staged call ++ audits ∧
      List.Forall₂ (Tells update reason) (world.rows.filter fun row => update.Applies row)
        audits := by
  simp only [World.execute, World.applyMoved, World.inTransaction] at executed
  split at executed
  · rename_i transaction opened
    split at executed
    · cases executed
    · cases executed
      rw [World.staged_of_opened opened]
      refine ⟨_, World.staged_of_opened (World.transaction_setTransaction_self world call _),
        List.forall₂_iff_get.mpr ⟨List.length_mapIdx.symm, ?_⟩⟩
      intro index inside inside'
      have listed := List.mem_filter.mp
        (List.getElem_mem (l := world.rows.filter fun row => update.Applies row) inside)
      simp only [List.get_eq_getElem, List.getElem_mapIdx]
      exact
        { refundId := rfl
          fromStatus := truth _ listed.1 (of_decide_eq_true listed.2)
          toStatus := fun now => update.status_assign ..
          actor := rfl
          reason := rfl }
  · cases executed

theorem World.SeesTruth.tells {audit : Transition} (truth : world.SeesTruth call update)
    (stages : Stages world call (.applyMoved update reason) audit) :
    ∃ row ∈ world.rows, update.Applies row ∧ Tells update reason row audit := by
  cases stages with
  | @moves _ _ row _ _ member applies =>
      exact ⟨row, member, applies, rfl, truth row member applies,
        fun now => update.status_assign .., rfl, rfl⟩

end Statements

section Run

variable {hmac : Hmac} {trace : List EngineEvent} {state : EngineState} {audit : Transition}

/-- The audit row was staged by the statement that applies an event. -/
def StagedIn (trace : List EngineEvent) (audit : Transition) : Prop :=
  ∃ call operation update reason before,
    .answered call operation (.sql (.applyMoved update reason)) (.ok ()) before ∈ trace ∧
      Stages before call (.applyMoved update reason) audit

theorem StagedIn.later {newer : List EngineEvent} (staged : StagedIn trace audit) :
    StagedIn (newer ++ trace) audit := by
  rcases staged with ⟨call, operation, update, reason, before, member, stages⟩
  exact ⟨call, operation, update, reason, before, List.mem_append_right _ member, stages⟩

/-- A staged row that settles or fails a refund is of a statement that applies an event. -/
theorem EngineRun.stagedIn_of_staged (run : EngineRun hmac trace state) :
    ∀ call, ∀ audit ∈ state.world.staged call,
      audit.toStatus = .settled ∨ audit.toStatus = .failed → StagedIn trace audit := by
  apply run.preserves fun trace state => ∀ call, ∀ audit ∈ state.world.staged call,
    audit.toStatus = .settled ∨ audit.toStatus = .failed → StagedIn trace audit
  · intro charges config now call audit listed
    cases listed
  · intro trace state event next run ih step permitted call audit listed decides
    have kept : audit ∈ state.world.staged call → StagedIn (event :: trace) audit := by
      intro before
      rw [← List.singleton_append]
      exact (ih call audit before decides).later
    cases step with
    | start | fail => exact kept listed
    | finish | die => exact kept (mem_staged_endTransaction state.world.database listed)
    | @act action world acted =>
        apply kept
        have drifts := Drifts.of_act permitted acted
        simpa only [World.staged, drifts.transaction] using listed
    | @answer caller operation command next' answer world running executed =>
        cases command with
        | createRefund | lookupByKey =>
            cases executed
            exact kept listed
        | sql statement =>
            rcases staged_of_execute executed listed with before | ⟨rfl, stages⟩
            · exact kept before
            · cases stages with
              | @opens refundId toStatus actor reason =>
                  exfalso
                  rcases (run.mayIssue running).1 with ⟨_, amountCents, _, _, rfl⟩
                  unfold initialStatus at decides
                  split at decides
                  all_goals simp at decides
              | @moves update reason row index writtenAt member applies =>
                  cases answer with
                  | ok value =>
                      exact ⟨call, operation, update, reason, state.world,
                        List.mem_cons_self .., .moves member applies⟩
                  | error error =>
                      have executed : state.world.execute call (.applyMoved update reason) =
                          some (.error error, world) := executed
                      simp only [World.execute, World.applyMoved, World.inTransaction] at executed
                      repeat' split at executed
                      all_goals cases executed
                      exact kept listed

theorem EngineRun.stagedIn_of_mem (run : EngineRun hmac trace state)
    (member : audit ∈ state.world.database.transitions)
    (decides : audit.toStatus = .settled ∨ audit.toStatus = .failed) : StagedIn trace audit := by
  rcases run.appended_of_mem member with ⟨event, inside, listed⟩
  cases event with
  | answered call operation command answer before =>
      rcases List.append_of_mem inside with ⟨newer, earlier, rfl⟩
      rcases run with ⟨charges, config, now, run⟩
      rcases run.step_of_split rfl with ⟨reached, after, run, step, _⟩
      have reaches : EngineRun hmac earlier reached := ⟨charges, config, now, run⟩
      cases step with
      | answer running executed =>
          cases command with
          | createRefund | lookupByKey => cases listed
          | sql statement =>
              cases statement with
              | recordTransition refundId fromStatus toStatus actor =>
                  cases answer with
                  | error => cases listed
                  | ok value =>
                      cases List.mem_singleton.mp listed
                      have notes : operation.Notes refundId fromStatus toStatus actor :=
                        (reaches.mayIssue running).1
                      exact (decides.elim notes.between.2.1 notes.between.2.2).elim
              | commit =>
                  cases answer with
                  | error => cases listed
                  | ok value =>
                      have staged := reaches.stagedIn_of_staged call audit listed decides
                      rw [← List.singleton_append, ← List.append_assoc]
                      exact staged.later
              | _ => cases listed
  | _ => cases listed

/-- Every audit row of a webhook tells the truth. -/
def WebhooksTell (trace : List EngineEvent) (world : World) : Prop :=
  (∀ call operation update reason before,
    .answered call operation (.sql (.applyMoved update reason)) (.ok ()) before ∈ trace →
    ∃ after audits, before.execute call (.applyMoved update reason) = some (.ok (), after) ∧
      after.staged call = before.staged call ++ audits ∧
      List.Forall₂ (Tells update reason) (before.rows.filter fun row => update.Applies row)
        audits) ∧
  ∀ audit ∈ world.database.transitions,
    audit.toStatus = .settled ∨ audit.toStatus = .failed →
    ∃ call operation update reason before,
      .answered call operation (.sql (.applyMoved update reason)) (.ok ()) before ∈ trace ∧
      ∃ row ∈ before.rows, update.Applies row ∧ Tells update reason row audit

/-- Webhooks tell the truth if every statement that applies an event sees it. -/
theorem EngineRun.webhooksTell (run : EngineRun hmac trace state)
    (truth : ∀ call operation update reason before,
      .answered call operation (.sql (.applyMoved update reason)) (.ok ()) before ∈ trace →
      before.SeesTruth call update) : WebhooksTell trace state.world := by
  constructor
  · intro call operation update reason before member
    rcases List.append_of_mem member with ⟨newer, earlier, split⟩
    rcases run.reached_of_split split with ⟨reached, after, _, rfl, executed⟩
    rcases (truth _ _ _ _ _ member).staged executed with ⟨audits, staged, tells⟩
    exact ⟨after, audits, executed, staged, tells⟩
  · intro audit member decides
    rcases run.stagedIn_of_mem member decides with
      ⟨call, operation, update, reason, before, inside, stages⟩
    exact ⟨call, operation, update, reason, before, inside, (truth _ _ _ _ _ inside).tells stages⟩

end Run

end RefundEngine
