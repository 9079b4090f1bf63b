import RefundEngine.Recovery

/-!
# Recovery run twice

Once recovery has converged its rows a second one changes no row and asks nothing of the
gateway.  It still appends an audit row for every row it walks, since that statement is not
guarded as the update before it is.
-/

namespace RefundEngine

open Interleaving (CallId Machine)

/-- What walking converged rows does: it appends as many audit rows and nothing else. -/
structure OnlyAudits (count : Nat) (before after : World) : Prop where
  rows : after.rows = before.rows
  gateway : after.gateway = before.gateway
  audits : ∃ audits, after.database.transitions = before.database.transitions ++ audits ∧
    audits.length = count

theorem OnlyAudits.refl (world : World) : OnlyAudits 0 world world where
  rows := rfl
  gateway := rfl
  audits := ⟨[], (List.append_nil _).symm, rfl⟩

theorem OnlyAudits.trans {count more : Nat} {before middle after : World}
    (first : OnlyAudits count before middle) (rest : OnlyAudits more middle after) :
    OnlyAudits (count + more) before after where
  rows := rest.rows.trans first.rows
  gateway := rest.gateway.trans first.gateway
  audits := by
    rcases first.audits with ⟨audits, appended, size⟩
    rcases rest.audits with ⟨audits', appended', size'⟩
    refine ⟨audits ++ audits', ?_, ?_⟩
    · rw [appended', appended, List.append_assoc]
    · rw [List.length_append, size, size']

/-- A row that recovery has nothing to do for. -/
def Refund.Converged (row : Refund) : Prop := row.status = .submitted ∧ row.gatewayRef ≠ none

section Row

variable {world : World} {call : CallId} {row : Refund}

theorem RefundTable.revise_of_unchanged {table : RefundTable} {change : RowChange}
    (unchanged : table.rows.map change.apply = table.rows) : table.revise change = .ok table := by
  have unique : ((table.rows.map change.apply).filterMap Refund.gatewayRef).Nodup := by
    rw [unchanged]
    exact table.refs_nodup
  rw [RefundTable.revise, dif_pos unique]
  simp only [unchanged]

theorem execute_updateRefunds_of_idle (call : CallId) {update : RefundUpdate}
    (idle : ∀ row ∈ world.rows, ¬update.Applies row) :
    world.execute call (.updateRefunds update) = some (.ok (), world) := by
  have free : ¬world.MustWait none update := by
    intro waits
    rcases waits with ⟨row, member, applies, _⟩
    exact idle row member applies
  have unchanged : world.rows.map (update.change world.now).apply = world.rows :=
    (List.map_congr_left fun row member => if_neg (idle row member)).trans (List.map_id _)
  have revised : world.database.refunds.revise (update.change world.now) =
      .ok world.database.refunds := RefundTable.revise_of_unchanged unchanged
  simp only [World.execute, World.updateRefunds, if_neg free, revised]
  rfl

/-- Walking a converged row appends an audit row. -/
theorem recoverRow_of_converged (call : CallId) (calm : Calm world) (member : row ∈ world.rows)
    (converged : row.Converged) (report : RecoveryReport) (status : Status) :
    ∃ after, (recoverRow report row.id status).eval call world =
        some (.ok { report with
          walked := report.walked + 1
          alreadyAtGateway := report.alreadyAtGateway + 1 }, after) ∧
      Calm after ∧ OnlyAudits 1 world after := by
  have rowOk := calm.ok.row row member
  rcases Option.ne_none_iff_exists'.mp converged.2 with ⟨gatewayRef, recorded⟩
  rcases rowOk.ref gatewayRef recorded with ⟨gw, held, _⟩
  rw [rowOk.key] at held
  -- The row has its reference, so the update finds nothing to do.
  have idle : ∀ other ∈ world.rows, ¬(RefundUpdate.recoverRef row.id gw.id).Applies other := by
    intro other otherIn applies
    cases world.database.refunds.eq_of_id otherIn member applies.1
    exact converged.2 applies.2
  have updated := execute_updateRefunds_of_idle call idle
  have known : row.id ∈ world.rows.map Refund.id := List.mem_map_of_mem member
  rcases calm.recordTransition call (some status) .submitted "job:recover" known with
    ⟨after, recorded, final, rows, gateway, _⟩
  refine ⟨after, ?_, final, rows, gateway, ?_⟩
  · simp only [recoverRow, RefundEngine.recordTransition, Action.eval_lookupByKey, held,
      Action.eval_sql_ok updated, Action.eval_sql_ok recorded, Action.eval_pure]
  · simp only [World.execute, World.recordTransition, if_pos known, Option.some.injEq,
      Prod.mk.injEq] at recorded
    rw [← recorded.2]
    exact ⟨_, rfl, rfl⟩

/-- The loop over converged rows, by induction on the rows still to be walked. -/
theorem recoverRows_of_converged (call : CallId) (calm : Calm world)
    {stuck : List (Uuid × Status)}
    (converged : ∀ entry ∈ stuck, ∃ row ∈ world.rows, row.id = entry.1 ∧ row.Converged)
    (report : RecoveryReport) :
    ∃ after report', (recoverRows report stuck).eval call world = some (.ok report', after) ∧
      Calm after ∧ OnlyAudits stuck.length world after := by
  induction stuck generalizing world report with
  | nil => exact ⟨world, report, rfl, calm, .refl world⟩
  | cons entry stuck ih =>
      rcases entry with ⟨refundId, status⟩
      rcases converged (refundId, status) List.mem_cons_self with ⟨row, member, rfl, rowConverged⟩
      rcases recoverRow_of_converged call calm member rowConverged report status with
        ⟨middle, evaluates, middleCalm, first⟩
      have still : ∀ entry ∈ stuck, ∃ row ∈ middle.rows, row.id = entry.1 ∧ row.Converged := by
        intro entry entryIn
        rw [first.rows]
        exact converged entry (List.mem_cons_of_mem _ entryIn)
      rcases ih middleCalm still _ with ⟨after, report', evaluates', final, rest⟩
      refine ⟨after, report', ?_, final, ?_⟩
      · rw [recoverRows, Action.eval_bind_ok evaluates]
        exact evaluates'
      · rw [List.length_cons, Nat.add_comm]
        exact first.trans rest

/-- Recovery of a world in which every stuck row has converged. -/
theorem recoverSubmitted_of_converged (call : CallId) (calm : Calm world)
    (converged : ∀ row ∈ world.rows, row.Stuck → row.Converged) :
    ∃ after report, recoverSubmitted.eval call world = some (.ok report, after) ∧
      OnlyAudits (world.rows.countP fun row => row.Stuck) world after := by
  have listed : ∀ entry ∈ stuckRows world.rows,
      ∃ row ∈ world.rows, row.id = entry.1 ∧ row.Converged := by
    intro entry entryIn
    rcases mem_stuckRows.mp entryIn with ⟨row, member, rfl, stuck⟩
    exact ⟨row, member, rfl, converged row member stuck.symm⟩
  rcases recoverRows_of_converged call calm listed {} with ⟨after, report, evaluates, _, audits⟩
  rw [length_stuckRows] at audits
  refine ⟨after, report, ?_, audits⟩
  rw [recoverSubmitted, Action.eval_sql_ok rfl]
  exact evaluates

end Row

section Recovered

variable {before after : World} {report : RecoveryReport}

theorem Recovered.stuck_iff (recovered : Recovered before after report) {row row' : Refund}
    (member : row ∈ before.rows) (member' : row' ∈ after.rows) (same : row'.id = row.id) :
    row'.Stuck ↔ row.Stuck := by
  by_cases stuck : row.Stuck
  · rcases recovered.converged row member stuck with ⟨other, otherIn, otherId, submitted, _⟩
    cases after.database.refunds.eq_of_id member' otherIn (same.trans otherId.symm)
    exact iff_of_true (.inr submitted) stuck
  · have kept := recovered.others row member stuck
    cases after.database.refunds.eq_of_id member' kept same
    exact Iff.rfl

theorem Recovered.exists_earlier (recovered : Recovered before after report) {row' : Refund}
    (member' : row' ∈ after.rows) : ∃ row ∈ before.rows, row'.id = row.id := by
  have listed : row'.id ∈ before.rows.map Refund.id := by
    rw [← recovered.ids]
    exact List.mem_map_of_mem member'
  rcases List.mem_map.mp listed with ⟨row, member, same⟩
  exact ⟨row, member, same.symm⟩

theorem Recovered.converged_of_stuck (recovered : Recovered before after report) :
    ∀ row ∈ after.rows, row.Stuck → row.Converged := by
  intro row' member' stuck
  rcases recovered.exists_earlier member' with ⟨row, member, same⟩
  have earlier := (recovered.stuck_iff member member' same).mp stuck
  rcases recovered.converged row member earlier with
    ⟨other, otherIn, otherId, submitted, refund, _, recorded, _⟩
  cases after.database.refunds.eq_of_id member' otherIn (same.trans otherId.symm)
  exact ⟨submitted, by rw [recorded]; exact Option.some_ne_none _⟩

/-- Recovery leaves as many rows stuck as it found: it waits for their webhooks. -/
theorem Recovered.countP_stuck (recovered : Recovered before after report) :
    (after.rows.countP fun row => row.Stuck) = before.rows.countP fun row => row.Stuck := by
  have same : ((stuckRows after.rows).map Prod.fst).Perm
      ((stuckRows before.rows).map Prod.fst) := by
    apply (List.perm_ext_iff_of_nodup (stuckRows_nodup after.database.refunds)
      (stuckRows_nodup before.database.refunds)).mpr
    intro refundId
    rw [mem_map_stuckRows, mem_map_stuckRows]
    constructor
    · intro listed
      rcases listed with ⟨row', member', rfl, stuck⟩
      rcases recovered.exists_earlier member' with ⟨row, member, sameId⟩
      exact ⟨row, member, sameId.symm, (recovered.stuck_iff member member' sameId).mp stuck⟩
    · intro listed
      rcases listed with ⟨row, member, rfl, stuck⟩
      rcases recovered.converged row member stuck with ⟨row', member', sameId, submitted, _⟩
      exact ⟨row', member', sameId, .inr submitted⟩
  rw [← length_stuckRows, ← length_stuckRows, ← List.length_map Prod.fst, same.length_eq,
    List.length_map]

end Recovered

/-! ## Two recoveries in a row -/

/-- Recovery run alone, from its start to its end. -/
def RecoversAlone (hmac : Hmac) (call : CallId) (state final : EngineState) : Prop :=
  state.calls call = .idle ∧ ∃ more result,
    (engine hmac).Run (Machine.Alone call .recoverSubmitted) state more final ∧
    final.calls call = .finished .recoverSubmitted result

/-- Two rows agree, the time of their last update aside. -/
def Refund.SameApartFromUpdatedAt (row row' : Refund) : Prop :=
  row' = { row with updatedAt := row'.updatedAt }

/-- What was done twice has left the tables and the gateway's books as doing it once. -/
structure SameAsOnce (once twice : World) : Prop where
  refunds : List.Forall₂ Refund.SameApartFromUpdatedAt once.rows twice.rows
  store : twice.gateway.store = once.gateway.store
  issuedCount : twice.gateway.issuedCount = once.gateway.issuedCount
  transitions : twice.database.transitions = once.database.transitions

/-- What only audits has left everything as it was exactly when it had nothing to audit. -/
theorem OnlyAudits.sameAsOnce_iff {count : Nat} {once twice : World}
    (audits : OnlyAudits count once twice) : SameAsOnce once twice ↔ count = 0 := by
  rcases audits.audits with ⟨appended, transitions, size⟩
  constructor
  · intro same
    rw [same.transitions] at transitions
    rw [← size, List.self_eq_append_right.mp transitions]
    rfl
  · intro nothing
    have empty : appended = [] := List.length_eq_zero_iff.mp (size.trans nothing)
    rw [empty, List.append_nil] at transitions
    constructor
    · rw [audits.rows]
      exact List.forall₂_same.mpr fun _ _ => rfl
    · rw [audits.gateway]
    · rw [audits.gateway]
    · exact transitions

section Runs

variable {hmac : Hmac} {trace : List EngineEvent} {state once twice : EngineState}
variable {first second call : CallId}

theorem exists_recoversAlone (hmac : Hmac) {after : World} {report : RecoveryReport}
    (idle : state.calls call = .idle)
    (evaluates : recoverSubmitted.eval call state.world = some (.ok report, after)) :
    ∃ final, RecoversAlone hmac call state final := by
  rcases (recoverSubmitted_alone idle evaluates).1 with ⟨more, final, result, alone, finished⟩
  exact ⟨final, idle, more, result, alone, finished⟩

theorem RecoversAlone.world_eq {after : World} {report : RecoveryReport}
    (alone : RecoversAlone hmac call state once)
    (evaluates : recoverSubmitted.eval call state.world = some (.ok report, after)) :
    once.world = after.endTransaction call := by
  rcases alone with ⟨idle, more, result, run, finished⟩
  exact ((recoverSubmitted_alone idle evaluates).2 more once result run finished).2

theorem Calm.endTransaction {world : World} (calm : Calm world) (call : CallId) :
    Calm (world.endTransaction call) where
  ok := (Kept.endTransaction calm.ok).ok
  unlocked := World.unlocked_endTransaction calm.unlocked
  responds := calm.responds
  answers := calm.answers

/-- The second of two recoveries only audits: a row for every row the first one found stuck. -/
theorem RecoversAlone.onlyAudits (calm : Calm state.world)
    (alone : RecoversAlone hmac first state once)
    (again : RecoversAlone hmac second once twice) :
    OnlyAudits (state.world.rows.countP fun row => row.Stuck) once.world twice.world := by
  rcases recoverSubmitted_eval calm first with ⟨after, report, evaluates, afterCalm, recovered⟩
  have reached := alone.world_eq evaluates
  have calm' : Calm once.world := by
    rw [reached]
    exact afterCalm.endTransaction first
  have converged : ∀ row ∈ once.world.rows, row.Stuck → row.Converged := by
    rw [reached]
    exact recovered.converged_of_stuck
  rcases recoverSubmitted_of_converged second calm' converged with
    ⟨after', report', evaluates', audits⟩
  have count : (once.world.rows.countP fun row => row.Stuck) =
      state.world.rows.countP fun row => row.Stuck := by
    rw [reached]
    exact recovered.countP_stuck
  rw [← count, again.world_eq evaluates']
  exact ⟨audits.rows, audits.gateway, audits.audits⟩

theorem exists_recoversAlone_twice (hmac : Hmac) (calm : Calm state.world)
    (different : second ≠ first) (idle : state.calls first = .idle)
    (idle' : state.calls second = .idle) :
    ∃ once twice, RecoversAlone hmac first state once ∧ RecoversAlone hmac second once twice := by
  rcases recoverSubmitted_eval calm first with ⟨after, report, evaluates, afterCalm, _⟩
  rcases exists_recoversAlone hmac idle evaluates with ⟨once, alone⟩
  have calm' : Calm once.world := by
    rw [alone.world_eq evaluates]
    exact afterCalm.endTransaction first
  have still : once.calls second = .idle := by
    rcases alone with ⟨_, _, _, run, _⟩
    rw [run.calls_of_alone different, idle']
  rcases recoverSubmitted_eval calm' second with ⟨_, report', evaluates', _⟩
  rcases exists_recoversAlone hmac still evaluates' with ⟨twice, again⟩
  exact ⟨once, twice, alone, again⟩

/-- From a state of any run with no call in progress and a healthy gateway, recovery can run
twice in a row, and whenever it does the second one changes no row and nothing at the gateway
and appends an audit row for every row the first one found stuck.  So the two leave the tables
and the gateway's books as the first one left them exactly when nothing was stuck. -/
theorem recovered_twice_iff (run : EngineRun hmac trace state) (quiet : state.Quiet)
    (responds : state.world.gateway.config.dropResponse = false)
    (answers : state.world.gateway.config.timeOut = false) (different : second ≠ first)
    (idle : state.calls first = .idle) (idle' : state.calls second = .idle) :
    (∃ once twice, RecoversAlone hmac first state once ∧
      RecoversAlone hmac second once twice) ∧
    ∀ once twice, RecoversAlone hmac first state once → RecoversAlone hmac second once twice →
      OnlyAudits (state.world.rows.countP fun row => row.Stuck) once.world twice.world ∧
      (SameAsOnce once.world twice.world ↔ ∀ row ∈ state.world.rows, ¬row.Stuck) := by
  have calm := run.calm quiet responds answers
  constructor
  · exact exists_recoversAlone_twice hmac calm different idle idle'
  · intro once twice alone again
    have audits := alone.onlyAudits calm again
    refine ⟨audits, audits.sameAsOnce_iff.trans ?_⟩
    rw [List.countP_eq_zero]
    simp only [decide_eq_true_eq]

end Runs

/-- A refund is requested, submitted and settled, another one waits for its approval. -/
def sampleNothingStuck : List EngineEvent × EngineState :=
  ((engine sampleHmac).play NoCancel
    (uninterrupted 0 (.requestRefund ⟨8⟩ sampleCharge.id 2000 "EUR" "alice" none) 6 ++
      uninterrupted 1 (.submitRefund ⟨8⟩) 5 ++
      uninterrupted 2 (.handleWebhook sampleEvent [] (sign sampleHmac [] []) []) 4 ++
      uninterrupted 3 (.requestRefund ⟨7⟩ sampleCharge.id 150000 "EUR" "alice" none) 6)
    ([], initialState sampleCharges {} 10)).get (by decide +kernel)

theorem sampleNothingStuck_run : EngineRun sampleHmac sampleNothingStuck.1 sampleNothingStuck.2 :=
  .of_play (Option.some_get _).symm

/-- With one refund settled and one in review, the second recovery leaves all as the first. -/
theorem recovered_twice_iff_sample : ∃ once twice : EngineState,
    RecoversAlone sampleHmac 4 sampleNothingStuck.2 once ∧
    RecoversAlone sampleHmac 5 once twice ∧ SameAsOnce once.world twice.world ∧
    sampleNothingStuck.2.world.rows.map Refund.status = [.settled, .pendingReview] := by
  have quiet : sampleNothingStuck.2.Quiet := sampleNothingStuck_run.quiet_of_ended (by decide +kernel)
  have idle : sampleNothingStuck.2.calls 4 = .idle :=
    sampleNothingStuck_run.idle_of_absent (by decide +kernel)
  have idle' : sampleNothingStuck.2.calls 5 = .idle :=
    sampleNothingStuck_run.idle_of_absent (by decide +kernel)
  have twofold := recovered_twice_iff sampleNothingStuck_run quiet (by decide +kernel)
    (by decide +kernel) (by decide : (5 : CallId) ≠ 4) idle idle'
  rcases twofold.1 with ⟨once, twice, alone, again⟩
  have decides := (twofold.2 once twice alone again).2
  exact ⟨once, twice, alone, again, decides.mpr (by decide +kernel), by decide +kernel⟩

/-- The sample before its recovery has two stuck refunds: recovering once more audits them once
more. -/
theorem audited_twice : ¬∀ (hmac : Hmac) (trace : List EngineEvent) (state once twice : EngineState)
    (first second : CallId), EngineRun hmac trace state → state.Quiet →
    state.world.gateway.config.dropResponse = false →
    state.world.gateway.config.timeOut = false →
    RecoversAlone hmac first state once → RecoversAlone hmac second once twice →
    SameAsOnce once.world twice.world := by
  intro idempotent
  have quiet : sampleCrash.2.Quiet := sampleCrash_run.quiet_of_ended (by decide +kernel)
  have idle : sampleCrash.2.calls 4 = .idle :=
    sampleCrash_run.idle_of_absent (by decide +kernel)
  have idle' : sampleCrash.2.calls 5 = .idle :=
    sampleCrash_run.idle_of_absent (by decide +kernel)
  have calm := sampleCrash_run.calm quiet (by decide +kernel) (by decide +kernel)
  rcases exists_recoversAlone_twice sampleHmac calm (by decide : (5 : CallId) ≠ 4) idle
    idle' with ⟨once, twice, alone, again⟩
  have same := idempotent sampleHmac _ _ once twice 4 5 sampleCrash_run quiet
    (by decide +kernel) (by decide +kernel) alone again
  have unaudited := (alone.onlyAudits calm again).sameAsOnce_iff.mp same
  revert unaudited
  decide +kernel

end RefundEngine
