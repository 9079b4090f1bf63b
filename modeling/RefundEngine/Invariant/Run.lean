import RefundEngine.Contract
import RefundEngine.Invariant.Effect

/-!
# The invariant along runs

What the calls of a run recall of their own steps makes every command founded, so the
invariant of the world holds in every run.  Cancellations by others are admitted as long
as no call has the row in hand.
-/

namespace RefundEngine

open Interleaving (CallId Event Machine Regime own own_cons_self own_cons_other mem_own)

/-- The refunds that a step of `submit_refund` or `recover_submitted` read as `requested`
or `submitted`. -/
def readLive : EngineEvent → List Uuid
  | .answered _ (.submitRefund submitted) (.sql (.getRefund read)) (.ok (some row)) _ =>
      if submitted = read ∧ (row.status = .requested ∨ row.status = .submitted) then [read]
      else []
  | .answered _ .recoverSubmitted (.sql .selectStuck) (.ok stuck) _ => stuck.map Prod.fst
  | _ => []

/-- The call has read the refund as one to submit, has not yet run its update to
`submitted`, and is still in progress. -/
def InHand (events : List EngineEvent) (refundId : Uuid) : Prop :=
  (∃ event ∈ events, refundId ∈ readLive event) ∧ ¬Marked events refundId ∧
    ∀ event ∈ events, event.ends = false

instance (events : List EngineEvent) (refundId : Uuid) : Decidable (InHand events refundId) :=
  inferInstanceAs (Decidable ((∃ event ∈ events, _) ∧ ¬Marked events refundId ∧ _))

/-- No refund is canceled while some call has it in hand. -/
def Undisturbed (trace : List EngineEvent) : EngineEvent → Prop
  | .acted (.cancel refundId) _ =>
      ∀ call ∈ trace.filterMap Event.caller, ¬InHand (own call trace) refundId
  | _ => True

instance (trace : List EngineEvent) (event : EngineEvent) :
    Decidable (Undisturbed trace event) :=
  match event with
  | .acted (.cancel refundId) _ =>
      inferInstanceAs (Decidable (∀ call ∈ trace.filterMap Event.caller,
        ¬InHand (own call trace) refundId))
  | .acted (.setConfig _) _ | .acted (.setClock _) _ | .acted (.createCharge _) _
  | .acted (.suspend _ _) _ => isTrue trivial
  | .started .. | .answered .. | .failed .. | .finished .. | .died .. => isTrue trivial

theorem NoCancel.undisturbed {trace : List EngineEvent} {event : EngineEvent}
    (permitted : NoCancel trace event) : Undisturbed trace event := by
  cases event with
  | acted action =>
      cases action with
      | cancel => exact permitted.elim
      | _ => trivial
  | _ => trivial

theorem FoundLive.reads {call : CallId} {operation : Operation} {events : List EngineEvent}
    {refundId : Uuid} (live : FoundLive call operation events refundId) :
    ∃ event ∈ events, refundId ∈ readLive event := by
  rcases live with ⟨rfl, row, ⟨before, member⟩, status⟩ |
    ⟨rfl, stuck, status, ⟨before, member⟩, listed⟩
  · refine ⟨_, member, ?_⟩
    simp only [readLive, if_pos (And.intro trivial status), List.mem_singleton]
  · exact ⟨_, member, List.mem_map_of_mem (f := Prod.fst) listed⟩

/-! ## The invariant -/

/-- The invariant at a point of a run: the world is in order, every command executed so
far was founded, and no row that a call has in hand is canceled. -/
structure Invariant (trace : List EngineEvent) (world : World) : Prop where
  worldOk : WorldOk world
  founded : ∀ call operation command answer before,
    .answered call operation command answer before ∈ trace → Founded call before command
  hand : ∀ call refundId, InHand (own call trace) refundId →
    ∀ row ∈ world.rows, row.id = refundId → row.status ≠ .canceled

/-- The invariant, with what calls may rely on. -/
def engineRegime (hmac : Hmac) : Regime (engine hmac) where
  invariant := Invariant
  later := Later
  later_refl := Later.refl
  later_trans _ _ _ := Later.trans
  rely := RelyWorld
  rely_refl := RelyWorld.refl
  rely_trans _ _ _ _ := RelyWorld.trans

section Recall

variable {hmac : Hmac} {trace : List EngineEvent} {world : World} {call : CallId}
variable {operation : Operation} {refundId : Uuid}

theorem Answered.seen (recalled : (engineRegime hmac).Recalled trace world)
    {command : Command} {answer : command.Answer}
    (answered : Answered call operation (own call trace) command answer) :
    ∃ before after, .answered call operation command answer before ∈ trace ∧
      command.execute call before = some (answer, after) ∧ Later before after ∧
      Later after world := by
  obtain ⟨before, member⟩ := answered
  have inTrace := (mem_own.mp member).1
  obtain ⟨after, executed, changed, since⟩ := recalled.seen _ inTrace
  exact ⟨before, after, inTrace, executed, changed, since⟩

/-- A refund that was read is still there, with its terms. -/
theorem Answered.getRefund (recalled : (engineRegime hmac).Recalled trace world)
    {row : Refund}
    (read : Answered call operation (own call trace) (.sql (.getRefund refundId))
      (.ok (some row))) :
    row.id = refundId ∧ ∃ row' ∈ world.rows, Advances row row' := by
  obtain ⟨before, after, _, executed, changed, since⟩ := read.seen recalled
  simp only [Command.execute, World.execute, Option.some.injEq, Prod.mk.injEq,
    Except.ok.injEq] at executed
  obtain ⟨member, same⟩ := RefundTable.find?_eq_some.mp executed.1
  exact ⟨same, (changed.trans since).forward row member⟩

theorem FoundLive.row (recalled : (engineRegime hmac).Recalled trace world)
    (live : FoundLive call operation (own call trace) refundId) :
    ∃ row ∈ world.rows, row.id = refundId ∧ Status.requested.rank ≤ row.status.rank := by
  rcases live with ⟨_, row, read, status⟩ | ⟨_, stuck, status, read, listed⟩
  · obtain ⟨same, row', member, advances⟩ := read.getRefund recalled
    refine ⟨row', member, advances.id.trans same, le_trans ?_ advances.rank_le⟩
    rcases status with status | status <;> simp [status, Status.rank]
  · obtain ⟨before, after, _, executed, changed, since⟩ := read.seen recalled
    simp only [Command.execute, World.execute, Option.some.injEq, Prod.mk.injEq,
      Except.ok.injEq] at executed
    rw [← executed.1] at listed
    obtain ⟨row, member, same, live⟩ := mem_stuckRows.mp listed
    obtain ⟨row', member', advances⟩ := (changed.trans since).forward row member
    cases same
    refine ⟨row', member', advances.id, le_trans ?_ advances.rank_le⟩
    rcases live with live | live <;> simp [live, Status.rank]

theorem ReadTerms.row (recalled : (engineRegime hmac).Recalled trace world)
    {amount : Int64} {currency : String}
    (terms : ReadTerms call operation (own call trace) refundId amount currency) :
    ∃ row ∈ world.rows, row.id = refundId ∧ row.amountCents = amount ∧
      row.currency = currency := by
  rcases terms with ⟨row, read, rfl, rfl⟩ | read
  · obtain ⟨same, row', member, advances⟩ := read.getRefund recalled
    exact ⟨row', member, advances.id.trans same, advances.amountCents, advances.currency⟩
  · obtain ⟨before, after, _, executed, changed, since⟩ := read.seen recalled
    simp only [Command.execute, World.execute, World.selectAmount, Option.some.injEq,
      Prod.mk.injEq] at executed
    obtain ⟨found, rfl⟩ := executed
    split at found
    · rename_i row found'
      simp only [Except.ok.injEq, Prod.mk.injEq] at found
      obtain ⟨rfl, rfl⟩ := found
      obtain ⟨member, same⟩ := RefundTable.find?_eq_some.mp found'
      obtain ⟨row', member', advances⟩ := (changed.trans since).forward row member
      exact ⟨row', member', advances.id.trans same, advances.amountCents, advances.currency⟩
    · cases found

theorem Answered.marked (invariant : Invariant trace world)
    (recalled : (engineRegime hmac).Recalled trace world)
    (marked : Answered call operation (own call trace)
      (.sql (.updateRefunds (.markSubmitted refundId))) (.ok ())) :
    ∃ row ∈ world.rows, row.id = refundId ∧ Status.submitted.rank ≤ row.status.rank := by
  obtain ⟨before, after, inTrace, executed, _, since⟩ := marked.seen recalled
  obtain ⟨row, member, same, past⟩ :=
    (invariant.founded _ _ _ _ _ inTrace).2 refundId rfl
  simp only [Command.execute, World.execute, World.updateRefunds] at executed
  split at executed
  · cases executed
  split at executed
  · rename_i refunds revised
    cases executed
    have rows := RefundTable.rows_of_revise revised
    have member' : ((RefundUpdate.markSubmitted refundId).change before.now).apply row ∈
        (before.setRefunds refunds).rows := by
      simp only [World.rows, World.setRefunds]
      rw [rows]
      exact List.mem_map_of_mem member
    obtain ⟨row', member'', advances⟩ := since.forward _ member'
    refine ⟨row', member'', ?_, le_trans ?_ advances.rank_le⟩
    · rw [advances.id, RowChange.apply_id, same]
    · simp only [RefundUpdate.change]
      split
      · simp [RefundUpdate.assign]
      · rename_i skipped
        simp only [RefundUpdate.Applies, same, true_and] at skipped
        revert past skipped
        cases row.status <;> simp [Status.rank]
  · cases executed

/-- An accepted refund is the one the gateway holds under the key. -/
theorem Answered.accepted (recalled : (engineRegime hmac).Recalled trace world)
    {amount : Int64} {currency key : String} {refund : GatewayRefund}
    (accepted : Answered call operation (own call trace) (.createRefund amount currency key)
      (.accepted refund)) : world.gateway.lookupByKey key = some refund := by
  obtain ⟨before, after, _, executed, _, since⟩ := accepted.seen recalled
  simp only [Command.execute, Option.some.injEq, Prod.mk.injEq] at executed
  obtain ⟨outcome, rfl⟩ := executed
  exact since.objects _ _ (MockGateway.lookupByKey_of_accepted (Prod.ext outcome rfl))

theorem Answered.lookedUp (recalled : (engineRegime hmac).Recalled trace world)
    {key : String} {refund : GatewayRefund}
    (found : Answered call operation (own call trace) (.lookupByKey key) (some refund)) :
    world.gateway.lookupByKey key = some refund := by
  obtain ⟨before, after, _, executed, _, since⟩ := found.seen recalled
  simp only [Command.execute, Option.some.injEq, Prod.mk.injEq] at executed
  obtain ⟨held, rfl⟩ := executed
  exact since.objects _ _ held

theorem transaction_of_began {events : List EngineEvent} {before : World}
    (linked : (engineRegime hmac).Linked
      (.answered call operation (.sql .begin) (.ok ()) before :: events) world) :
    world.transaction call = some { began := before.now } := by
  obtain ⟨⟨after, executed, rely⟩, _⟩ := linked
  simp only [engine, Command.execute, World.execute, Option.some.injEq, Prod.mk.injEq,
    true_and] at executed
  subst executed
  rw [rely.own]
  simp [World.begin]

/-- After locking a charge in a transaction that was empty, the lock is held and the
charge is as it was read. -/
theorem transaction_of_locked {events : List EngineEvent} {before : World} {chargeId : Uuid}
    {amountCaptured : Int64} {currency : String} {transaction : Transaction}
    (linked : (engineRegime hmac).Linked
      (.answered call operation (.sql (.lockCharge chargeId))
        (.ok (some (amountCaptured, currency))) before :: events) world)
    (opened : before.transaction call = some transaction) :
    world.transaction call = some { transaction with chargeLock := some chargeId } ∧
      ∃ charge ∈ world.charges, charge.id = chargeId ∧
        charge.amountCaptured = amountCaptured ∧ charge.currency = currency := by
  obtain ⟨⟨after, executed, rely⟩, _⟩ := linked
  simp only [engine, Command.execute, World.execute, World.lockCharge, World.inTransaction,
    opened] at executed
  split at executed
  · cases executed
  · rename_i charge found
    split at executed
    · cases executed
    · cases executed
      obtain ⟨member, same⟩ := ChargeTable.mem_of_find? found
      refine ⟨by rw [rely.own]; simp, charge, rely.charges member, same, rfl, rfl⟩

theorem castBigint_eq_ok {value : Int} {cast : Int64} (fits : castBigint value = .ok cast) :
    cast.toInt = value := by
  simp only [castBigint] at fits
  split at fits
  · rename_i bounds
    cases fits
    apply Int64.toInt_ofInt_of_le
    · simpa using bounds.1
    · simpa using bounds.2
  · cases fits

/-- The sum read under the lock is still an upper bound, and the lock is still held. -/
theorem transaction_of_summed {events : List EngineEvent} {before : World} {chargeId : Uuid}
    {total : Int64} {transaction : Transaction}
    (linked : (engineRegime hmac).Linked
      (.answered call operation (.sql (.sumRefunds chargeId)) (.ok total) before :: events)
      world)
    (opened : before.transaction call = some transaction)
    (locked : transaction.chargeLock = some chargeId) :
    world.transaction call = some transaction ∧ before.charges ⊆ world.charges ∧
      0 ≤ total.toInt ∧ refundedSoFar world.rows chargeId ≤ total.toInt := by
  obtain ⟨⟨after, executed, rely⟩, _⟩ := linked
  simp only [engine, Command.execute, World.execute, World.sumRefunds, World.inTransaction,
    opened, Option.some.injEq, Prod.mk.injEq] at executed
  obtain ⟨cast, rfl⟩ := executed
  rw [castBigint_eq_ok cast]
  exact ⟨rely.own.trans opened, rely.charges, refundedSoFar_nonneg _ _,
    rely.refundedSoFar_le opened locked⟩

theorem toInt_remaining {amountCaptured total : Int64} (captured : 0 ≤ amountCaptured.toInt)
    (refunded : 0 ≤ total.toInt) :
    (amountCaptured - total).toInt = amountCaptured.toInt - total.toInt := by
  have upper := amountCaptured.toInt_lt
  have lower := total.toInt_lt
  rw [Int64.toInt_sub]
  apply Int.bmod_eq_of_le
  · omega
  · omega

/-- What `request_refund` has checked under the lock holds when it inserts the row. -/
theorem Admitted.fits {new : NewRefund}
    (linked : (engineRegime hmac).Linked (own call trace) world)
    (admitted : Admitted call operation (own call trace) new) :
    Fits world new ∧ ∀ transaction, world.transaction call = some transaction →
      transaction.refundWrites = [] ∧ transaction.chargeLock = some new.chargeId := by
  obtain ⟨began, locked, summed, rest, amountCaptured, total, shape, within⟩ := admitted.room
  rw [shape] at linked
  have opened := transaction_of_began linked.2.2
  obtain ⟨lockHeld, charge, chargeIn, chargeId, captured, _⟩ :=
    transaction_of_locked linked.2 opened
  obtain ⟨stillHeld, charges, nonneg, bound⟩ := transaction_of_summed linked lockHeld rfl
  constructor
  · refine ⟨admitted.key, admitted.status, fun other otherIn same => ?_⟩
    have isCharge := world.database.charges.eq_of_id otherIn (charges chargeIn)
      (same.trans chargeId.symm)
    subst isCharge
    have capturedNonneg := Int64.le_iff_toInt_le.mp other.amountCaptured_nonneg
    have within := Int64.le_iff_toInt_le.mp within
    rw [← captured, toInt_remaining (by simpa using capturedNonneg) nonneg] at within
    rw [same]
    omega
  · intro transaction opened'
    rw [stillHeld] at opened'
    cases opened'
    exact ⟨rfl, rfl⟩

end Recall

section Founding

variable {hmac : Hmac} {trace : List EngineEvent} {world : World} {call : CallId}
variable {operation : Operation}

/-- The updates outside webhooks record only what the gateway has answered, and recovery
does not touch a row canceled by others. -/
private theorem LicensedUpdate.founded (invariant : Invariant trace world)
    (recalled : (engineRegime hmac).Recalled trace world)
    (inProgress : ∀ event ∈ own call trace, event.ends = false) {update : RefundUpdate}
    (licensed : LicensedUpdate call operation (own call trace) update) :
    Founded call world (.sql (.updateRefunds update)) := by
  cases update with
  | markSubmitted refundId =>
      refine ⟨fun _ _ _ => trivial, ?_⟩
      rintro refundId ⟨⟩
      exact licensed.1.row recalled
  | recordRef refundId gatewayRef =>
      obtain ⟨_, _, refund, accepted, name⟩ := licensed
      exact ⟨fun _ _ _ => ⟨refund, accepted.accepted recalled, name⟩, nofun⟩
  | recoverRef refundId gatewayRef =>
      obtain ⟨live, unmarked, refund, found, name⟩ := licensed
      refine ⟨fun row member applies =>
        ⟨⟨refund, found.lookedUp recalled, name⟩, ?_⟩, nofun⟩
      exact invariant.hand call refundId ⟨live.reads, unmarked, inProgress⟩ row member
        applies.1
  | markRequested refundId => exact ⟨fun _ _ _ => trivial, nofun⟩
  | settle | fail => exact licensed.elim

/-- Every command a call may issue is founded in the world it runs in. -/
theorem Licensed.founded (invariant : Invariant trace world)
    (recalled : (engineRegime hmac).Recalled trace world)
    (inProgress : ∀ event ∈ own call trace, event.ends = false) {command : Command}
    (licensed : Licensed call operation (own call trace) hmac command) :
    Founded call world command := by
  have linked := recalled.linked call
  cases command with
  | lookupByKey key => trivial
  | createRefund amount currency key =>
      obtain ⟨refundId, rfl, live, marked, terms⟩ := licensed
      obtain ⟨row, member, same, past⟩ := marked.marked invariant recalled
      obtain ⟨read, readIn, readId, amount, currency⟩ := terms.row recalled
      have isRow := world.database.refunds.eq_of_id readIn member (readId.trans same.symm)
      subst isRow
      refine ⟨read, member, ?_, amount, currency, past⟩
      rw [(invariant.worldOk.row read member).key, same]
  | sql statement =>
      cases statement with
      | updateRefunds update =>
          exact LicensedUpdate.founded invariant recalled inProgress licensed
      | lockCharge chargeId =>
          obtain ⟨before, rest, shape⟩ := licensed
          rw [shape] at linked
          intro transaction opened
          rw [transaction_of_began linked] at opened
          cases opened
          rfl
      | insertRefund new => exact Admitted.fits linked licensed
      | applyMoved update reason =>
          obtain ⟨event, _, _, _, seen, before, began, _, _, applies, shape⟩ := licensed
          rw [shape] at linked
          constructor
          · simp only [WebhookEvent.update] at applies
            split at applies
            · cases applies
              exact Option.some_ne_none _
            · split at applies <;> cases applies
              exact Option.some_ne_none _
          · intro transaction opened
            rw [transaction_of_began linked] at opened
            cases opened
            rfl
      | _ => trivial

end Founding

/-! ## Every step keeps the invariant -/

section Step

variable {hmac : Hmac} {trace : List EngineEvent} {state next : EngineState}
variable {event : EngineEvent}

/-- A row is found canceled after a step only if it was before, or is being canceled. -/
theorem canceled_of_step (ok : WorldOk state.world)
    (step : (engine hmac).Step state event next) {row : Refund}
    (member : row ∈ next.world.rows) (canceled : row.status = .canceled) :
    (∃ row' ∈ state.world.rows, row'.id = row.id ∧ row'.status = .canceled) ∨
      event = .acted (.cancel row.id) state.world := by
  cases rowOrigin ok step member with
  | kept earlier => exact .inl ⟨row, earlier, rfl, canceled⟩
  | @updated call operation update earlier earlierIn applies =>
      refine .inl ⟨earlier, earlierIn, (RefundUpdate.assign_id ..).symm, ?_⟩
      cases update with
      | recordRef => exact canceled
      | _ => cases canceled
  | @decided call operation transaction update writtenAt earlier _ status _ _ _ _ decides =>
      rw [RefundUpdate.status_of_decision decides] at canceled
      subst canceled
      cases update <;> cases decides
  | inserted opened writes new =>
      rw [new.status] at canceled
      split at canceled <;> cases canceled
  | canceled cancelable earlierIn => exact .inr rfl

theorem InHand.of_step {call : CallId} {refundId : Uuid}
    (inHand : InHand (own call (event :: trace)) refundId) :
    InHand (own call trace) refundId ∨ refundId ∈ readLive event := by
  by_cases taken : event.caller = some call
  · rw [own_cons_self taken] at inHand
    obtain ⟨⟨read, readIn, reads⟩, unmarked, inProgress⟩ := inHand
    rcases List.mem_cons.mp readIn with rfl | earlier
    · exact .inr reads
    · refine .inl ⟨⟨read, earlier, reads⟩, ?_,
        fun event member => inProgress event (List.mem_cons_of_mem _ member)⟩
      rintro ⟨marking, markingIn, marks⟩
      exact unmarked ⟨marking, List.mem_cons_of_mem _ markingIn, marks⟩
  · rw [own_cons_other taken] at inHand
    exact .inl inHand

theorem row_of_readLive {refundId : Uuid} (reads : refundId ∈ readLive event)
    (step : (engine hmac).Step state event next) :
    ∃ row ∈ state.world.rows, row.id = refundId ∧ row.status ≠ .canceled := by
  cases step with
  | @answer call operation command next' answer world running executed =>
      simp only [readLive] at reads
      split at reads
      · rename_i same
        cases same
        split at reads
        swap
        · cases reads
        rename_i found
        cases List.mem_singleton.mp reads
        obtain ⟨_, live⟩ := found
        simp only [engine, Command.execute, World.execute, Option.some.injEq, Prod.mk.injEq,
          Except.ok.injEq] at executed
        obtain ⟨member, same⟩ := RefundTable.find?_eq_some.mp executed.1
        refine ⟨_, member, same, ?_⟩
        rcases live with live | live <;> simp [live]
      · rename_i same
        cases same
        simp only [engine, Command.execute, World.execute, Option.some.injEq, Prod.mk.injEq,
          Except.ok.injEq] at executed
        rw [← executed.1] at reads
        obtain ⟨⟨id, status⟩, listed, rfl⟩ := List.mem_map.mp reads
        obtain ⟨row, member, same, live⟩ := mem_stuckRows.mp listed
        cases same
        refine ⟨row, member, rfl, ?_⟩
        rcases live with live | live <;> simp [live]
      · cases reads
  | _ => cases reads

/-- No row in hand is canceled after a step that respects the hands. -/
private theorem Invariant.hand_step (invariant : Invariant trace state.world)
    (step : (engine hmac).Step state event next) (permitted : Undisturbed trace event)
    (call : CallId) (refundId : Uuid) (inHand : InHand (own call (event :: trace)) refundId)
    (row : Refund) (member : row ∈ next.world.rows) (same : row.id = refundId) :
    row.status ≠ .canceled := by
  intro canceled
  subst same
  rcases canceled_of_step invariant.worldOk step member canceled with
    ⟨earlier, earlierIn, sameId, canceled⟩ | rfl
  · rcases inHand.of_step with before | reads
    · exact invariant.hand call _ before earlier earlierIn sameId canceled
    · obtain ⟨found, foundIn, foundId, live⟩ := row_of_readLive reads step
      have isFound := state.world.database.refunds.eq_of_id earlierIn foundIn
        (sameId.trans foundId.symm)
      exact live (isFound ▸ canceled)
  · rcases inHand.of_step with before | reads
    · obtain ⟨read, readIn, _⟩ := before.1
      obtain ⟨inTrace, mine⟩ := mem_own.mp readIn
      exact permitted call (List.mem_filterMap.mpr ⟨read, inTrace, mine⟩) before
    · cases reads

private theorem kept_step (invariant : Invariant trace state.world)
    (founded : ∀ call operation command answer before,
      event = .answered call operation command answer before → Founded call before command)
    (step : (engine hmac).Step state event next) :
    Kept event.caller state.world next.world := by
  have ok := invariant.worldOk
  cases step with
  | start | fail => exact .refl _ ok
  | @answer call operation command next' answer world running executed =>
      exact (founded _ _ _ _ _ rfl).kept ok executed
  | finish | die => exact .endTransaction ok
  | act acted => exact kept_act ok acted

variable {charges : ChargeTable} {config : MockConfig} {now : Timestamp}

/-- Every step of a run in which no row in hand is canceled is founded, keeps the
invariant and what the other calls rely on. -/
private theorem guarantee_step
    (run : (engine hmac).Run Undisturbed (initialState charges config now) trace state)
    (invariant : Invariant trace state.world)
    (recalled : (engineRegime hmac).Recalled trace state.world)
    (step : (engine hmac).Step state event next) (permitted : Undisturbed trace event) :
    (engineRegime hmac).Guarantee trace state.world event next.world := by
  have permits := (engineContract_upheld hmac).permits (fun _ => rfl) run step
  have founded : ∀ call operation command answer before,
      event = .answered call operation command answer before →
      Founded call before command := by
    rintro call operation command answer before rfl
    cases step with
    | answer running executed =>
        refine Licensed.founded invariant recalled ?_ permits
        intro event member
        obtain ⟨inTrace, mine⟩ := mem_own.mp member
        refine run.no_end_of_inProgress ?_ event inTrace mine
        rw [running]
        trivial
  have kept := kept_step invariant founded step
  refine ⟨⟨kept.ok, ?_, invariant.hand_step step permitted⟩, kept.later, kept.rely⟩
  intro call operation command answer before member
  rcases List.mem_cons.mp member with rfl | earlier
  · exact founded call operation command answer before rfl
  · exact invariant.founded call operation command answer before earlier

theorem worldOk_initial (charges : ChargeTable) (config : MockConfig) (now : Timestamp) :
    WorldOk (initialState charges config now).world where
  consistent := MockGateway.consistent_withConfig config
  row := nofun
  backed := by
    simp [initialState, MockGateway.lookupByKey, MockGateway.withConfig, MockGateway.new]
  charged := nofun
  captured := by
    intro charge _
    have nonneg := Int64.le_iff_toInt_le.mp charge.amountCaptured_nonneg
    simpa [initialState, World.rows, refundedSoFar] using nonneg
  pending := nofun
  chargeLocks := nofun
  rowLocks := nofun

/-- The invariant holds in every run in which no row in hand is canceled. -/
theorem invariant_of_run
    (run : (engine hmac).Run Undisturbed (initialState charges config now) trace state) :
    Invariant trace state.world ∧ (engineRegime hmac).Recalled trace state.world := by
  have base : Invariant [] (initialState charges config now).world :=
    { worldOk := worldOk_initial charges config now
      founded := by simp
      hand := by simp [InHand, own] }
  exact (engineRegime hmac).run base
    (fun _ _ _ _ run invariant recalled => guarantee_step run invariant recalled) run

theorem guarantee_of_run
    (run : (engine hmac).Run Undisturbed (initialState charges config now) trace state)
    (step : (engine hmac).Step state event next) (permitted : Undisturbed trace event) :
    (engineRegime hmac).Guarantee trace state.world event next.world :=
  let ⟨invariant, recalled⟩ := invariant_of_run run
  guarantee_step run invariant recalled step permitted

/-- Over a whole such run the world only changes as it may. -/
theorem later_of_run {more : List EngineEvent}
    (run : (engine hmac).Run Undisturbed (initialState charges config now) trace state)
    (continued : (engine hmac).Run (fun since => Undisturbed (since ++ trace)) state more next) :
    Later state.world next.world := by
  induction continued with
  | nil => exact .refl _
  | cons earlier step permitted ih =>
      exact ih.trans (guarantee_of_run (run.append earlier) step permitted).later

end Step

namespace EngineRun

variable {hmac : Hmac} {trace : List EngineEvent} {state next : EngineState}
variable {event : EngineEvent}

theorem invariant (run : EngineRun hmac trace state) : Invariant trace state.world :=
  let ⟨_, _, _, run⟩ := run
  (invariant_of_run (run.mono fun _ _ => NoCancel.undisturbed)).1

theorem worldOk (run : EngineRun hmac trace state) : WorldOk state.world :=
  run.invariant.worldOk

theorem recalled (run : EngineRun hmac trace state) :
    (engineRegime hmac).Recalled trace state.world :=
  let ⟨_, _, _, run⟩ := run
  (invariant_of_run (run.mono fun _ _ => NoCancel.undisturbed)).2

theorem guarantee (run : EngineRun hmac trace state)
    (step : (engine hmac).Step state event next) (permitted : NoCancel trace event) :
    (engineRegime hmac).Guarantee trace state.world event next.world :=
  let ⟨_, _, _, run⟩ := run
  guarantee_of_run (run.mono fun _ _ => NoCancel.undisturbed) step permitted.undisturbed

theorem permits (run : EngineRun hmac trace state)
    (step : (engine hmac).Step state event next) :
    (engineContract hmac).Permits trace event :=
  let ⟨_, _, _, run⟩ := run
  (engineContract_upheld hmac).permits (fun _ => rfl) run step

/-- Every command of a run was licensed when it was executed. -/
theorem licensed {call : CallId} {operation : Operation} {command : Command}
    {answer : command.Answer} {before : World} {newer earlier : List EngineEvent}
    (run : EngineRun hmac trace state)
    (split : trace = newer ++ .answered call operation command answer before :: earlier) :
    Licensed call operation (own call earlier) hmac command := by
  rcases run with ⟨_, _, _, run⟩
  have respected := (engineContract_upheld hmac).respected (fun _ => rfl) run
  rw [split] at respected
  exact respected.permits_of_append

/-- Every call of a run that returned meets its contract. -/
theorem outcome {call : CallId} {operation : Operation} {result : Except RefundError Reply}
    {newer earlier : List EngineEvent} (run : EngineRun hmac trace state)
    (split : trace = newer ++ .finished call operation result :: earlier) :
    WebhookOutcome call operation (own call earlier) hmac result := by
  rcases run with ⟨_, _, _, run⟩
  have respected := (engineContract_upheld hmac).respected (fun _ => rfl) run
  rw [split] at respected
  exact respected.permits_of_append

theorem cons (run : EngineRun hmac trace state)
    (step : (engine hmac).Step state event next) (permitted : NoCancel trace event) :
    EngineRun hmac (event :: trace) next :=
  let ⟨charges, config, now, run⟩ := run
  ⟨charges, config, now, .cons run step permitted⟩

theorem append {more : List EngineEvent} (run : EngineRun hmac trace state)
    (continued : (engine hmac).Run NoCancel state more next) :
    EngineRun hmac (more ++ trace) next :=
  let ⟨charges, config, now, run⟩ := run
  ⟨charges, config, now, run.append (continued.mono fun _ _ permitted => permitted.anywhere)⟩

/-- A property of points that every step preserves holds at the end of every run. -/
theorem preserves (run : EngineRun hmac trace state)
    (property : List EngineEvent → EngineState → Prop)
    (base : ∀ charges config now, property [] (initialState charges config now))
    (stepped : ∀ trace state event next, EngineRun hmac trace state → property trace state →
      (engine hmac).Step state event next → NoCancel trace event →
      property (event :: trace) next) : property trace state :=
  let ⟨charges, config, now, run⟩ := run
  run.preserves property (base charges config now) fun trace state event next run =>
    stepped trace state event next ⟨charges, config, now, run⟩

/-- The events before a command lead to the world it was executed in. -/
theorem reached_of_split (run : EngineRun hmac trace state) {call : CallId}
    {operation : Operation} {command : Command} {answer : command.Answer} {before : World}
    {newer earlier : List EngineEvent}
    (split : trace = newer ++ .answered call operation command answer before :: earlier) :
    ∃ reached after, EngineRun hmac earlier reached ∧ reached.world = before ∧
      command.execute call before = some (answer, after) := by
  rcases run with ⟨charges, config, now, run⟩
  rcases run.step_of_split split with ⟨reached, next, run, step, _⟩
  cases step with
  | answer running executed => exact ⟨reached, _, ⟨charges, config, now, run⟩, rfl, executed⟩

theorem reached_of_own (run : EngineRun hmac trace state) {call : CallId}
    {operation : Operation} {command : Command} {answer : command.Answer} {before : World}
    {rest : List EngineEvent}
    (behind : own call trace = .answered call operation command answer before :: rest) :
    ∃ earlier reached after, EngineRun hmac earlier reached ∧ own call earlier = rest ∧
      reached.world = before ∧ command.execute call before = some (answer, after) := by
  rcases List.filter_eq_cons_iff.mp behind with ⟨newer, earlier, split, _, _, same⟩
  rcases run.reached_of_split split with ⟨reached, after, reaches, world, executed⟩
  exact ⟨earlier, reached, after, reaches, same, world, executed⟩

theorem reached_of_answered (run : EngineRun hmac trace state) {call : CallId}
    {operation : Operation} {command : Command} {answer : command.Answer} {before : World}
    (member : .answered call operation command answer before ∈ trace) :
    ∃ earlier reached, EngineRun hmac earlier reached ∧ reached.world = before := by
  rcases run with ⟨charges, config, now, run⟩
  rcases run.exists_step_of_mem member with ⟨earlier, reached, after, run, step, _⟩
  refine ⟨earlier, reached, ⟨charges, config, now, run⟩, ?_⟩
  cases step with
  | answer => rfl

theorem worldOk_of_answered (run : EngineRun hmac trace state) {call : CallId}
    {operation : Operation} {command : Command} {answer : command.Answer} {before : World}
    (member : .answered call operation command answer before ∈ trace) : WorldOk before := by
  rcases run.reached_of_answered member with ⟨_, _, reached, rfl⟩
  exact reached.worldOk

/-- Without cancellations no row is ever canceled. -/
theorem not_canceled (run : EngineRun hmac trace state) :
    ∀ row ∈ state.world.rows, row.status ≠ .canceled := by
  refine run.preserves
    (fun _ state => ∀ row ∈ state.world.rows, row.status ≠ .canceled) ?_ ?_
  · intro charges config now row member
    cases member
  · intro trace state event next run live step permitted row member canceled
    rcases canceled_of_step run.worldOk step member canceled with
      ⟨earlier, earlierIn, _, canceled⟩ | rfl
    · exact live earlier earlierIn canceled
    · exact permitted

/-- Over a whole run the world only changes as it may. -/
theorem later {more : List EngineEvent} (run : EngineRun hmac trace state)
    (continued : (engine hmac).Run NoCancel state more next) :
    Later state.world next.world :=
  let ⟨_, _, _, run⟩ := run
  later_of_run (run.mono fun _ _ => NoCancel.undisturbed)
    (continued.mono fun _ _ permitted => permitted.anywhere.undisturbed)

theorem own_of_started {allowed : List EngineEvent → EngineEvent → Prop}
    {more : List EngineEvent} (run : EngineRun hmac trace state)
    (continued : (engine hmac).Run allowed state more next) {call : CallId}
    {operation : Operation} (started : .started call operation ∈ more) :
    own call (more ++ trace) = own call more := by
  rcases run with ⟨_, _, _, run⟩
  have before := Interleaving.Contract.own_of_idle run (continued.idle_of_started started)
  simp only [own] at before ⊢
  rw [List.filter_append, before, List.append_nil]

theorem inProgress_of_transaction (run : EngineRun hmac trace state) (call : CallId)
    (transaction : Transaction) (opened : state.world.transaction call = some transaction) :
    (state.calls call).InProgress :=
  let ⟨_, _, _, run⟩ := run
  RefundEngine.inProgress_of_transaction run opened

theorem unlocked (run : EngineRun hmac trace state) (quiet : state.Quiet) (call : CallId) :
    state.world.transaction call = none :=
  let ⟨_, _, _, run⟩ := run
  unlocked_of_quiet run quiet call

theorem resumed_of_closed (run : EngineRun hmac trace state) {call : CallId}
    (closed : state.world.transaction call = none) : state.world.suspended call = none :=
  let ⟨_, _, _, run⟩ := run
  RefundEngine.resumed_of_closed run closed

theorem resumed (run : EngineRun hmac trace state) (quiet : state.Quiet)
    (call : CallId) : state.world.suspended call = none :=
  run.resumed_of_closed (run.unlocked quiet call)

end EngineRun

end RefundEngine
