import RefundEngine.Acknowledged
import RefundEngine.AuditRows
import RefundEngine.CleanReport

/-!
# When the books agree

The gateway decides what becomes of a refund it holds, and says so in signed webhooks.  As long
as those tell the truth, the decided refunds are what the gateway did, in every interleaving; and
once no refund is left halfway, a settlement file reconciles exactly when it lists what the
gateway paid out.  A refund that recovery has found stuck gets there with the first webhook that
is applied after it.
-/

namespace RefundEngine

open Interleaving (CallId Machine mem_own own)
open Keyed (lastByKey)

/-- What becomes of the refunds the gateway holds, by reference. -/
abbrev Verdict := String → Status

/-- The verified deliveries that have committed tell the verdict. -/
def Honest (hmac : Hmac) (verdict : Verdict) (trace : List EngineEvent) : Prop :=
  ∀ call event rawBody sig secret before status,
    .answered call (.handleWebhook event rawBody sig secret) (.sql .commit) (.ok ()) before ∈
      trace →
    verifySignature hmac rawBody sig secret = true → event.Asks status →
    verdict event.data.gatewayRef = status

/-- What the gateway has paid out, by reference and amount. -/
def MockGateway.paidOut (gateway : MockGateway) (verdict : Verdict) : List (String × Int64) :=
  ((gateway.store.entries.map Sigma.snd).filter fun refund => verdict refund.id = .settled).map
    fun refund => (refund.id, refund.amount)

section Gateway

variable {gateway : MockGateway} {verdict : Verdict}

theorem MockGateway.mem_paidOut {gatewayRef : String} {amount : Int64} :
    (gatewayRef, amount) ∈ gateway.paidOut verdict ↔
      verdict gatewayRef = .settled ∧ ∃ key refund, gateway.lookupByKey key = some refund ∧
        refund.id = gatewayRef ∧ refund.amount = amount := by
  simp only [paidOut, List.mem_map, List.mem_filter, decide_eq_true_eq]
  constructor
  · rintro ⟨_, ⟨⟨⟨key, refund⟩, listed, rfl⟩, settled⟩, same⟩
    cases same
    exact ⟨settled, key, refund, AList.mem_lookup_iff.mpr listed, rfl, rfl⟩
  · rintro ⟨settled, key, refund, held, rfl, rfl⟩
    exact ⟨refund, ⟨⟨⟨key, refund⟩, AList.mem_lookup_iff.mp held, rfl⟩, settled⟩, rfl⟩

theorem MockGateway.Consistent.paidOut_nodup (consistent : gateway.Consistent) :
    (gateway.paidOut verdict).Nodup := by
  have entries : gateway.store.entries.Nodup := gateway.store.nodupKeys.nodup
  have refs : (gateway.store.entries.map fun entry => entry.2.id).Nodup := by
    apply entries.map_on
    rintro ⟨key, refund⟩ listed ⟨key', refund'⟩ listed' same
    have held : gateway.lookupByKey key = some refund := AList.mem_lookup_iff.mpr listed
    have held' : gateway.lookupByKey key' = some refund' := AList.mem_lookup_iff.mpr listed'
    cases consistent.distinct key key' refund refund' held held' same
    cases held.symm.trans held'
    rfl
  apply List.Nodup.of_map Prod.fst
  have names : (gateway.paidOut verdict).map Prod.fst =
      ((gateway.store.entries.map Sigma.snd).filter fun refund =>
        verdict refund.id = .settled).map GatewayRefund.id := by
    rw [MockGateway.paidOut, List.map_map]
    rfl
  rw [names]
  have whole : ((gateway.store.entries.map Sigma.snd).map GatewayRefund.id).Nodup := by
    rw [List.map_map]
    exact refs
  exact whole.sublist (List.filter_sublist.map _)

end Gateway

section Decided

variable {hmac : Hmac} {trace : List EngineEvent} {state : EngineState} {verdict : Verdict}
variable {row : Refund}

/-- A refund is decided as a verified delivery under its reference said. -/
theorem EngineRun.verdict_of_decided (run : EngineRun hmac trace state)
    (honest : Honest hmac verdict trace) (member : row ∈ state.world.rows)
    (decided : row.status = .settled ∨ row.status = .failed) :
    ∃ gatewayRef, row.gatewayRef = some gatewayRef ∧ verdict gatewayRef = row.status := by
  rcases run.audit_of_decided member decided with ⟨audit, inside, names, reached⟩
  rcases run.authored audit inside with ⟨row', member', names', authored⟩
  cases state.world.database.refunds.eq_of_id member' member (names'.trans names)
  cases authored with
  | requester _ _ _ initial =>
      exfalso
      rw [← reached, initial, initialStatus] at decided
      split at decided <;> simp at decided
  | approver _ _ _ requested =>
      rw [← reached, requested] at decided
      simp at decided
  | submitter _ _ submitted =>
      rw [← reached, submitted] at decided
      simp at decided
  | recoverer _ _ submitted =>
      rw [← reached, submitted] at decided
      simp at decided
  | gateway committed _ verified asks reference =>
      rw [reached] at asks
      exact ⟨_, reference, honest _ _ _ _ _ _ _ committed verified asks⟩

/-- A decided refund is a refund the gateway holds, with the same terms, and is what became of
it there. -/
def Agrees (gateway : MockGateway) (verdict : Verdict) (row : Refund) : Prop :=
  ∃ refund, gateway.lookupByKey row.id.toString = some refund ∧
    row.gatewayRef = some refund.id ∧ refund.amount = row.amountCents ∧
    refund.currency = row.currency ∧ row.status = verdict refund.id

theorem EngineRun.agrees_of_decided (run : EngineRun hmac trace state)
    (honest : Honest hmac verdict trace) (member : row ∈ state.world.rows)
    (decided : row.status = .settled ∨ row.status = .failed) :
    Agrees state.world.gateway verdict row := by
  rcases run.verdict_of_decided honest member decided with ⟨gatewayRef, recorded, status⟩
  have rowOk := run.worldOk.row row member
  rcases rowOk.ref gatewayRef recorded with ⟨refund, held, rfl⟩
  rcases rowOk.object refund held with ⟨amount, currency⟩
  rw [rowOk.key] at held
  exact ⟨refund, held, recorded, amount, currency, status.symm⟩

theorem mem_settledRows {rows : List Refund} {entry : String × Int64} :
    entry ∈ (settledRows rows).map Prod.snd ↔ ∃ row ∈ rows, row.status = .settled ∧
      row.gatewayRef = some entry.1 ∧ row.amountCents = entry.2 := by
  rw [List.mem_map]
  constructor
  · rintro ⟨listed, inside, rfl⟩
    rcases List.mem_filterMap.mp inside with ⟨row, member, entry⟩
    split at entry
    · rename_i gatewayRef recorded
      split at entry
      · rename_i settled
        cases entry
        exact ⟨row, member, settled, recorded, rfl⟩
      · cases entry
    · cases entry
  · rintro ⟨row, member, settled, recorded, amount⟩
    refine ⟨(row.id, entry), List.mem_filterMap.mpr ⟨row, member, ?_⟩, rfl⟩
    simp only [recorded, if_pos settled, amount]

/-- With no refund halfway, the settled refunds are what the gateway has paid out. -/
theorem EngineRun.settledRows_perm (run : EngineRun hmac trace state)
    (honest : Honest hmac verdict trace) (resolved : ∀ row ∈ state.world.rows, ¬row.Stuck) :
    ((settledRows state.world.rows).map Prod.snd).Perm (state.world.gateway.paidOut verdict) := by
  have ok := run.worldOk
  have distinct : ((settledRows state.world.rows).map Prod.snd).Nodup := by
    apply List.Nodup.of_map Prod.fst
    rw [List.map_map]
    exact settledRefs_nodup state.world.database.refunds
  rw [List.perm_ext_iff_of_nodup distinct ok.consistent.paidOut_nodup]
  rintro ⟨gatewayRef, amount⟩
  rw [mem_settledRows, MockGateway.mem_paidOut]
  constructor
  · rintro ⟨row, member, settled, recorded, rfl⟩
    rcases run.agrees_of_decided honest member (.inl settled) with
      ⟨refund, held, recorded', amount, _, status⟩
    cases recorded.symm.trans recorded'
    exact ⟨status.symm.trans settled, _, refund, held, rfl, amount⟩
  · rintro ⟨settled, key, refund, held, rfl, rfl⟩
    rcases ok.backed key refund held with ⟨row, member, rfl⟩
    have rowOk := ok.row row member
    have past := rowOk.past_of_held held
    have decided : row.status = .settled ∨ row.status = .failed := by
      have unstuck := resolved row member
      have live := run.not_canceled row member
      unfold Refund.Stuck at unstuck
      revert past unstuck live
      cases row.status <;> simp [Status.rank]
    rcases run.agrees_of_decided honest member decided with
      ⟨refund', held', recorded, amount, _, status⟩
    rw [rowOk.key] at held
    cases held.symm.trans held'
    exact ⟨row, member, status.trans settled, recorded, amount.symm⟩

end Decided

/-- In every state of every run in which the verified deliveries tell the truth, every decided
refund is what became of it at the gateway.  When no refund is left halfway, a settlement file
reconciles cleanly exactly when its last lines list what the gateway paid out, each reference
once. -/
theorem books_agree {hmac : Hmac} {trace : List EngineEvent} {state : EngineState}
    {verdict : Verdict} (run : EngineRun hmac trace state)
    (honest : Honest hmac verdict trace) :
    (∀ row ∈ state.world.rows, row.status = .settled ∨ row.status = .failed →
      Agrees state.world.gateway verdict row) ∧
    ((∀ row ∈ state.world.rows, ¬row.Stuck) → ∀ settlementFile call, ∃ result,
      (reconcile settlementFile).eval call state.world = some (.ok result, state.world) ∧
      (result.Clean ↔ ((lastByKey SettlementLine.gatewayRef settlementFile).map
        fun line => (line.gatewayRef, line.amountCents)).Perm
          (state.world.gateway.paidOut verdict))) := by
  constructor
  · intro row member decided
    exact run.agrees_of_decided honest member decided
  · intro resolved settlementFile call
    refine ⟨_, reconcile_eval settlementFile call state.world, ?_⟩
    have paid := run.settledRows_perm honest resolved
    refine (clean_iff_balances (settledRefs_nodup state.world.database.refunds)).trans ?_
    exact ⟨fun balances => balances.trans paid, fun lists => lists.trans paid.symm⟩

/-- After the recovery of the sample one refund is settled and the other fails. -/
def closing : List EngineEvent × EngineState :=
  ((engine sampleHmac).play NoCancel
    (uninterrupted 5 sampleDelivery 4 ++
      uninterrupted 6 (.handleWebhook declinedEvent [] (sign sampleHmac [] []) []) 4)
    ([], sampleUnsettled.2)).get (by decide +kernel)

theorem closing_continued :
    (engine sampleHmac).Run NoCancel sampleUnsettled.2 closing.1 closing.2 :=
  Machine.play_run .nil (Option.some_get _).symm

/-- The gateway pays out the first refund it holds and no other. -/
def sampleVerdict (gatewayRef : String) : Status :=
  if gatewayRef = sampleEvent.data.gatewayRef then .settled else .failed

/-- The event that a step delivers. -/
private def delivers? (step : EngineEvent) : Option WebhookEvent :=
  match callOf step with
  | some (_, .handleWebhook event _ _ _) => some event
  | _ => none

theorem closing_honest :
    Honest sampleHmac sampleVerdict (closing.1 ++ sampleUnsettled.1) := by
  have known : ∀ event ∈ (closing.1 ++ sampleUnsettled.1).filterMap delivers?,
      event = sampleEvent ∨ event = declinedEvent := by
    decide +kernel
  intro call event rawBody sig secret before status committed _ asks
  rcases known event (List.mem_filterMap.mpr ⟨_, committed, rfl⟩) with rfl | rfl
  · rcases asks with ⟨_, rfl⟩ | ⟨failed, _⟩
    · rfl
    · exact absurd failed (by decide)
  · rcases asks with ⟨settled, _⟩ | ⟨_, rfl⟩
    · exact absurd settled (by decide)
    · rfl

/-- The file that lists the one payment reconciles. -/
theorem books_agree_closing : ∃ result,
    (reconcile [⟨"re_mock_00000001", 150000⟩]).eval 7 closing.2.world =
      some (.ok result, closing.2.world) ∧ result.Clean := by
  rcases books_agree (sampleUnsettled_run.append closing_continued) closing_honest with
    ⟨_, reconciles⟩
  rcases reconciles (by decide +kernel) [⟨"re_mock_00000001", 150000⟩] 7 with
    ⟨result, evaluates, clean⟩
  exact ⟨result, evaluates, clean.mpr (by decide +kernel)⟩

/-! ## After a recovery -/

section Delivered

variable {hmac : Hmac} {older newer : List EngineEvent} {state final : EngineState}
variable {call : CallId} {event : WebhookEvent} {rawBody secret : Bytes} {sig : String}
variable {status : Status}

/-- A webhook that is applied after a reference has been recorded decides the refund, or finds it
decided. -/
theorem EngineRun.decided_of_applied (run : EngineRun hmac older state) {row : Refund}
    (member : row ∈ state.world.rows) (recorded : row.gatewayRef = some event.data.gatewayRef)
    (continued : (engine hmac).Run NoCancel state newer final)
    (started : .started call (.handleWebhook event rawBody sig secret) ∈ newer)
    (finished : .finished call (.handleWebhook event rawBody sig secret)
      (.ok (.webhook .applied)) ∈ newer ++ older)
    (asks : event.Asks status) :
    ∃ row' ∈ final.world.rows, Advances row row' ∧
      (row'.status = .settled ∨ row'.status = .failed) := by
  have whole := run.append continued
  rcases asks.update with ⟨update, reason, updates, decision⟩
  rcases whole.before_finished finished with ⟨earlier, _, _, _, latest, outcome⟩
  have behind := outcome _ (engineContract_upheld hmac) _ _ _ _ rfl
  rcases behind.2.2 rfl with ⟨_, _, committed, rest, _, isOwn, applies⟩
  rcases applies update reason updates with ⟨applied, rest', rfl⟩
  rw [isOwn] at latest
  have inNewer : .answered call (.handleWebhook event rawBody sig secret)
      (.sql (.applyMoved update reason)) (.ok ()) applied ∈ newer := by
    have listed : .answered call (.handleWebhook event rawBody sig secret)
        (.sql (.applyMoved update reason)) (.ok ()) applied ∈ own call (newer ++ older) := by
      rw [latest]
      exact List.mem_cons_of_mem _ (List.mem_cons_of_mem _ (List.mem_cons_self ..))
    rw [run.own_of_started continued started] at listed
    exact (mem_own.mp listed).1
  rcases continued.exists_step_of_mem inNewer with ⟨_, before, after, reached, step, _⟩
  have isBefore : before.world = applied := by
    cases step with
    | answer => rfl
  rcases (run.later reached).forward row member with ⟨found, foundIn, advances⟩
  rw [isBefore] at foundIn
  rcases List.filter_eq_cons_iff.mp latest with ⟨after₁, earlier₁, split₁, _, _, latest₁⟩
  rcases List.filter_eq_cons_iff.mp latest₁ with ⟨after₂, earlier₂, split₂, _, _, latest₂⟩
  have decides : decisionOf event.data.gatewayRef earlier₂
      (.answered call (.handleWebhook event rawBody sig secret) (.sql .commit) (.ok ())
        committed) = some status :=
    decisionOf_commit latest₂ decision foundIn (advances.gatewayRef _ recorded)
  rcases exists_fate_of_decision (after₁ ++ .finished call (.handleWebhook event rawBody sig secret)
    (.ok (.webhook .applied)) :: after₂) decides with ⟨reached, fated⟩
  rw [List.append_assoc, List.cons_append, ← split₂, ← split₁] at fated
  rcases (run.later continued).forward row member with ⟨row', member', advances'⟩
  have isReached := whole.status_eq member' (advances'.gatewayRef _ recorded)
  rw [fated, Option.getD_some] at isReached
  have terminal := ((whole.fated _).1 reached fated).1
  have live := whole.not_canceled row' member'
  refine ⟨row', member', advances', ?_⟩
  rw [isReached] at live ⊢
  revert terminal live
  cases reached <;> simp [Status.isTerminal]

end Delivered

/-- Once a recovery has reported, a refund it found stuck, and about which the gateway was not
silent, is on the gateway's books under a reference that its row has.  The first webhook that asks
for a decision under that reference and is applied after the report decides it, as the gateway
did, whatever else runs at the same time. -/
theorem recovered_then_decided {hmac : Hmac} {older newer : List EngineEvent}
    {state final : EngineState} {call : CallId} {report : RecoveryReport} {verdict : Verdict}
    (run : EngineRun hmac older state)
    (finished : .finished call .recoverSubmitted (.ok (.recovered report)) ∈ older)
    (continued : (engine hmac).Run NoCancel state newer final)
    (honest : Honest hmac verdict (newer ++ older)) :
    ∃ stuck before,
      .answered call .recoverSubmitted (.sql .selectStuck) (.ok stuck) before ∈ older ∧
      ∀ row ∈ before.rows, row.Stuck → ¬Excused older call row.id →
        ∃ refund, state.world.gateway.lookupByKey row.id.toString = some refund ∧
          (∃ placed ∈ state.world.rows, placed.id = row.id ∧
            placed.gatewayRef = some refund.id ∧ refund.amount = placed.amountCents ∧
            refund.currency = placed.currency) ∧
          ∀ caller event rawBody sig secret status, event.data.gatewayRef = refund.id →
            event.Asks status →
            .started caller (.handleWebhook event rawBody sig secret) ∈ newer →
            .finished caller (.handleWebhook event rawBody sig secret)
              (.ok (.webhook .applied)) ∈ newer →
            ∃ row' ∈ final.world.rows, row'.id = row.id ∧ Agrees final.world.gateway verdict row' ∧
              (row'.status = .settled ∨ row'.status = .failed) := by
  rcases run.walked_of_finished finished with ⟨_, stuck, before, ⟨⟩, selected, walked⟩
  refine ⟨stuck, before, selected, ?_⟩
  intro row member live heard
  rcases run.placed_or_excused_of_stuck selected walked member live.symm with placed | excused
  case inr => exact (heard excused).elim
  rcases placed with ⟨placed, inside, refund, same, _, recorded, held, amount, currency⟩
  refine ⟨refund, held, ⟨placed, inside, same, recorded, amount, currency⟩, ?_⟩
  intro caller event rawBody sig secret status named asks started applied
  rw [← named] at recorded
  rcases run.decided_of_applied inside recorded continued started
    (List.mem_append_left _ applied) asks with ⟨row', member', advances, decided⟩
  refine ⟨row', member', advances.id.trans same, ?_, decided⟩
  exact (run.append continued).agrees_of_decided honest member' decided

/-- The rows a step finds, if it selects the stuck ones. -/
private def selectsFrom? : EngineEvent → Option (List Refund)
  | .answered _ _ (.sql .selectStuck) _ before => some before.rows
  | _ => none

/-- The call whose gateway call a step leaves unanswered. -/
private def silences? : EngineEvent → Option CallId
  | .answered call _ (.createRefund _ _ _) .dropped _
  | .answered call _ (.createRefund _ _ _) .timedOut _ => some call
  | _ => none

/-- The call a step starts. -/
private def starts? : EngineEvent → Option (CallId × Operation)
  | .started call operation => some (call, operation)
  | _ => none

/-- The small refund of the sample is recovered, and fails under the reference it then has. -/
theorem recovered_then_decided_closing : ∃ row' ∈ closing.2.world.rows,
    row'.id = ⟨8⟩ ∧ row'.status = .failed ∧ Agrees closing.2.world.gateway sampleVerdict row' := by
  have finished : .finished 4 .recoverSubmitted (.ok (.recovered
      { alreadyAtGateway := 1, resubmitted := 1, walked := 2 })) ∈ sampleUnsettled.1 :=
    finished_of_ending (by decide +kernel)
  have delivered : .started 6 (.handleWebhook declinedEvent [] (sign sampleHmac [] []) []) ∈
      closing.1 := by
    have listed : (6, .handleWebhook declinedEvent [] (sign sampleHmac [] []) []) ∈
        closing.1.filterMap starts? := by
      decide +kernel
    rcases List.mem_filterMap.mp listed with ⟨step, inside, starts⟩
    cases step with
    | started =>
        cases starts
        exact inside
    | answered | failed | finished | died | acted => cases starts
  have applied : .finished 6 (.handleWebhook declinedEvent [] (sign sampleHmac [] []) [])
      (.ok (.webhook .applied)) ∈ closing.1 :=
    finished_of_ending (by decide +kernel)
  have found : ∀ rows ∈ sampleUnsettled.1.filterMap selectsFrom?,
      ∃ row ∈ rows, row.id = ⟨8⟩ ∧ row.Stuck := by
    decide +kernel
  have heard : 4 ∉ sampleUnsettled.1.filterMap silences? := by
    decide +kernel
  rcases recovered_then_decided sampleUnsettled_run finished closing_continued closing_honest with
    ⟨stuck, before, selected, decides⟩
  rcases found before.rows (List.mem_filterMap.mpr ⟨_, selected, rfl⟩) with
    ⟨row, member, same, isStuck⟩
  have answered : ¬Excused sampleUnsettled.1 4 row.id := by
    rintro ⟨_, _, _, _, asked, ⟨rfl, _⟩ | ⟨rfl, _⟩⟩
    · exact heard (List.mem_filterMap.mpr ⟨_, asked, rfl⟩)
    · exact heard (List.mem_filterMap.mpr ⟨_, asked, rfl⟩)
  rcases decides row member isStuck answered with ⟨refund, held, _, settles⟩
  have issued : (sampleUnsettled.2.world.gateway.lookupByKey (⟨8⟩ : Uuid).toString).map
      GatewayRefund.id = some declinedEvent.data.gatewayRef := by
    decide +kernel
  rw [same] at held settles
  rw [held, Option.map_some, Option.some.injEq] at issued
  rcases settles 6 declinedEvent [] (sign sampleHmac [] []) [] .failed issued.symm
    (.inr ⟨rfl, rfl⟩) delivered applied with ⟨row', member', same', agrees, _⟩
  have failed : ∀ other ∈ closing.2.world.rows, other.id = ⟨8⟩ → other.status = .failed := by
    decide +kernel
  exact ⟨row', member', same', failed row' member' same', agrees⟩

end RefundEngine
