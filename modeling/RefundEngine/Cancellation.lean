import RefundEngine.Invariant.Run

/-!
# When a cancellation is final

A canceled refund stays canceled, and money moves for it only through a call that ran its
update to `submitted` before the cancellation, as long as no cancellation comes between a
call's reading of the refund and that update.  The calls do not look at whether the update
found its row, so a cancellation in between goes unnoticed.
-/

namespace RefundEngine

open Interleaving (CallId Event Machine own mem_own)

/-- A step issues a new object under a key. -/
def Issues (key : String) : EngineEvent → Prop
  | .answered _ _ (.createRefund amount currency asked) _ before =>
      asked = key ∧
        (before.gateway.createRefund amount currency asked).2.issuedCount ≠
          before.gateway.issuedCount
  | _ => False

instance (key : String) (event : EngineEvent) : Decidable (Issues key event) :=
  match event with
  | .answered _ _ (.createRefund _ _ _) _ _ => inferInstanceAs (Decidable (_ ∧ _))
  | .answered _ _ (.sql _) _ _ | .answered _ _ (.lookupByKey _) _ _ => isFalse id
  | .started .. | .failed .. | .finished .. | .died .. | .acted .. => isFalse id

/-- From a canceled row on: it stays canceled, and only calls that had run their update to
`submitted` issue a refund for it. -/
def CancellationFinal (trace : List EngineEvent) (row : Refund) (more : List EngineEvent)
    (later : World) : Prop :=
  (∃ row' ∈ later.rows, row'.id = row.id ∧ row'.status = .canceled) ∧
    ∀ event ∈ more, ∀ call, event.caller = some call → Issues row.id.toString event →
      Marked (own call trace) row.id

section Run

variable {hmac : Hmac} {charges : ChargeTable} {config : MockConfig} {now : Timestamp}
variable {trace more : List EngineEvent} {state next later : EngineState}

/-- A call that runs its update to `submitted` finds the row as it had read it: not
canceled. -/
theorem live_of_marking
    (run : (engine hmac).Run Undisturbed (initialState charges config now) trace state)
    {call : CallId} {operation : Operation} {refundId : Uuid} {answer : Except DbError Unit}
    {before : World}
    (step : (engine hmac).Step state
      (.answered call operation (.sql (.updateRefunds (.markSubmitted refundId))) answer before)
      next) :
    ∀ row ∈ state.world.rows, row.id = refundId → row.status ≠ .canceled := by
  rcases (engineContract_upheld hmac).permits (fun _ => rfl) run step with ⟨live, unmarked⟩
  apply (invariant_of_run run).1.hand call refundId
  refine ⟨live.reads, unmarked, ?_⟩
  intro event member
  rcases mem_own.mp member with ⟨inTrace, mine⟩
  apply run.no_end_of_inProgress _ event inTrace mine
  cases step with
  | answer running executed =>
      rw [running]
      trivial

/-- A refund is issued only by calls that have run their update to `submitted`. -/
theorem marked_of_issues
    (run : (engine hmac).Run Undisturbed (initialState charges config now) trace state)
    {event : EngineEvent} (step : (engine hmac).Step state event next) {call : CallId}
    {refundId : Uuid} (taken : event.caller = some call)
    (issues : Issues refundId.toString event) :
    ∃ operation, Answered call operation (own call trace)
      (.sql (.updateRefunds (.markSubmitted refundId))) (.ok ()) := by
  have permits := (engineContract_upheld hmac).permits (fun _ => rfl) run step
  cases step with
  | @answer call operation command =>
      cases taken
      cases command with
      | createRefund amount currency key =>
          rcases issues with ⟨rfl, _⟩
          rcases permits with ⟨other, same, _, marked, _⟩
          cases Uuid.toString_injective same
          exact ⟨_, marked⟩
      | _ => exact issues.elim
  | start | fail | finish | die | act => exact issues.elim

/-- A cancellation is final in every run in which no refund is canceled while a call has it
in hand. -/
theorem cancellation_final
    (run : (engine hmac).Run Undisturbed (initialState charges config now) trace state)
    {row : Refund} (member : row ∈ state.world.rows) (canceled : row.status = .canceled)
    (continued : (engine hmac).Run (fun since => Undisturbed (since ++ trace)) state more later) :
    CancellationFinal trace row more later.world := by
  have stays : ∀ {since : List EngineEvent} {reached : EngineState},
      (engine hmac).Run (fun since => Undisturbed (since ++ trace)) state since reached →
      ∃ row' ∈ reached.world.rows, row'.id = row.id ∧ row'.status = .canceled := by
    intro since reached continued
    rcases (later_of_run run continued).forward row member with ⟨row', member', advances⟩
    refine ⟨row', member', advances.id, ?_⟩
    rw [← canceled]
    apply advances.status_of_isTerminal
    rw [canceled]
    rfl
  constructor
  · exact stays continued
  · intro event eventIn call taken issues
    rcases continued.exists_step_of_mem eventIn with ⟨since, reached, after, earlier, step, _⟩
    rcases marked_of_issues (run.append earlier) step taken issues with
      ⟨operation, before, markedIn⟩
    rcases mem_own.mp markedIn with ⟨inTrace, mine⟩
    rcases List.mem_append.mp inTrace with afterwards | before'
    · -- Marked after the cancellation: then the call would have found the row live.
      rcases earlier.exists_step_of_mem afterwards with
        ⟨since', reached', after', earlier', marking, _⟩
      rcases stays earlier' with ⟨row', member', same, canceled'⟩
      exact (live_of_marking (run.append earlier') marking row' member' same canceled').elim
    · exact ⟨_, mem_own.mpr ⟨before', mine⟩, rfl⟩

end Run

/-- A small refund is requested, something happens in between, and it is canceled. -/
def cancelAfter (between : List (Machine.Label Operation Environment)) :
    List (Machine.Label Operation Environment) :=
  uninterrupted 0 (.requestRefund ⟨8⟩ sampleCharge.id 2000 "EUR" "alice" none) 6 ++
    between ++ [.act (.cancel ⟨8⟩)]

/-- Nobody has read the refund when it is canceled. -/
def canceledInTime : List EngineEvent × EngineState :=
  ((engine sampleHmac).play Undisturbed (cancelAfter [])
    ([], initialState sampleCharges {} 10)).get (by decide +kernel)

/-- After the cancellation the refund is submitted and recovery runs. -/
def passedBy : List EngineEvent × EngineState :=
  ((engine sampleHmac).play (fun since => Undisturbed (since ++ canceledInTime.1))
    (uninterrupted 1 (.submitRefund ⟨8⟩) 1 ++ uninterrupted 2 .recoverSubmitted 1)
    ([], canceledInTime.2)).get (by decide +kernel)

theorem cancellation_final_inTime :
    ∃ row ∈ canceledInTime.2.world.rows,
      CancellationFinal canceledInTime.1 row passedBy.1 passedBy.2.world := by
  have exists_row : ∃ row ∈ canceledInTime.2.world.rows, row.status = .canceled := by
    decide +kernel
  rcases exists_row with ⟨row, member, canceled⟩
  refine ⟨row, member, ?_⟩
  exact cancellation_final (Machine.play_run .nil (Option.some_get _).symm) member canceled
    (Machine.play_run .nil (Option.some_get _).symm)

/-- A call of `submit_refund` has read the refund when it is canceled. -/
def canceledInBetween : List EngineEvent × EngineState :=
  ((engine sampleHmac).play (fun _ _ => True)
    (cancelAfter [.start 1 (.submitRefund ⟨8⟩), .execute 1])
    ([], initialState sampleCharges {} 10)).get (by decide +kernel)

/-- After the cancellation the call goes on to the gateway. -/
def issuedAnyway : List EngineEvent × EngineState :=
  ((engine sampleHmac).play (fun _ _ => True) [.execute 1, .execute 1, .execute 1]
    ([], canceledInBetween.2)).get (by decide +kernel)

/-- A cancellation in between does not stop the money. -/
theorem cancellation_not_final :
    ¬∀ (hmac : Hmac) (charges : ChargeTable) (config : MockConfig) (now : Timestamp)
      (trace more : List EngineEvent) (state later : EngineState) (row : Refund),
      (engine hmac).Run (fun _ _ => True) (initialState charges config now) trace state →
      row ∈ state.world.rows → row.status = .canceled →
      (engine hmac).Run (fun _ _ => True) state more later →
      CancellationFinal trace row more later.world := by
  intro final
  have exists_row : ∃ row ∈ canceledInBetween.2.world.rows,
      row.status = .canceled ∧ row.id = ⟨8⟩ := by
    decide +kernel
  rcases exists_row with ⟨row, member, canceled, same⟩
  have before : (engine sampleHmac).Run (fun _ _ => True)
      (initialState sampleCharges {} 10) canceledInBetween.1
      canceledInBetween.2 :=
    Machine.play_run .nil (Option.some_get _).symm
  have after : (engine sampleHmac).Run (fun _ _ => True) canceledInBetween.2 issuedAnyway.1
      issuedAnyway.2 :=
    Machine.play_run .nil (Option.some_get _).symm
  have issued : ∃ event ∈ issuedAnyway.1, event.caller = some 1 ∧
      Issues (⟨8⟩ : Uuid).toString event := by
    decide +kernel
  rcases issued with ⟨event, eventIn, taken, issues⟩
  rw [← same] at issues
  have marked := (final _ _ _ _ _ _ _ _ row before member canceled after).2 event eventIn 1
    taken issues
  rw [same] at marked
  revert marked
  decide +kernel

end RefundEngine
