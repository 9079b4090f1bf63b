import RefundEngine.Invariant.Run

/-!
# Event ids

The table `webhook_events` is the list of the ids that deliveries have inserted, each by one
delivery.  So a delivery that is answered `Duplicate` comes after the one that inserted the
id, and only that one goes on to apply the event.
-/

namespace RefundEngine

open Interleaving (CallId Event own mem_own eq_of_own_length)

/-- The event id that a step inserts. -/
def insertedId : EngineEvent → Option String
  | .answered _ _ (.sql (.insertWebhookEvent id)) (.ok (some _)) _ => some id
  | _ => none

/-- The delivery has inserted the event id. -/
def Inserted (call : CallId) (operation : Operation) (event : WebhookEvent)
    (trace : List EngineEvent) : Prop :=
  ∃ seen, Answered call operation trace (.sql (.insertWebhookEvent event.id)) (.ok (some seen))

section Step

variable {hmac : Hmac} {state next : EngineState} {event : EngineEvent}

/-- A step adds the id it inserts to the table. -/
structure Recorded (event : EngineEvent) (before after : World) : Prop where
  table : after.database.webhookEvents =
    before.database.webhookEvents ++ (insertedId event).toList
  unseen : ∀ id, insertedId event = some id → id ∉ before.database.webhookEvents

private theorem Recorded.of_eq {before after : World} (other : insertedId event = none)
    (same : after.database.webhookEvents = before.database.webhookEvents) :
    Recorded event before after where
  table := by rw [other, same, Option.toList_none, List.append_nil]
  unseen id inserts := by cases other.symm.trans inserts

theorem recorded_of_step (step : (engine hmac).Step state event next) :
    Recorded event state.world next.world := by
  have effect := stepEffect step
  generalize next.world = after at effect
  cases effect with
  | same tables other =>
      refine .of_eq ?_ tables.webhookEvents
      unfold insertedId
      split
      · exact (other _ _ _ _ _ rfl).elim
      · rfl
  | executed effect =>
      cases effect with
      | same tables other =>
          refine .of_eq ?_ tables.webhookEvents
          unfold insertedId
          split
          · rename_i same
            cases same
            exact (other _ rfl).elim
          · rfl
      | conflict | updated => exact .of_eq rfl rfl
      | inserted unseen =>
          constructor
          · rfl
          · intro id inserts
            cases inserts
            exact unseen
      | committed opened committed =>
          exact .of_eq rfl (Database.webhookEvents_of_commit committed)
  | requested | configured | charged | canceled => exact .of_eq rfl rfl

end Step

namespace EngineRun

variable {hmac : Hmac} {trace : List EngineEvent} {state : EngineState}

/-- The table lists the ids that were inserted, oldest first. -/
theorem webhookEvents_eq (run : EngineRun hmac trace state) :
    state.world.database.webhookEvents = (trace.filterMap insertedId).reverse := by
  apply run.preserves fun trace state =>
    state.world.database.webhookEvents = (trace.filterMap insertedId).reverse
  · intro charges config now
    rfl
  · intro trace state event next run listed step permitted
    rw [(recorded_of_step step).table, listed]
    cases inserts : insertedId event with
    | none => rw [List.filterMap_cons_none inserts, Option.toList_none, List.append_nil]
    | some id =>
        rw [List.filterMap_cons_some inserts, List.reverse_cons, Option.toList_some]

theorem insertedIds_nodup (run : EngineRun hmac trace state) :
    (trace.filterMap insertedId).Nodup := by
  apply run.preserves fun trace _ => (trace.filterMap insertedId).Nodup
  · intro charges config now
    exact List.nodup_nil
  · intro trace state event next run nodup step permitted
    cases inserts : insertedId event with
    | none =>
        rw [List.filterMap_cons_none inserts]
        exact nodup
    | some id =>
        rw [List.filterMap_cons_some inserts, List.nodup_cons]
        constructor
        · have unseen := (recorded_of_step step).unseen id inserts
          rw [run.webhookEvents_eq, List.mem_reverse] at unseen
          exact unseen
        · exact nodup

/-- One delivery inserts an event's id. -/
theorem inserted_once (run : EngineRun hmac trace state) {call call' : CallId}
    {operation operation' : Operation} {event : WebhookEvent}
    (inserted : Inserted call operation event trace)
    (inserted' : Inserted call' operation' event trace) :
    call = call' ∧ operation = operation' := by
  rcases inserted with ⟨seen, before, member⟩
  rcases inserted' with ⟨seen', before', member'⟩
  have same := Keyed.eq_of_nodup_filterMap run.insertedIds_nodup member member' rfl rfl
  cases same
  exact ⟨rfl, rfl⟩

theorem inserted_of_seen (run : EngineRun hmac trace state) {event : WebhookEvent}
    (seen : event.id ∈ state.world.database.webhookEvents) :
    ∃ call operation, Inserted call operation event trace := by
  rw [run.webhookEvents_eq, List.mem_reverse] at seen
  rcases List.mem_filterMap.mp seen with ⟨step, member, inserts⟩
  unfold insertedId at inserts
  split at inserts
  · cases inserts
    exact ⟨_, _, _, _, member⟩
  · cases inserts

variable {call : CallId} {operation : Operation} {newer earlier : List EngineEvent}

theorem seen_of_conflict (run : EngineRun hmac trace state) {id : String} {before : World}
    (member : .answered call operation (.sql (.insertWebhookEvent id)) (.ok none) before ∈
      trace) : id ∈ state.world.database.webhookEvents := by
  revert member
  apply run.preserves fun trace state =>
    .answered call operation (.sql (.insertWebhookEvent id)) (.ok none) before ∈ trace →
      id ∈ state.world.database.webhookEvents
  · intro charges config now member
    cases member
  · intro trace state event next run kept step permitted member
    rw [(recorded_of_step step).table]
    apply List.mem_append_left
    rcases List.mem_cons.mp member with rfl | earlier
    · cases step with
      | answer running executed =>
          simp only [engine, Command.execute, World.execute, World.insertWebhookEvent] at executed
          split at executed
          · assumption
          · cases executed
    · exact kept earlier

/-- An id is inserted by a delivery that has verified its signature. -/
theorem delivery_of_inserted (run : EngineRun hmac trace state) {event : WebhookEvent}
    (inserted : Inserted call operation event trace) :
    ∃ delivered rawBody sig secret,
      operation = .handleWebhook delivered rawBody sig secret ∧
      verifySignature hmac rawBody sig secret = true ∧ delivered.id = event.id ∧
      .started call operation ∈ trace := by
  rcases inserted with ⟨seen, before, member⟩
  rcases List.append_of_mem member with ⟨newer, earlier, rfl⟩
  rcases run.licensed rfl with ⟨delivered, rawBody, sig, secret, isDelivery, verified, same, behind⟩
  have started : .started call operation ∈ own call earlier := by
    rw [behind]
    exact List.mem_singleton_self _
  refine ⟨delivered, rawBody, sig, secret, isDelivery, verified, same.symm, ?_⟩
  exact List.mem_append_right _ (List.mem_cons_of_mem _ (mem_own.mp started).1)

/-- Once a delivery has returned, the id of its event has been inserted. -/
theorem inserted_of_returned (run : EngineRun hmac trace state) {event : WebhookEvent}
    {rawBody secret : Bytes} {sig : String} {result : WebhookResult}
    (returned : .finished call (.handleWebhook event rawBody sig secret)
      (.ok (.webhook result)) ∈ trace) :
    ∃ caller operation, Inserted caller operation event trace := by
  rcases List.append_of_mem returned with ⟨newer, earlier, rfl⟩
  have inTrace : ∀ step ∈ own call earlier,
      step ∈ newer ++ .finished call (.handleWebhook event rawBody sig secret)
        (.ok (.webhook result)) :: earlier := by
    intro step member
    exact List.mem_append_right _ (List.mem_cons_of_mem _ (mem_own.mp member).1)
  rcases run.outcome rfl event rawBody sig secret rfl with ⟨_, duplicate, applied⟩
  cases result with
  | applied =>
      rcases applied rfl with ⟨seen, before, _, _, member, _⟩
      exact ⟨call, _, seen, before, inTrace _ member⟩
  | duplicate =>
      rcases duplicate rfl with ⟨before, member⟩
      exact run.inserted_of_seen (run.seen_of_conflict (inTrace _ member))

variable {update : RefundUpdate} {reason : Option String} {answer : Except DbError Unit}
variable {before : World}

/-- An update is applied by the delivery that has inserted the id of its event. -/
theorem delivery_of_applied (run : EngineRun hmac trace state)
    (split : trace = newer ++
      .answered call operation (.sql (.applyMoved update reason)) answer before :: earlier) :
    ∃ event rawBody sig secret,
      operation = .handleWebhook event rawBody sig secret ∧
      verifySignature hmac rawBody sig secret = true ∧
      event.update = some (update, reason) ∧ Inserted call operation event trace ∧
      .started call operation ∈ trace ∧ (own call earlier).length = 3 := by
  rcases run.licensed split with
    ⟨event, rawBody, sig, secret, seen, before, began, isDelivery, verified, updates, behind⟩
  have inTrace : ∀ step ∈ own call earlier, step ∈ trace := by
    intro step member
    rw [split]
    exact List.mem_append_right _ (List.mem_cons_of_mem _ (mem_own.mp member).1)
  rw [behind] at inTrace
  refine ⟨event, rawBody, sig, secret, isDelivery, verified, updates, ?_, ?_, ?_⟩
  · exact ⟨seen, before, inTrace _ (by simp)⟩
  · exact inTrace _ (by simp)
  · rw [behind]
    rfl

/-- A call applies one update, once. -/
theorem applied_once (run : EngineRun hmac trace state) {operation' : Operation}
    {update' : RefundUpdate} {reason' : Option String} {answer' : Except DbError Unit}
    {before' : World}
    (member : .answered call operation (.sql (.applyMoved update reason)) answer before ∈ trace)
    (member' : .answered call operation' (.sql (.applyMoved update' reason')) answer' before' ∈
      trace) : before = before' := by
  rcases List.append_of_mem member with ⟨newer, earlier, split⟩
  rcases List.append_of_mem member' with ⟨newer', earlier', split'⟩
  rcases run.delivery_of_applied split with ⟨_, _, _, _, _, _, _, _, _, length⟩
  rcases run.delivery_of_applied split' with ⟨_, _, _, _, _, _, _, _, _, length'⟩
  cases eq_of_own_length split split' rfl rfl (length.trans length'.symm)
  rfl

end EngineRun

end RefundEngine
