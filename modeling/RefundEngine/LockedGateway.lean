import RefundEngine.Gateway
import RefundEngine.Interleaving.History
import RefundEngine.Interleaving.Solo

/-!
# The mock gateway, lock by lock

The calls of the mock gateway at the granularity of its locked blocks: each takes one
mutex, does one thing and lets go.  The check for a key and the insert of a refund are two of
them, so two calls for one key may both find nothing; as long as they do not, the gateway
dedupes.
-/

namespace RefundEngine

open Interleaving (CallId Contract Machine Program own own_cons_self own_cons_other mem_own)

/-- What the gateway does while it holds one of its mutexes. -/
inductive LockedBlock where
  | readConfig
  | writeConfig (config : MockConfig)
  | getStored (key : String)
  | nextRef
  | insertStored (key : String) (refund : GatewayRefund)
  | countIssued
  deriving DecidableEq

abbrev LockedBlock.Answer : LockedBlock → Type
  | .readConfig => MockConfig
  | .getStored _ => Option GatewayRefund
  | .nextRef => String
  | .writeConfig _ | .insertStored _ _ | .countIssued => Unit

def LockedBlock.execute (gateway : MockGateway) : (block : LockedBlock) → block.Answer × MockGateway
  | .readConfig => (gateway.config, gateway)
  | .writeConfig config => ((), gateway.setConfig config)
  | .getStored key => (gateway.store.lookup key, gateway)
  | .nextRef => gateway.nextRef
  | .insertStored key refund =>
      ((), { gateway with store := gateway.store.insert key refund })
  | .countIssued => ((), { gateway with issued := gateway.issued + 1 })

/-- Enter one locked block. -/
def locked (block : LockedBlock) : Program LockedBlock.Answer block.Answer := .call block .ret

/-- Create a refund, or return the one already held under the key. -/
def createRefundLocked (amount : Int64) (currency idempotencyKey : String) :
    Program LockedBlock.Answer GatewayOutcome := do
  let config ← locked .readConfig
  match ← locked (.getStored idempotencyKey) with
  | some existing => return if config.dropResponse then .dropped else .accepted existing
  | none =>
      if config.timeOut then
        return .timedOut
      let id ← locked .nextRef
      let refund : GatewayRefund := { id, amount, currency, idempotencyKey }
      locked (.insertStored idempotencyKey refund)
      locked .countIssued
      return if config.dropResponse then .dropped else .accepted refund

/-- Look a refund up by idempotency key without creating one. -/
def lookupByKeyLocked (idempotencyKey : String) :
    Program LockedBlock.Answer (Option GatewayRefund) :=
  locked (.getStored idempotencyKey)

/-- Reconfigure behaviour mid-flight. -/
def setConfigLocked (config : MockConfig) : Program LockedBlock.Answer Unit :=
  locked (.writeConfig config)

/-- A call of the gateway with its arguments. -/
inductive GatewayCall where
  | createRefund (amount : Int64) (currency idempotencyKey : String)
  | lookupByKey (idempotencyKey : String)
  | setConfig (config : MockConfig)
  deriving DecidableEq

/-- What a call of the gateway returns. -/
inductive GatewayReply where
  | outcome (outcome : GatewayOutcome)
  | found (refund : Option GatewayRefund)
  | configured
  deriving DecidableEq

def GatewayCall.program : GatewayCall → Program LockedBlock.Answer GatewayReply
  | .createRefund amount currency idempotencyKey => do
      return .outcome (← createRefundLocked amount currency idempotencyKey)
  | .lookupByKey idempotencyKey => do
      return .found (← lookupByKeyLocked idempotencyKey)
  | .setConfig config => do
      setConfigLocked config
      return .configured

/-- One gateway and its callers.  Nothing fails, and nothing else touches it. -/
def mockGateway : Machine LockedBlock.Answer MockGateway GatewayCall GatewayReply Empty where
  program := GatewayCall.program
  execute _ block gateway := some (block.execute gateway)
  failure _ := none
  close _ gateway := gateway
  act action _ := action.elim

abbrev GatewayState :=
  Interleaving.State LockedBlock.Answer MockGateway GatewayCall GatewayReply

abbrev GatewayEvent :=
  Interleaving.Event LockedBlock.Answer MockGateway GatewayCall GatewayReply Empty

/-- A gateway that has issued nothing, and no call started. -/
def freshGateway (config : MockConfig) : GatewayState where
  world := .withConfig config
  calls _ := .idle

/-- A call that nobody interrupts does what it does in one step. -/
theorem eval_createRefundLocked (call : CallId) (gateway : MockGateway) (amount : Int64)
    (currency idempotencyKey : String) :
    (createRefundLocked amount currency idempotencyKey).eval (mockGateway.execute call) gateway =
      some (gateway.createRefund amount currency idempotencyKey) := by
  simp only [createRefundLocked, locked, Program.call_bind, Program.ret_bind, Program.eval,
    mockGateway, LockedBlock.execute, MockGateway.createRefund]
  cases held : gateway.store.lookup idempotencyKey with
  | some existing => rfl
  | none =>
      cases timeOut : gateway.config.timeOut with
      | true => rfl
      | false => rfl

/-! ## Runs -/

/-- The key for which a call will insert a refund: it has found none, does not time out, and
has yet to insert one. -/
def issuing : List GatewayEvent → Option String
  | .answered _ (.createRefund _ _ idempotencyKey) (.getStored _) none _ ::
      .answered _ _ .readConfig config _ :: _ =>
      if config.timeOut then none else some idempotencyKey
  | .answered _ (.createRefund _ _ idempotencyKey) .nextRef _ _ :: _ => some idempotencyKey
  | _ => none

/-- Nothing dies. -/
def Undying (_ : List GatewayEvent) : GatewayEvent → Prop
  | .died _ _ => False
  | _ => True

instance (trace : List GatewayEvent) (event : GatewayEvent) : Decidable (Undying trace event) :=
  match event with
  | .died _ _ => isFalse id
  | .started _ _ | .answered _ _ _ _ _ | .failed _ _ _ | .finished _ _ _ | .acted _ _ =>
      isTrue trivial

/-- No step makes a call insert a refund for a key for which another one is about to. -/
def Uncrossed (trace : List GatewayEvent) (event : GatewayEvent) : Prop :=
  ∀ call ∈ event.caller, ∀ other ∈ trace.filterMap Interleaving.Event.caller, other ≠ call →
    issuing (own other trace) ≠ none →
    issuing (own other trace) ≠ issuing (event :: own call trace)

instance (trace : List GatewayEvent) (event : GatewayEvent) :
    Decidable (Uncrossed trace event) :=
  inferInstanceAs (Decidable (∀ call ∈ event.caller, _))

@[simp] theorem issuing_insertStored {caller : CallId} {call : GatewayCall} {key : String}
    {refund : GatewayRefund} {answer : Unit} {before : MockGateway} {events : List GatewayEvent} :
    issuing (.answered caller call (.insertStored key refund) answer before :: events) = none := by
  cases call <;> rfl

@[simp] theorem issuing_countIssued {caller : CallId} {call : GatewayCall} {answer : Unit}
    {before : MockGateway} {events : List GatewayEvent} :
    issuing (.answered caller call .countIssued answer before :: events) = none := by
  cases call <;> rfl

/-- A run of the gateway in which nothing dies. -/
def GatewayRun (trace : List GatewayEvent) (state : GatewayState) : Prop :=
  ∃ config, mockGateway.Run Undying (freshGateway config) trace state

/-- A run in which no two calls are about to insert a refund for the same key. -/
def UncrossedRun (trace : List GatewayEvent) (state : GatewayState) : Prop :=
  ∃ config, mockGateway.Run (fun trace event => Undying trace event ∧ Uncrossed trace event)
    (freshGateway config) trace state

/-- The refunds inserted under a key, the newest first. -/
def insertions (idempotencyKey : String) (trace : List GatewayEvent) : List GatewayRefund :=
  trace.filterMap fun
    | .answered _ _ (.insertStored key refund) _ _ =>
        if key = idempotencyKey then some refund else none
    | _ => none

/-- A call has returned the refund for the key. -/
def Returned (trace : List GatewayEvent) (idempotencyKey : String) (refund : GatewayRefund) :
    Prop :=
  (∃ call amount currency, .finished call (.createRefund amount currency idempotencyKey)
    (.outcome (.accepted refund)) ∈ trace) ∨
  ∃ call, .finished call (.lookupByKey idempotencyKey) (.found (some refund)) ∈ trace

/-- The last thing the call did was to insert a refund. -/
def HasInserted : List GatewayEvent → Prop
  | .answered _ _ (.insertStored _ _) _ _ :: _ => True
  | _ => False

theorem none_of_issuing {caller : CallId} {amount : Int64} {currency idempotencyKey : String}
    {stored key : String} {answer : Option GatewayRefund} {before : MockGateway}
    {events : List GatewayEvent}
    (issues : issuing (.answered caller (.createRefund amount currency idempotencyKey)
      (.getStored stored) answer before :: events) = some key) :
    answer = none ∧ idempotencyKey = key := by
  unfold issuing at issues
  split at issues
  · rename_i same
    split at issues
    · cases issues
    · cases same
      cases issues
      exact ⟨rfl, rfl⟩
  · rename_i same
    cases same
  · cases issues

theorem not_inserted_of_issuing {events : List GatewayEvent} {key : String}
    (issues : issuing events = some key) : ¬HasInserted events := by
  cases events with
  | nil => exact id
  | cons event rest =>
      cases event with
      | answered caller call block answer before =>
          cases block with
          | insertStored =>
              rw [issuing_insertStored] at issues
              cases issues
          | _ => exact id
      | _ => exact id

/-- What each locked block rests on, and each result. -/
def gatewayContract : Contract mockGateway where
  license _ call events block :=
    match block with
    | .getStored key => ¬HasInserted events ∧
        ∀ amount currency idempotencyKey, call = .createRefund amount currency idempotencyKey →
          key = idempotencyKey
    | .nextRef => ∃ amount currency idempotencyKey,
        call = .createRefund amount currency idempotencyKey ∧
          issuing events = some idempotencyKey
    | .insertStored key _ => ∃ amount currency, call = .createRefund amount currency key ∧
        issuing events = some key
    | .countIssued => HasInserted events
    | .readConfig | .writeConfig _ => ¬HasInserted events
  outcome caller call events reply := ¬HasInserted events ∧
    (∀ amount currency key refund, call = .createRefund amount currency key →
      reply = .outcome (.accepted refund) →
      (∃ before, .answered caller call (.getStored key) (some refund) before ∈ events) ∨
        ∃ before, .answered caller call (.insertStored key refund) () before ∈ events) ∧
    ∀ key refund, call = .lookupByKey key → reply = .found (some refund) →
      ∃ before, .answered caller call (.getStored key) (some refund) before ∈ events

/-- The rule for entering a locked block. -/
private theorem obeys_locked {α : Type} {caller : CallId} {call : GatewayCall}
    {post : α → List GatewayEvent → Prop} {events : List GatewayEvent} {block : LockedBlock}
    {next : block.Answer → Program LockedBlock.Answer α}
    (licensed : gatewayContract.license caller call events block)
    (rest : ∀ answer before, gatewayContract.Obeys caller call post (next answer)
      (.answered caller call block answer before :: events)) :
    gatewayContract.Obeys caller call post (.call block next) events := by
  refine ⟨licensed, ?_, ?_⟩
  · intro answer before after _
    exact rest answer before
  · intro answer fails
    cases fails

private theorem eq_of_accepted {config : MockConfig} {refund named : GatewayRefund}
    (reply : GatewayReply.outcome (if config.dropResponse then .dropped else .accepted refund) =
      .outcome (.accepted named)) : refund = named := by
  split at reply
  · cases reply
  · cases reply
    rfl

theorem gatewayContract_upheld : gatewayContract.Upheld := by
  intro caller call
  cases call with
  | createRefund amount currency idempotencyKey =>
      refine obeys_locked id ?_
      intro config configured
      refine obeys_locked ⟨id, by rintro _ _ _ ⟨⟩; rfl⟩ ?_
      intro found stored
      cases found with
      | some existing =>
          refine ⟨id, ?_, by simp⟩
          rintro _ _ _ refund ⟨⟩ reply
          cases eq_of_accepted reply
          exact .inl ⟨stored, List.mem_cons_self ..⟩
      | none =>
          cases timeOut : config.timeOut with
          | true =>
              simp only [↓reduceIte]
              refine ⟨id, ?_, by simp⟩
              rintro _ _ _ refund ⟨⟩ ⟨⟩
          | false =>
              simp only [Bool.false_eq_true, ↓reduceIte]
              have issues : issuing
                  [.answered caller (.createRefund amount currency idempotencyKey)
                      (.getStored idempotencyKey) none stored,
                    .answered caller (.createRefund amount currency idempotencyKey) .readConfig
                      config configured,
                    .started caller (.createRefund amount currency idempotencyKey)] =
                  some idempotencyKey := by
                simp [issuing, timeOut]
              refine obeys_locked ⟨_, _, _, rfl, issues⟩ ?_
              intro ref named
              refine obeys_locked ⟨_, _, rfl, rfl⟩ ?_
              intro _ inserted
              refine obeys_locked trivial ?_
              intro _ counted
              refine ⟨id, ?_, by simp⟩
              rintro _ _ _ refund ⟨⟩ reply
              cases eq_of_accepted reply
              exact .inr ⟨inserted, by simp⟩
  | lookupByKey idempotencyKey =>
      refine obeys_locked ⟨id, by simp⟩ ?_
      intro found stored
      refine ⟨id, by simp, ?_⟩
      rintro _ refund ⟨⟩ ⟨⟩
      exact ⟨stored, List.mem_cons_self ..⟩
  | setConfig config =>
      refine obeys_locked id ?_
      intro _ stored
      exact ⟨id, by simp, by simp⟩

/-! ## What holds in every uncrossed run -/

/-- The calls that have inserted a refund and have yet to count it. -/
def uncounted : List GatewayEvent → List CallId
  | [] => []
  | .answered caller _ (.insertStored _ _) _ _ :: earlier => caller :: uncounted earlier
  | .answered caller _ .countIssued _ _ :: earlier => (uncounted earlier).erase caller
  | _ :: earlier => uncounted earlier

/-- The map holds every refund that was inserted or found, one a key; the refunds about to be
inserted have different keys, which it does not hold; and every refund it holds is counted or
about to be. -/
structure OnePerKey (trace : List GatewayEvent) (state : GatewayState) : Prop where
  unique : ∀ call other key, issuing (own call trace) = some key →
    issuing (own other trace) = some key → call = other
  absent : ∀ call key, issuing (own call trace) = some key → state.world.lookupByKey key = none
  found : ∀ caller call key refund before,
    .answered caller call (.getStored key) (some refund) before ∈ trace →
    state.world.lookupByKey key = some refund
  inserted : ∀ key, insertions key trace = (state.world.lookupByKey key).toList
  counted : state.world.store.keys.length = state.world.issued + (uncounted trace).length
  mem_uncounted : ∀ call, call ∈ uncounted trace ↔ HasInserted (own call trace)
  nodup : (uncounted trace).Nodup

section Step

variable {trace : List GatewayEvent} {state next : GatewayState} {event : GatewayEvent}

private theorem own_answered_other {caller other : CallId} {call : GatewayCall}
    {block : LockedBlock} {answer : block.Answer} {before : MockGateway}
    (different : other ≠ caller) :
    own other (.answered caller call block answer before :: trace) = own other trace := by
  apply own_cons_other
  simpa [Interleaving.Event.caller] using Ne.symm different

theorem mem_callers_of_issuing {call : CallId} (issues : issuing (own call trace) ≠ none) :
    call ∈ trace.filterMap Interleaving.Event.caller := by
  cases behind : own call trace with
  | nil =>
      rw [behind] at issues
      exact (issues rfl).elim
  | cons event rest =>
      have member : event ∈ own call trace := by
        rw [behind]
        exact List.mem_cons_self ..
      rcases mem_own.mp member with ⟨inside, taken⟩
      exact List.mem_filterMap.mpr ⟨event, inside, taken⟩

private theorem OnePerKey.unique_of_step (books : OnePerKey trace state)
    (uncrossed : Uncrossed trace event) (call other : CallId) (key : String)
    (issues : issuing (own call (event :: trace)) = some key)
    (issues' : issuing (own other (event :: trace)) = some key) : call = other := by
  -- A step only ever makes its own caller issue.
  have crossing : ∀ {call other}, event.caller = some call →
      issuing (own call (event :: trace)) = some key →
      issuing (own other (event :: trace)) = some key → other = call := by
    intro call other taken issues issues'
    by_contra different
    have elsewhere : event.caller ≠ some other := by
      rw [taken]
      exact fun same => different (Option.some.inj same).symm
    rw [own_cons_self taken] at issues
    rw [own_cons_other elsewhere] at issues'
    have some' : issuing (own other trace) ≠ none := by simp [issues']
    exact uncrossed call taken other (mem_callers_of_issuing some') different some'
      (issues'.trans issues.symm)
  by_cases taken : event.caller = some call
  · exact (crossing taken issues issues').symm
  by_cases taken' : event.caller = some other
  · exact crossing taken' issues' issues
  · rw [own_cons_other taken] at issues
    rw [own_cons_other taken'] at issues'
    exact books.unique call other key issues issues'

/-- A step that neither inserts a refund nor counts one. -/
def Bookless : GatewayEvent → Prop
  | .answered _ _ (.insertStored _ _) _ _ | .answered _ _ .countIssued _ _ => False
  | _ => True

theorem Bookless.insertions (bookless : Bookless event) (key : String) :
    insertions key (event :: trace) = insertions key trace := by
  cases event with
  | answered caller call block answer before =>
      cases block with
      | insertStored | countIssued => exact bookless.elim
      | _ => rfl
  | _ => rfl

theorem Bookless.uncounted (bookless : Bookless event) :
    uncounted (event :: trace) = uncounted trace := by
  cases event with
  | answered caller call block answer before =>
      cases block with
      | insertStored | countIssued => exact bookless.elim
      | _ => rfl
  | _ => rfl

theorem Bookless.not_inserted (bookless : Bookless event) : ¬HasInserted (event :: trace) := by
  cases event with
  | answered caller call block answer before =>
      cases block with
      | insertStored | countIssued => exact bookless.elim
      | _ => exact id
  | _ => exact id

private theorem OnePerKey.of_bookless (books : OnePerKey trace state)
    (uncrossed : Uncrossed trace event) (bookless : Bookless event)
    (store : next.world.store = state.world.store)
    (issued : next.world.issued = state.world.issued)
    (settled : ∀ caller, event.caller = some caller → ¬HasInserted (own caller trace))
    (fresh : ∀ caller key, event.caller = some caller →
      issuing (event :: own caller trace) = some key → state.world.lookupByKey key = none)
    (finds : ∀ caller call key refund before,
      event = .answered caller call (.getStored key) (some refund) before →
      state.world.lookupByKey key = some refund) : OnePerKey (event :: trace) next := by
  have lookup : ∀ key, next.world.lookupByKey key = state.world.lookupByKey key := by
    intro key
    rw [MockGateway.lookupByKey, store, MockGateway.lookupByKey]
  constructor
  · exact books.unique_of_step uncrossed
  · intro call key issues
    rw [lookup]
    by_cases taken : event.caller = some call
    · rw [own_cons_self taken] at issues
      exact fresh call key taken issues
    · rw [own_cons_other taken] at issues
      exact books.absent call key issues
  · intro caller call key refund before member
    rw [lookup]
    rcases List.mem_cons.mp member with latest | earlier
    · exact finds caller call key refund before latest.symm
    · exact books.found caller call key refund before earlier
  · intro key
    rw [bookless.insertions, lookup]
    exact books.inserted key
  · rw [bookless.uncounted, store, issued]
    exact books.counted
  · intro call
    rw [bookless.uncounted, books.mem_uncounted]
    by_cases taken : event.caller = some call
    · rw [own_cons_self taken]
      exact iff_of_false (settled call taken) bookless.not_inserted
    · rw [own_cons_other taken]
  · rw [bookless.uncounted]
    exact books.nodup

/-- A refund is inserted under a key that the map does not hold. -/
private theorem OnePerKey.of_insertStored (books : OnePerKey trace state) {caller : CallId}
    {call : GatewayCall} {key : String} {refund : GatewayRefund} {answer : Unit}
    (uncrossed : Uncrossed trace
      (.answered caller call (.insertStored key refund) answer state.world))
    (issues : issuing (own caller trace) = some key)
    (store : next.world.store = state.world.store.insert key refund)
    (issued : next.world.issued = state.world.issued) :
    OnePerKey (.answered caller call (.insertStored key refund) answer state.world :: trace)
      next := by
  have absent := books.absent caller key issues
  have settled := not_inserted_of_issuing issues
  have lookup_self : next.world.lookupByKey key = some refund := by
    rw [MockGateway.lookupByKey, store]
    exact AList.lookup_insert _
  have lookup_other : ∀ other, other ≠ key →
      next.world.lookupByKey other = state.world.lookupByKey other := by
    intro other different
    rw [MockGateway.lookupByKey, store]
    exact AList.lookup_insert_ne different
  constructor
  · exact books.unique_of_step uncrossed
  · intro other key' issues'
    by_cases taken : other = caller
    · rw [taken, own_cons_self rfl, issuing_insertStored] at issues'
      cases issues'
    · rw [own_answered_other taken] at issues'
      rw [lookup_other]
      · exact books.absent other key' issues'
      · rintro rfl
        exact taken (books.unique other caller key' issues' issues)
  · intro caller' call' key' refund' before member
    rcases List.mem_cons.mp member with latest | earlier
    · cases latest
    · have held := books.found caller' call' key' refund' before earlier
      rw [lookup_other]
      · exact held
      · rintro rfl
        cases absent.symm.trans held
  · intro key'
    by_cases same : key = key'
    · rw [← same, lookup_self]
      have none := books.inserted key
      rw [absent] at none
      simp only [insertions] at none ⊢
      rw [List.filterMap_cons, none]
      simp
    · rw [lookup_other key' (Ne.symm same), ← books.inserted key']
      simp only [insertions]
      rw [List.filterMap_cons]
      simp [same]
  · have notIn : key ∉ state.world.store.keys :=
      AList.mem_keys.not.mp (AList.lookup_eq_none.mp absent)
    rw [store, issued, AList.keys_insert, List.erase_of_not_mem notIn, List.length_cons,
      books.counted]
    rfl
  · intro other
    by_cases taken : other = caller
    · rw [taken, own_cons_self rfl]
      exact iff_of_true (List.mem_cons_self ..) trivial
    · rw [own_answered_other taken, ← books.mem_uncounted]
      simp [uncounted, taken]
  · exact List.nodup_cons.mpr ⟨mt (books.mem_uncounted caller).mp settled, books.nodup⟩

/-- The refund that the call has inserted is counted. -/
private theorem OnePerKey.of_countIssued (books : OnePerKey trace state) {caller : CallId}
    {call : GatewayCall} {answer : Unit}
    (uncrossed : Uncrossed trace (.answered caller call .countIssued answer state.world))
    (inserted : HasInserted (own caller trace)) (store : next.world.store = state.world.store)
    (issued : next.world.issued = state.world.issued + 1) :
    OnePerKey (.answered caller call .countIssued answer state.world :: trace) next := by
  have lookup : ∀ key, next.world.lookupByKey key = state.world.lookupByKey key := by
    intro key
    rw [MockGateway.lookupByKey, store, MockGateway.lookupByKey]
  have owing := (books.mem_uncounted caller).mpr inserted
  constructor
  · exact books.unique_of_step uncrossed
  · intro other key issues
    rw [lookup]
    by_cases taken : other = caller
    · rw [taken, own_cons_self rfl, issuing_countIssued] at issues
      cases issues
    · rw [own_answered_other taken] at issues
      exact books.absent other key issues
  · intro caller' call' key refund before member
    rw [lookup]
    rcases List.mem_cons.mp member with latest | earlier
    · cases latest
    · exact books.found caller' call' key refund before earlier
  · intro key
    rw [lookup]
    exact books.inserted key
  · have positive := List.length_pos_of_mem owing
    rw [store, issued, books.counted, uncounted, List.length_erase_of_mem owing]
    omega
  · intro other
    rw [uncounted]
    by_cases taken : other = caller
    · rw [taken, own_cons_self rfl]
      exact iff_of_false books.nodup.not_mem_erase id
    · rw [own_answered_other taken, ← books.mem_uncounted,
        List.mem_erase_of_ne taken]
  · exact books.nodup.erase caller

private theorem OnePerKey.of_step (books : OnePerKey trace state)
    (permits : gatewayContract.Permits trace event)
    (fresh : ∀ call, state.calls call = .idle → own call trace = [])
    (step : mockGateway.Step state event next) (undying : Undying trace event)
    (uncrossed : Uncrossed trace event) : OnePerKey (event :: trace) next := by
  cases step with
  | start call idle =>
      refine books.of_bookless uncrossed trivial rfl rfl ?_ (by simp [issuing]) (by simp)
      rintro _ ⟨⟩
      rw [fresh _ idle]
      exact id
  | finish running =>
      refine books.of_bookless uncrossed trivial rfl rfl ?_ (by simp [issuing]) (by simp)
      rintro _ ⟨⟩
      exact permits.1
  | fail running fails => cases fails
  | die => exact undying.elim
  | @act action => exact action.elim
  | @answer caller call block continuation answer gateway running executed =>
      cases block with
      | readConfig | writeConfig =>
          cases executed
          refine books.of_bookless uncrossed trivial rfl rfl ?_ ?_ (by simp)
          · rintro _ ⟨⟩
            exact permits
          · rintro _ key ⟨⟩ issues
            cases call <;> cases issues
      | getStored stored =>
          have answered : state.world.lookupByKey stored = answer :=
            congrArg Prod.fst (Option.some.inj executed)
          cases congrArg Prod.snd (Option.some.inj executed)
          refine books.of_bookless uncrossed trivial rfl rfl ?_ ?_ ?_
          · rintro _ ⟨⟩
            exact permits.1
          · rintro _ key ⟨⟩ issues
            cases call with
            | createRefund amount currency idempotencyKey =>
                cases permits.2 _ _ _ rfl
                rcases none_of_issuing issues with ⟨rfl, rfl⟩
                exact answered
            | lookupByKey | setConfig => cases issues
          · rintro _ _ key refund before ⟨⟩
            exact answered
      | nextRef =>
          rcases permits with ⟨amount, currency, key, rfl, issues⟩
          cases executed
          refine books.of_bookless uncrossed trivial rfl rfl ?_ ?_ (by simp)
          · rintro _ ⟨⟩
            exact not_inserted_of_issuing issues
          · rintro _ key' ⟨⟩ ⟨⟩
            exact books.absent caller key issues
      | insertStored key refund =>
          rcases permits with ⟨amount, currency, rfl, issues⟩
          cases executed
          exact books.of_insertStored uncrossed issues rfl rfl
      | countIssued =>
          cases executed
          exact books.of_countIssued uncrossed permits rfl rfl

end Step

section Runs

variable {trace : List GatewayEvent} {state : GatewayState}

theorem UncrossedRun.gatewayRun (run : UncrossedRun trace state) : GatewayRun trace state := by
  rcases run with ⟨config, run⟩
  exact ⟨config, run.mono fun _ _ permitted => permitted.1⟩

theorem GatewayRun.not_dead (run : GatewayRun trace state) (call : CallId)
    (operation : GatewayCall) : state.calls call ≠ .dead operation := by
  rcases run with ⟨config, run⟩
  refine run.preserves (fun _ state => state.calls call ≠ .dead operation) ?_ ?_
  · simp [freshGateway]
  · intro trace state event next _ alive step undying
    by_cases taken : event.caller = some call
    · cases step with
      | act => cases taken
      | die => exact undying.elim
      | start | answer | fail | finish =>
          cases taken
          simp
    · rw [step.calls_other taken]
      exact alive

theorem UncrossedRun.books (run : UncrossedRun trace state) : OnePerKey trace state := by
  rcases run with ⟨config, run⟩
  apply run.preserves OnePerKey
  · constructor
    · intro call other key issues
      cases issues
    · intro call key issues
      cases issues
    · intro caller call key refund before member
      cases member
    · intro key
      rfl
    · rfl
    · intro call
      exact iff_of_false (List.not_mem_nil) id
    · exact List.nodup_nil
  · rintro trace state event next run books step ⟨undying, uncrossed⟩
    have permits := gatewayContract_upheld.permits (fun _ => rfl) run step
    exact books.of_step permits (fun call idle => Contract.own_of_idle run idle) step undying
      uncrossed

/-- Whatever a call has returned for a key is what the map holds under it. -/
theorem UncrossedRun.held_of_returned (run : UncrossedRun trace state) {key : String}
    {refund : GatewayRefund} (returned : Returned trace key refund) :
    state.world.lookupByKey key = some refund := by
  have books := run.books
  rcases run with ⟨config, run⟩
  have respected := gatewayContract_upheld.respected (fun _ => rfl) run
  have outcome : ∀ {caller call reply},
      .finished caller call reply ∈ trace → ∃ earlier, (∀ event ∈ own caller earlier,
        event ∈ trace) ∧ gatewayContract.outcome caller call (own caller earlier) reply := by
    intro caller call reply member
    rcases List.append_of_mem member with ⟨newer, earlier, rfl⟩
    refine ⟨earlier, ?_, respected.permits_of_append⟩
    intro event inOwn
    exact List.mem_append_right _ (List.mem_cons_of_mem _ (mem_own.mp inOwn).1)
  rcases returned with ⟨caller, amount, currency, finished⟩ | ⟨caller, finished⟩
  · rcases outcome finished with ⟨earlier, inside, _, created, _⟩
    rcases created amount currency key refund rfl rfl with ⟨before, found⟩ | ⟨before, inserted⟩
    · exact books.found _ _ _ _ before (inside _ found)
    · have listed : refund ∈ insertions key trace :=
        List.mem_filterMap.mpr ⟨_, inside _ inserted, if_pos rfl⟩
      rw [books.inserted key] at listed
      exact Option.mem_toList.mp listed
  · rcases outcome finished with ⟨earlier, inside, _, _, looked⟩
    rcases looked key refund rfl rfl with ⟨before, found⟩
    exact books.found _ _ _ _ before (inside _ found)

/-- When no call is in progress, every refund inserted is counted. -/
theorem UncrossedRun.uncounted_of_quiet (run : UncrossedRun trace state) (quiet : state.Quiet) :
    uncounted trace = [] := by
  rw [List.eq_nil_iff_forall_not_mem]
  intro call owing
  have inserted := (run.books.mem_uncounted call).mp owing
  have notDead := run.gatewayRun.not_dead
  rcases run with ⟨config, run⟩
  cases stands : state.calls call with
  | idle =>
      rw [Contract.own_of_idle run stands] at inserted
      exact inserted
  | running operation rest =>
      apply quiet call
      rw [stands]
      trivial
  | finished operation result =>
      rcases Contract.own_of_finished run rfl stands with ⟨_, _, _, latest⟩
      rw [latest] at inserted
      exact inserted
  | dead operation => exact notDead call operation stands

end Runs

/-- As long as no two calls for one key are at once between finding nothing and inserting a
refund: one refund at most is ever inserted for a key, all calls that return a refund for it
return the same one, and when no call is in progress the gateway has issued as many refunds as
it holds keys. -/
theorem dedupe_of_uncrossed {trace : List GatewayEvent} {state : GatewayState}
    (run : UncrossedRun trace state) :
    (∀ key, (insertions key trace).length ≤ 1) ∧
    (∀ key first second, Returned trace key first → Returned trace key second →
      first = second) ∧
    (state.Quiet → state.world.issuedCount = state.world.store.keys.length) := by
  constructor
  · intro key
    rw [run.books.inserted key]
    exact Option.length_toList_le
  constructor
  · intro key first second returned returned'
    have held := run.held_of_returned returned
    rw [run.held_of_returned returned'] at held
    exact (Option.some.inj held).symm
  · intro quiet
    rw [run.books.counted, run.uncounted_of_quiet quiet]
    rfl

/-- The labels of a call that nobody interrupts. -/
def alone (caller : CallId) (call : GatewayCall) (blocks : Nat) :
    List (Machine.Label GatewayCall Empty) :=
  .start caller call :: List.replicate blocks (.execute caller) ++ [.finish caller]

/-- Two calls for different keys overlap, the second is repeated, and its key looked up. -/
def uncrossedEnd : List GatewayEvent × GatewayState :=
  (mockGateway.play (fun trace event => Undying trace event ∧ Uncrossed trace event)
    ([.start 0 (.createRefund 150000 "EUR" "a"), .start 1 (.createRefund 2000 "EUR" "b"),
        .execute 0, .execute 1, .execute 0, .execute 1, .execute 1, .execute 0, .execute 1,
        .execute 1, .execute 0, .execute 0, .finish 1, .finish 0] ++
      alone 2 (.createRefund 2000 "EUR" "b") 2 ++ alone 3 (.lookupByKey "b") 1)
    ([], freshGateway {})).get (by decide +kernel)

theorem uncrossedEnd_run : UncrossedRun uncrossedEnd.1 uncrossedEnd.2 :=
  ⟨{}, Machine.play_run .nil (Option.some_get _).symm⟩

theorem uncrossedEnd_quiet : uncrossedEnd.2.Quiet := by
  rcases uncrossedEnd_run with ⟨_, run⟩
  apply run.quiet
  · intro _
    rfl
  · decide +kernel

theorem dedupe_of_uncrossed_sample :
    uncrossedEnd.2.world.issuedCount = uncrossedEnd.2.world.store.keys.length ∧
    uncrossedEnd.2.world.store.keys.length = 2 ∧
    (insertions "b" uncrossedEnd.1).length ≤ 1 :=
  ⟨(dedupe_of_uncrossed uncrossedEnd_run).2.2 uncrossedEnd_quiet, by decide +kernel,
    (dedupe_of_uncrossed uncrossedEnd_run).1 "b"⟩

/-- Two calls for one key both find nothing before either inserts. -/
def crossedEnd : List GatewayEvent × GatewayState :=
  (mockGateway.play Undying
    ([.start 0 (.createRefund 2000 "EUR" "a"), .start 1 (.createRefund 2000 "EUR" "a"),
      .execute 0, .execute 1, .execute 0, .execute 1] ++
      List.replicate 3 (.execute 0) ++ [.finish 0] ++ List.replicate 3 (.execute 1) ++
      [.finish 1])
    ([], freshGateway {})).get (by decide +kernel)

/-- Two refunds are issued for the key, the calls return different ones, and the gateway has
issued more refunds than it holds keys. -/
theorem issued_twice :
    GatewayRun crossedEnd.1 crossedEnd.2 ∧ crossedEnd.2.Quiet ∧
    (insertions "a" crossedEnd.1).map GatewayRefund.id =
      ["re_mock_00000002", "re_mock_00000001"] ∧
    (∃ first second, Returned crossedEnd.1 "a" first ∧ Returned crossedEnd.1 "a" second ∧
      first ≠ second) ∧
    crossedEnd.2.world.issuedCount = 2 ∧ crossedEnd.2.world.store.keys.length = 1 := by
  have run : mockGateway.Run Undying (freshGateway {}) crossedEnd.1 crossedEnd.2 :=
    Machine.play_run .nil (Option.some_get _).symm
  have reports : ∀ {caller refund}, crossedEnd.2.calls caller =
      .finished (.createRefund 2000 "EUR" "a") (.outcome (.accepted refund)) →
      Returned crossedEnd.1 "a" refund := fun finished =>
    .inl ⟨_, _, _, run.mem_of_finished rfl finished⟩
  refine ⟨⟨{}, run⟩, ?_, by decide +kernel, ?_, by decide +kernel, by decide +kernel⟩
  · apply run.quiet
    · intro _
      rfl
    · decide +kernel
  · have first : Returned crossedEnd.1 "a" ⟨"re_mock_00000001", 2000, "EUR", "a"⟩ :=
      reports (show crossedEnd.2.calls 0 = _ from rfl)
    have second : Returned crossedEnd.1 "a" ⟨"re_mock_00000002", 2000, "EUR", "a"⟩ :=
      reports (show crossedEnd.2.calls 1 = _ from rfl)
    exact ⟨_, _, first, second, by decide⟩

end RefundEngine
