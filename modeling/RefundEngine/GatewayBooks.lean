import Mathlib.Data.List.Infix
import RefundEngine.LockedGateway

/-!
# The gateway's books

The mock gateway with its two counters in machine words, under calls made one at a time.  As
long as it issues fewer than `2 ^ 64` refunds no counter wraps, so it does what the gateway
with numbers for counters does, and its books stay in step with what it holds.
-/

namespace RefundEngine

/-- The key that a call can record a refund under. -/
def GatewayCall.key? : GatewayCall → Option String
  | .createRefund _ _ idempotencyKey => some idempotencyKey
  | .lookupByKey _ | .setConfig _ => none

/-- The mock gateway with its counters as the source keeps them. -/
@[ext]
structure MockGateway64 where
  store : AList fun _ : String => GatewayRefund
  seq : UInt64
  config : MockConfig
  issued : UInt64

namespace MockGateway64

def new : MockGateway64 := { store := ∅, seq := 0, config := {}, issued := 0 }

def withConfig (config : MockConfig) : MockGateway64 := { new with config := config }

/-- Reconfigure behaviour mid-flight. -/
def setConfig (gateway : MockGateway64) (config : MockConfig) : MockGateway64 :=
  { gateway with config := config }

/-- Distinct refunds the gateway actually created. -/
def issuedCount (gateway : MockGateway64) : UInt64 := gateway.issued

/-- Advance the counter and name the next reference. -/
def nextRef (gateway : MockGateway64) : String × MockGateway64 :=
  let seq := gateway.seq + 1
  (MockGateway.refName seq.toNat, { gateway with seq := seq })

/-- Create a refund, or return the one already held under the key. -/
def createRefund (gateway : MockGateway64) (amount : Int64) (currency idempotencyKey : String) :
    GatewayOutcome × MockGateway64 :=
  match gateway.store.lookup idempotencyKey with
  | some existing =>
      (if gateway.config.dropResponse then .dropped else .accepted existing, gateway)
  | none =>
      if gateway.config.timeOut then
        (.timedOut, gateway)
      else
        let (id, gateway) := gateway.nextRef
        let refund : GatewayRefund := { id, amount, currency, idempotencyKey }
        let gateway := { gateway with store := gateway.store.insert idempotencyKey refund }
        let gateway := { gateway with issued := gateway.issued + 1 }
        (if gateway.config.dropResponse then .dropped else .accepted refund, gateway)

/-- Look a refund up by idempotency key without creating one. -/
def lookupByKey (gateway : MockGateway64) (idempotencyKey : String) : Option GatewayRefund :=
  gateway.store.lookup idempotencyKey

/-- One call, with what its caller learns. -/
def serve (gateway : MockGateway64) : GatewayCall → GatewayReply × MockGateway64
  | .createRefund amount currency idempotencyKey =>
      let (outcome, gateway) := gateway.createRefund amount currency idempotencyKey
      (.outcome outcome, gateway)
  | .lookupByKey idempotencyKey => (.found (gateway.lookupByKey idempotencyKey), gateway)
  | .setConfig config => (.configured, gateway.setConfig config)

/-- Calls made one at a time. -/
def after (gateway : MockGateway64) (calls : List GatewayCall) : MockGateway64 :=
  calls.foldl (fun gateway call => (gateway.serve call).2) gateway

/-- The call records a refund: nothing is held under its key, and it does not time out. -/
def Records (gateway : MockGateway64) : GatewayCall → Prop
  | .createRefund _ _ idempotencyKey =>
      gateway.lookupByKey idempotencyKey = none ∧ gateway.config.timeOut = false
  | .lookupByKey _ | .setConfig _ => False

instance (gateway : MockGateway64) (call : GatewayCall) : Decidable (gateway.Records call) :=
  match call with
  | .createRefund .. => inferInstanceAs (Decidable (_ ∧ _))
  | .lookupByKey _ | .setConfig _ => isFalse id

/-- The calls that record a refund, in the order they are made. -/
def recordings (gateway : MockGateway64) : List GatewayCall → List GatewayCall
  | [] => []
  | call :: calls =>
      if gateway.Records call then
        call :: (gateway.serve call).2.recordings calls
      else
        (gateway.serve call).2.recordings calls

section Lists

variable {gateway : MockGateway64} {call : GatewayCall} {calls more : List GatewayCall}

@[simp] theorem after_concat (gateway : MockGateway64) (calls : List GatewayCall)
    (call : GatewayCall) :
    gateway.after (calls ++ [call]) = ((gateway.after calls).serve call).2 := by
  rw [after, List.foldl_append]
  rfl

theorem after_append (gateway : MockGateway64) (calls more : List GatewayCall) :
    gateway.after (calls ++ more) = (gateway.after calls).after more :=
  List.foldl_append

theorem recordings_append (gateway : MockGateway64) (calls more : List GatewayCall) :
    gateway.recordings (calls ++ more) =
      gateway.recordings calls ++ (gateway.after calls).recordings more := by
  induction calls generalizing gateway with
  | nil => rfl
  | cons call calls ih =>
      simp only [List.cons_append, recordings]
      split
      · rw [ih]
        rfl
      · exact ih _

theorem recordings_isPrefix (gateway : MockGateway64) (made : calls <+: more) :
    gateway.recordings calls <+: gateway.recordings more := by
  rcases made with ⟨rest, rfl⟩
  rw [recordings_append]
  exact List.prefix_append _ _

theorem recordings_concat (gateway : MockGateway64) (calls : List GatewayCall)
    (call : GatewayCall) :
    gateway.recordings (calls ++ [call]) =
      gateway.recordings calls ++ if (gateway.after calls).Records call then [call] else [] := by
  rw [recordings_append]
  rfl

end Lists

/-! ## As the gateway that counts in numbers -/

/-- The gateway with its counters read as numbers. -/
def counted (gateway : MockGateway64) : MockGateway where
  store := gateway.store
  seq := gateway.seq.toNat
  config := gateway.config
  issued := gateway.issued.toNat

theorem counted_injective : Function.Injective counted := by
  intro left right same
  have parts := MockGateway.mk.inj same
  ext1
  · exact parts.1
  · exact UInt64.toNat_inj.mp parts.2.1
  · exact parts.2.2.1
  · exact UInt64.toNat_inj.mp parts.2.2.2

/-- Both counters can go up by one. -/
def Room (gateway : MockGateway64) : Prop :=
  gateway.seq.toNat + 1 < 2 ^ 64 ∧ gateway.issued.toNat + 1 < 2 ^ 64

theorem toNat_add_one {word : UInt64} (room : word.toNat + 1 < 2 ^ 64) :
    (word + 1).toNat = word.toNat + 1 := by
  rw [UInt64.toNat_add]
  exact Nat.mod_eq_of_lt room

section Serve

variable {gateway : MockGateway64} {amount : Int64} {currency idempotencyKey key : String}
variable {refund : GatewayRefund} {call : GatewayCall}

@[simp] theorem serve_createRefund (gateway : MockGateway64) (amount : Int64)
    (currency idempotencyKey : String) :
    gateway.serve (.createRefund amount currency idempotencyKey) =
      (.outcome (gateway.createRefund amount currency idempotencyKey).1,
        (gateway.createRefund amount currency idempotencyKey).2) := rfl

/-- With room in its counters the gateway does what the gateway that counts in numbers does. -/
theorem counted_createRefund
    (room : gateway.Records (.createRefund amount currency idempotencyKey) → gateway.Room) :
    gateway.counted.createRefund amount currency idempotencyKey =
      ((gateway.createRefund amount currency idempotencyKey).1,
        (gateway.createRefund amount currency idempotencyKey).2.counted) := by
  cases held : gateway.store.lookup idempotencyKey with
  | some existing =>
      simp only [MockGateway.createRefund, createRefund, counted, held]
      rfl
  | none =>
      cases timeOut : gateway.config.timeOut with
      | true =>
          simp only [MockGateway.createRefund, createRefund, counted, held, timeOut, ↓reduceIte]
      | false =>
          rcases room ⟨held, timeOut⟩ with ⟨seqRoom, issuedRoom⟩
          simp only [MockGateway.createRefund, createRefund, MockGateway.nextRef, nextRef, counted,
            held, timeOut, Bool.false_eq_true, ↓reduceIte, toNat_add_one seqRoom,
            toNat_add_one issuedRoom]
          rfl

theorem counted_serve_of_records (room : gateway.Room)
    (records : gateway.Records (.createRefund amount currency idempotencyKey)) :
    (gateway.serve (.createRefund amount currency idempotencyKey)).2.counted =
      gateway.counted.issue amount currency idempotencyKey := by
  have simulated := counted_createRefund fun _ : gateway.Records
    (.createRefund amount currency idempotencyKey) => room
  rcases records with ⟨unheld, noTimeOut⟩
  rcases gateway.counted.createRefund_cases amount currency idempotencyKey with
    ⟨existing, held, _⟩ | ⟨_, timeOut, _⟩ | ⟨_, _, result⟩
  · cases unheld.symm.trans held
  · cases noTimeOut.symm.trans timeOut
  · rw [simulated] at result
    exact (Prod.mk.inj result).2

theorem counted_serve_of_not_records (passive : ¬gateway.Records call) :
    (gateway.serve call).2.counted =
      gateway.counted.setConfig (gateway.serve call).2.config := by
  cases call with
  | lookupByKey | setConfig => rfl
  | createRefund amount currency idempotencyKey =>
      have simulated := counted_createRefund fun records => (passive records).elim
      have unchanged : (gateway.createRefund amount currency idempotencyKey).2 = gateway := by
        apply counted_injective
        rcases gateway.counted.createRefund_cases amount currency idempotencyKey with
          ⟨_, _, result⟩ | ⟨_, _, result⟩ | ⟨unheld, noTimeOut, _⟩
        · rw [simulated] at result
          exact (Prod.mk.inj result).2
        · rw [simulated] at result
          exact (Prod.mk.inj result).2
        · exact (passive ⟨unheld, noTimeOut⟩).elim
      rw [serve_createRefund, unchanged]
      rfl

theorem lookupByKey_serve (held : gateway.lookupByKey key = some refund) :
    (gateway.serve call).2.lookupByKey key = some refund := by
  cases call with
  | lookupByKey | setConfig => exact held
  | createRefund amount currency idempotencyKey =>
      rw [serve_createRefund, createRefund]
      split
      · exact held
      · rename_i unheld
        have different : key ≠ idempotencyKey := by
          intro own
          subst own
          cases unheld.symm.trans held
        split
        · exact held
        · exact (AList.lookup_insert_ne different).trans held

theorem lookupByKey_after (held : gateway.lookupByKey key = some refund)
    (calls : List GatewayCall) : (gateway.after calls).lookupByKey key = some refund := by
  induction calls generalizing gateway with
  | nil => exact held
  | cons call calls ih => exact ih (lookupByKey_serve held)

end Serve

/-- After some calls the gateway holds a refund for every call that recorded one, under that
call's key and with its amount and currency. -/
structure InStep (start : MockGateway64) (made : List GatewayCall) : Prop where
  consistent : (start.after made).counted.Consistent
  recorded : (start.after made).store.keys.length = (start.recordings made).length
  first : ∀ key, (start.recordings made).find? (fun call => call.key? = some key) =
    ((start.after made).lookupByKey key).map fun refund =>
      .createRefund refund.amount refund.currency key

section InStep

variable {start : MockGateway64} {made : List GatewayCall} {call : GatewayCall}

/-- The counters have room for as long as the gateway records fewer than `2 ^ 64` refunds. -/
theorem InStep.room (inStep : start.InStep made)
    (bounded : (start.recordings made).length + 1 < 2 ^ 64) : (start.after made).Room := by
  have seq : (start.after made).seq.toNat = (start.recordings made).length :=
    inStep.consistent.seq_eq.trans inStep.recorded
  have issued : (start.after made).issued.toNat = (start.recordings made).length :=
    inStep.consistent.issued_eq.trans inStep.recorded
  rw [Room, seq, issued]
  exact ⟨bounded, bounded⟩

theorem InStep.concat_of_records (inStep : start.InStep made)
    (bounded : (start.recordings made).length + 1 < 2 ^ 64)
    (records : (start.after made).Records call) : start.InStep (made ++ [call]) := by
  cases call with
  | lookupByKey | setConfig => exact records.elim
  | createRefund amount currency idempotencyKey =>
      have unheld : (start.after made).counted.lookupByKey idempotencyKey = none := records.1
      have issued := counted_serve_of_records (inStep.room bounded) records
      rw [← after_concat] at issued
      have lookup : ∀ key, (start.after (made ++ [.createRefund amount currency
          idempotencyKey])).lookupByKey key =
          ((start.after made).counted.issue amount currency idempotencyKey).lookupByKey key :=
        fun key => congrArg (fun gateway => gateway.lookupByKey key) issued
      have recordings := recordings_concat start made
        (.createRefund amount currency idempotencyKey)
      rw [if_pos records] at recordings
      constructor
      · rw [issued]
        exact inStep.consistent.issue unheld amount currency
      · have keys := MockGateway.length_keys_issue unheld amount currency
        rw [← issued] at keys
        rw [recordings, List.length_append, ← inStep.recorded]
        exact keys
      · intro key
        rw [recordings, List.find?_append, inStep.first key, lookup]
        by_cases own : key = idempotencyKey
        · rw [own, MockGateway.lookupByKey_issue_self, records.1]
          simp [GatewayCall.key?, MockGateway.freshRefund]
        · rw [MockGateway.lookupByKey_issue_of_ne _ _ _ own]
          have skipped : [GatewayCall.createRefund amount currency idempotencyKey].find?
              (fun call => call.key? = some key) = none := by
            simp [GatewayCall.key?, Ne.symm own]
          rw [skipped, Option.or_none]
          rfl

theorem InStep.concat_of_not_records (inStep : start.InStep made)
    (passive : ¬(start.after made).Records call) : start.InStep (made ++ [call]) := by
  have served := counted_serve_of_not_records passive
  have recordings := recordings_concat start made call
  rw [← after_concat] at served
  rw [if_neg passive, List.append_nil] at recordings
  have store : (start.after (made ++ [call])).store = (start.after made).store :=
    congrArg MockGateway.store served
  constructor
  · rw [served]
    exact inStep.consistent.setConfig _
  · rw [store, recordings, inStep.recorded]
  · intro key
    rw [recordings, inStep.first, lookupByKey, lookupByKey, store]

/-- Calls that record fewer than `2 ^ 64` refunds keep the gateway in step, by induction on the
calls from the latest back. -/
theorem inStep_withConfig (config : MockConfig)
    (bounded : ((withConfig config).recordings made).length < 2 ^ 64) :
    (withConfig config).InStep made := by
  induction made using List.reverseRecOn with
  | nil => exact ⟨MockGateway.consistent_withConfig config, rfl, fun _ => rfl⟩
  | append_singleton made call ih =>
      have recordings := recordings_concat (withConfig config) made call
      rw [recordings, List.length_append] at bounded
      have inStep := ih (Nat.lt_of_le_of_lt (Nat.le_add_right _ _) bounded)
      by_cases records : ((withConfig config).after made).Records call
      · rw [if_pos records] at bounded
        exact inStep.concat_of_records bounded records
      · exact inStep.concat_of_not_records records

theorem room_of_isPrefix {config : MockConfig} {earlier : List GatewayCall}
    (bounded : ((withConfig config).recordings made).length < 2 ^ 64)
    (called : earlier ++ [call] <+: made)
    (records : ((withConfig config).after earlier).Records call) :
    ((withConfig config).after earlier).Room := by
  have recordings := recordings_concat (withConfig config) earlier call
  rw [if_pos records] at recordings
  have length := (recordings_isPrefix (withConfig config) called).length_le
  rw [recordings, List.length_append] at length
  have within := Nat.lt_of_le_of_lt length bounded
  have inStep := inStep_withConfig config (Nat.lt_of_succ_lt within)
  exact inStep.room within

end InStep

/-! ## The books -/

/-- The books of a gateway after some calls: the counters agree with what is held, references
are not shared, every object carries what the first call to record one for its key asked for
and stays, and every outcome tells the truth about what is held. -/
structure Books (start : MockGateway64) (made : List GatewayCall) : Prop where
  issuedCount : (start.after made).issuedCount = (start.after made).seq
  held : (start.after made).seq.toNat = (start.after made).store.keys.length
  distinct : ∀ key key' refund refund', key ≠ key' →
    (start.after made).lookupByKey key = some refund →
    (start.after made).lookupByKey key' = some refund' → refund.id ≠ refund'.id
  first : ∀ key refund, (start.after made).lookupByKey key = some refund →
    (start.recordings made).find? (fun call => call.key? = some key) =
      some (.createRefund refund.amount refund.currency key)
  kept : ∀ earlier, earlier <+: made → ∀ key refund,
    (start.after earlier).lookupByKey key = some refund →
    (start.after made).lookupByKey key = some refund
  accepted : ∀ earlier amount currency key refund,
    earlier ++ [.createRefund amount currency key] <+: made →
    ((start.after earlier).createRefund amount currency key).1 = .accepted refund →
    (start.after made).lookupByKey key = some refund
  dropped : ∀ earlier amount currency key,
    earlier ++ [.createRefund amount currency key] <+: made →
    ((start.after earlier).createRefund amount currency key).1 = .dropped →
    ∃ refund, (start.after made).lookupByKey key = some refund
  timedOut : ∀ earlier amount currency key,
    earlier ++ [.createRefund amount currency key] <+: made →
    ((start.after earlier).createRefund amount currency key).1 = .timedOut →
    (start.after earlier).lookupByKey key = none ∧
      ((start.after earlier).createRefund amount currency key).2 = start.after earlier

section Books

variable {config : MockConfig} {made earlier : List GatewayCall} {amount : Int64}
variable {currency key : String}

/-- What is held after some calls is held after all of them. -/
theorem lookupByKey_of_isPrefix {start : MockGateway64} (called : earlier <+: made)
    {refund : GatewayRefund} (held : (start.after earlier).lookupByKey key = some refund) :
    (start.after made).lookupByKey key = some refund := by
  rcases called with ⟨later, rfl⟩
  rw [after_append]
  exact lookupByKey_after held later

theorem counted_createRefund_of_isPrefix
    (bounded : ((withConfig config).recordings made).length < 2 ^ 64)
    (called : earlier ++ [.createRefund amount currency key] <+: made) :
    ((withConfig config).after earlier).counted.createRefund amount currency key =
      ((((withConfig config).after earlier).createRefund amount currency key).1,
        ((withConfig config).after
          (earlier ++ [.createRefund amount currency key])).counted) := by
  rw [after_concat, serve_createRefund]
  exact counted_createRefund (room_of_isPrefix bounded called)

theorem books_withConfig (bounded : ((withConfig config).recordings made).length < 2 ^ 64) :
    (withConfig config).Books made := by
  have inStep := inStep_withConfig config bounded
  have consistent := inStep.consistent
  constructor
  · exact UInt64.toNat_inj.mp (consistent.issued_eq.trans consistent.seq_eq.symm)
  · exact consistent.seq_eq
  · intro key key' refund refund' different held held' same
    exact different (consistent.distinct key key' refund refund' held held' same)
  · intro key refund held
    rw [inStep.first, held]
    rfl
  · intro earlier called key refund held
    exact lookupByKey_of_isPrefix called held
  · intro earlier amount currency key refund called accepted
    have simulated := counted_createRefund_of_isPrefix bounded called
    rw [accepted] at simulated
    exact lookupByKey_of_isPrefix called (MockGateway.lookupByKey_of_accepted simulated)
  · intro earlier amount currency key called dropped
    have simulated := counted_createRefund_of_isPrefix bounded called
    rw [dropped] at simulated
    rcases MockGateway.exists_of_dropped simulated with ⟨refund, held⟩
    exact ⟨refund, lookupByKey_of_isPrefix called held⟩
  · intro earlier amount currency key called timedOut
    have simulated := counted_createRefund (room_of_isPrefix bounded called)
    rw [timedOut] at simulated
    rcases MockGateway.unheld_of_timedOut simulated with ⟨unheld, same⟩
    exact ⟨unheld, counted_injective same⟩

end Books

end MockGateway64

/-- For every list of calls made one at a time on a new gateway, of which fewer than `2 ^ 64`
record a refund: the books are kept at every moment. -/
theorem books_kept (config : MockConfig) (calls : List GatewayCall)
    (bounded : ((MockGateway64.withConfig config).recordings calls).length < 2 ^ 64) :
    ∀ made, made <+: calls → (MockGateway64.withConfig config).Books made := by
  intro made called
  have length := ((MockGateway64.withConfig config).recordings_isPrefix called).length_le
  exact MockGateway64.books_withConfig (Nat.lt_of_le_of_lt length bounded)

/-- One key asked for twice with different amounts, a dropped response and a time-out. -/
def sampleCalls : List GatewayCall :=
  [.createRefund 2000 "EUR" "a", .createRefund 150000 "USD" "a",
    .setConfig { dropResponse := true }, .createRefund 3000 "EUR" "b",
    .setConfig { timeOut := true }, .createRefund 4000 "EUR" "c", .lookupByKey "a"]

/-- Two refunds are issued, and the first keeps the amount it was first asked for with. -/
theorem books_kept_sample :
    (MockGateway64.withConfig {}).Books sampleCalls ∧
    ((MockGateway64.withConfig {}).after sampleCalls).issuedCount = 2 ∧
    ((MockGateway64.withConfig {}).after sampleCalls).lookupByKey "a" =
      some ⟨"re_mock_00000001", 2000, "EUR", "a"⟩ :=
  ⟨books_kept {} sampleCalls (by decide +kernel) sampleCalls (List.prefix_refl _),
    by decide +kernel, by decide +kernel⟩

end RefundEngine
