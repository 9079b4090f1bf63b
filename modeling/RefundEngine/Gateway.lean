import Mathlib.Data.List.AList
import RefundEngine.Model

/-!
# The mock gateway

An in-memory gateway that dedupes on the idempotency key.  Each call is taken here
as one atomic step.  The two `u64` counters are natural numbers: both stay equal to
the number of keys the map holds, and a map of `String` keys runs out of address
space long before it holds `2 ^ 64` of them.  `GatewayBooks` has them in words.
-/

namespace RefundEngine

/-- What the gateway returns for a refund; `id` is the `gateway_ref` the engine
persists. -/
structure GatewayRefund where
  id : String
  amount : Int64
  currency : String
  idempotencyKey : String
  deriving DecidableEq, Repr

/-- Outcome of a gateway call.  `dropped` is the crash window: the refund is
recorded but the response never arrives. -/
inductive GatewayOutcome where
  | accepted (refund : GatewayRefund)
  | dropped
  | timedOut
  deriving DecidableEq, Repr

/-- Behaviour knobs for the mock. -/
structure MockConfig where
  dropResponse : Bool := false
  timeOut : Bool := false
  deriving DecidableEq, Repr

/-- The gateway's own system of record, its reference counter, its configuration and
the number of distinct refunds it has issued. -/
structure MockGateway where
  store : AList fun _ : String => GatewayRefund
  seq : Nat
  config : MockConfig
  issued : Nat

namespace MockGateway

def new : MockGateway := { store := ∅, seq := 0, config := {}, issued := 0 }

def withConfig (config : MockConfig) : MockGateway := { new with config := config }

/-- Reconfigure behaviour mid-flight. -/
def setConfig (gateway : MockGateway) (config : MockConfig) : MockGateway :=
  { gateway with config := config }

/-- Distinct refunds the gateway actually created. -/
def issuedCount (gateway : MockGateway) : Nat := gateway.issued

/-- The reference text of a counter value. -/
def refName (number : Nat) : String :=
  "re_mock_" ++ String.ofList (Numerals.padded 8 number)

/-- Advance the counter and name the next reference. -/
def nextRef (gateway : MockGateway) : String × MockGateway :=
  let seq := gateway.seq + 1
  (refName seq, { gateway with seq := seq })

/-- Create a refund, or return the one already held under the key. -/
def createRefund (gateway : MockGateway) (amount : Int64) (currency idempotencyKey : String) :
    GatewayOutcome × MockGateway :=
  match gateway.store.lookup idempotencyKey with
  | some existing =>
      (if gateway.config.dropResponse then .dropped else .accepted existing, gateway)
  | none =>
      if gateway.config.timeOut then
        (.timedOut, gateway)
      else
        let (id, gateway) := gateway.nextRef
        let refund : GatewayRefund := { id, amount, currency, idempotencyKey }
        let gateway := { gateway with store := gateway.store.insert idempotencyKey refund }
        let gateway := { gateway with issued := gateway.issued + 1 }
        (if gateway.config.dropResponse then .dropped else .accepted refund, gateway)

/-- Look a refund up by idempotency key without creating one. -/
def lookupByKey (gateway : MockGateway) (idempotencyKey : String) : Option GatewayRefund :=
  gateway.store.lookup idempotencyKey

/-- References of different counter values differ, beyond eight digits as well. -/
theorem refName_injective : Function.Injective refName := by
  intro left right equal
  apply Numerals.padded_injective 8
  have characters := congrArg String.toList equal
  simpa [refName] using characters

/-- The refund recorded for a key the gateway has not seen. -/
def freshRefund (gateway : MockGateway) (amount : Int64) (currency idempotencyKey : String) :
    GatewayRefund :=
  { id := refName (gateway.seq + 1), amount, currency, idempotencyKey }

/-- The gateway after it has recorded a refund for an unseen key. -/
def issue (gateway : MockGateway) (amount : Int64) (currency idempotencyKey : String) :
    MockGateway :=
  { gateway with
    store := gateway.store.insert idempotencyKey
      (gateway.freshRefund amount currency idempotencyKey)
    seq := gateway.seq + 1
    issued := gateway.issued + 1 }

/-- How the gateway reports a refund it holds. -/
def respond (gateway : MockGateway) (refund : GatewayRefund) : GatewayOutcome :=
  if gateway.config.dropResponse then .dropped else .accepted refund

/-- The three things a call can do: answer for a held key, time out, or issue. -/
theorem createRefund_cases (gateway : MockGateway) (amount : Int64)
    (currency idempotencyKey : String) :
    (∃ existing, gateway.lookupByKey idempotencyKey = some existing ∧
      gateway.createRefund amount currency idempotencyKey =
        (gateway.respond existing, gateway)) ∨
    (gateway.lookupByKey idempotencyKey = none ∧ gateway.config.timeOut = true ∧
      gateway.createRefund amount currency idempotencyKey = (.timedOut, gateway)) ∨
    (gateway.lookupByKey idempotencyKey = none ∧ gateway.config.timeOut = false ∧
      gateway.createRefund amount currency idempotencyKey =
        (gateway.respond (gateway.freshRefund amount currency idempotencyKey),
          gateway.issue amount currency idempotencyKey)) := by
  cases held : gateway.store.lookup idempotencyKey with
  | some existing =>
      left
      exact ⟨existing, held, by simp only [createRefund, held, respond]⟩
  | none =>
      right
      cases timeOut : gateway.config.timeOut with
      | true =>
          left
          exact ⟨held, rfl, by simp only [createRefund, held, timeOut, ↓reduceIte]⟩
      | false =>
          right
          refine ⟨held, rfl, ?_⟩
          simp only [createRefund, held, timeOut, Bool.false_eq_true, ↓reduceIte, nextRef]
          rfl

@[simp] theorem lookupByKey_issue_self (gateway : MockGateway) (amount : Int64)
    (currency idempotencyKey : String) :
    (gateway.issue amount currency idempotencyKey).lookupByKey idempotencyKey =
      some (gateway.freshRefund amount currency idempotencyKey) :=
  AList.lookup_insert _

theorem lookupByKey_issue_of_ne (gateway : MockGateway) (amount : Int64)
    (currency : String) {idempotencyKey key : String} (different : key ≠ idempotencyKey) :
    (gateway.issue amount currency idempotencyKey).lookupByKey key =
      gateway.lookupByKey key :=
  AList.lookup_insert_ne different

/-- Whatever a call does, what was held stays held. -/
theorem lookupByKey_createRefund (gateway : MockGateway) (amount : Int64)
    (currency idempotencyKey : String) {key : String} {refund : GatewayRefund}
    (held : gateway.lookupByKey key = some refund) :
    (gateway.createRefund amount currency idempotencyKey).2.lookupByKey key =
      some refund := by
  rcases gateway.createRefund_cases amount currency idempotencyKey with
    ⟨existing, _, result⟩ | ⟨_, _, result⟩ | ⟨unseen, _, result⟩
  · rw [result]
    exact held
  · rw [result]
    exact held
  · rw [result]
    have different : key ≠ idempotencyKey := by
      rintro rfl
      simp [unseen] at held
    rw [lookupByKey_issue_of_ne _ _ _ different]
    exact held

theorem lookupByKey_createRefund_of_ne (gateway : MockGateway) (amount : Int64)
    (currency : String) {idempotencyKey key : String} (different : key ≠ idempotencyKey) :
    (gateway.createRefund amount currency idempotencyKey).2.lookupByKey key =
      gateway.lookupByKey key := by
  rcases gateway.createRefund_cases amount currency idempotencyKey with
    ⟨_, _, result⟩ | ⟨_, _, result⟩ | ⟨_, _, result⟩
  · rw [result]
  · rw [result]
  · rw [result]
    exact lookupByKey_issue_of_ne _ _ _ different

/-- An accepted call names the object held under its key from then on. -/
theorem lookupByKey_of_accepted {gateway after : MockGateway} {amount : Int64}
    {currency idempotencyKey : String} {refund : GatewayRefund}
    (accepted : gateway.createRefund amount currency idempotencyKey =
      (.accepted refund, after)) :
    after.lookupByKey idempotencyKey = some refund := by
  rcases gateway.createRefund_cases amount currency idempotencyKey with
    ⟨existing, held, result⟩ | ⟨_, _, result⟩ | ⟨_, _, result⟩
  · rw [result] at accepted
    simp only [respond, Prod.mk.injEq] at accepted
    obtain ⟨outcome, rfl⟩ := accepted
    split at outcome <;> cases outcome
    exact held
  · rw [result] at accepted
    simp at accepted
  · rw [result] at accepted
    simp only [respond, Prod.mk.injEq] at accepted
    obtain ⟨outcome, rfl⟩ := accepted
    split at outcome <;> cases outcome
    exact lookupByKey_issue_self _ _ _ _

theorem exists_of_dropped {gateway after : MockGateway} {amount : Int64}
    {currency idempotencyKey : String}
    (dropped : gateway.createRefund amount currency idempotencyKey = (.dropped, after)) :
    ∃ refund, after.lookupByKey idempotencyKey = some refund := by
  rcases gateway.createRefund_cases amount currency idempotencyKey with
    ⟨existing, held, result⟩ | ⟨_, _, result⟩ | ⟨_, _, result⟩
  · rw [result] at dropped
    cases (Prod.mk.inj dropped).2
    exact ⟨existing, held⟩
  · rw [result] at dropped
    cases (Prod.mk.inj dropped).1
  · rw [result] at dropped
    cases (Prod.mk.inj dropped).2
    exact ⟨_, lookupByKey_issue_self _ _ _ _⟩

theorem unheld_of_timedOut {gateway after : MockGateway} {amount : Int64}
    {currency idempotencyKey : String}
    (timedOut : gateway.createRefund amount currency idempotencyKey = (.timedOut, after)) :
    gateway.lookupByKey idempotencyKey = none ∧ after = gateway := by
  rcases gateway.createRefund_cases amount currency idempotencyKey with
    ⟨_, _, result⟩ | ⟨unheld, _, result⟩ | ⟨_, _, result⟩
  · rw [result, respond] at timedOut
    have outcome := (Prod.mk.inj timedOut).1
    split at outcome <;> cases outcome
  · rw [result] at timedOut
    exact ⟨unheld, (Prod.mk.inj timedOut).2.symm⟩
  · rw [result, respond] at timedOut
    have outcome := (Prod.mk.inj timedOut).1
    split at outcome <;> cases outcome

/-! ## The gateway's books -/

/-- The counters agree with the map, every object sits under its own key, and no two
keys share a reference. -/
structure Consistent (gateway : MockGateway) : Prop where
  issued_eq : gateway.issued = gateway.store.keys.length
  seq_eq : gateway.seq = gateway.store.keys.length
  named : ∀ key refund, gateway.lookupByKey key = some refund →
    ∃ number, number ≤ gateway.seq ∧ refund.id = refName number
  distinct : ∀ key key' refund refund', gateway.lookupByKey key = some refund →
    gateway.lookupByKey key' = some refund' → refund.id = refund'.id → key = key'
  keyed : ∀ key refund, gateway.lookupByKey key = some refund → refund.idempotencyKey = key

theorem consistent_withConfig (config : MockConfig) : (withConfig config).Consistent where
  issued_eq := rfl
  seq_eq := rfl
  named := by simp [lookupByKey, withConfig, new]
  distinct := by simp [lookupByKey, withConfig, new]
  keyed := by simp [lookupByKey, withConfig, new]

theorem Consistent.setConfig {gateway : MockGateway} (consistent : gateway.Consistent)
    (config : MockConfig) : (gateway.setConfig config).Consistent :=
  ⟨consistent.issued_eq, consistent.seq_eq, consistent.named, consistent.distinct,
    consistent.keyed⟩

theorem length_keys_issue {gateway : MockGateway} {idempotencyKey : String}
    (unseen : gateway.lookupByKey idempotencyKey = none) (amount : Int64)
    (currency : String) :
    (gateway.issue amount currency idempotencyKey).store.keys.length =
      gateway.store.keys.length + 1 := by
  have absent : idempotencyKey ∉ gateway.store.keys :=
    AList.mem_keys.not.mp (AList.lookup_eq_none.mp unseen)
  simp [issue, AList.keys_insert, List.erase_of_not_mem absent]

theorem Consistent.issue {gateway : MockGateway} (consistent : gateway.Consistent)
    {idempotencyKey : String} (unseen : gateway.lookupByKey idempotencyKey = none)
    (amount : Int64) (currency : String) :
    (gateway.issue amount currency idempotencyKey).Consistent := by
  -- The new reference carries a counter value no earlier one has reached.
  have newer : ∀ key refund, gateway.lookupByKey key = some refund →
      refund.id ≠ refName (gateway.seq + 1) := by
    intro key refund held equal
    obtain ⟨number, bound, name⟩ := consistent.named key refund held
    have same := refName_injective (name.symm.trans equal)
    omega
  have split : ∀ key refund,
      (gateway.issue amount currency idempotencyKey).lookupByKey key = some refund →
      (key = idempotencyKey ∧ refund = gateway.freshRefund amount currency idempotencyKey) ∨
        (key ≠ idempotencyKey ∧ gateway.lookupByKey key = some refund) := by
    intro key refund held
    by_cases own : key = idempotencyKey
    · subst own
      rw [lookupByKey_issue_self] at held
      exact .inl ⟨rfl, (Option.some.inj held).symm⟩
    · rw [lookupByKey_issue_of_ne _ _ _ own] at held
      exact .inr ⟨own, held⟩
  refine ⟨?_, ?_, ?_, ?_, ?_⟩
  · rw [length_keys_issue unseen]
    simp [MockGateway.issue, consistent.issued_eq]
  · rw [length_keys_issue unseen]
    simp [MockGateway.issue, consistent.seq_eq]
  · intro key refund held
    rcases split key refund held with ⟨_, rfl⟩ | ⟨_, earlier⟩
    · exact ⟨gateway.seq + 1, le_refl _, rfl⟩
    · obtain ⟨number, bound, name⟩ := consistent.named key refund earlier
      exact ⟨number, Nat.le_succ_of_le bound, name⟩
  · intro key key' refund refund' held held' equal
    rcases split key refund held with ⟨rfl, rfl⟩ | ⟨_, earlier⟩ <;>
      rcases split key' refund' held' with ⟨rfl, rfl⟩ | ⟨_, earlier'⟩
    · rfl
    · exact (newer _ _ earlier' equal.symm).elim
    · exact (newer _ _ earlier equal).elim
    · exact consistent.distinct _ _ _ _ earlier earlier' equal
  · intro key refund held
    rcases split key refund held with ⟨rfl, rfl⟩ | ⟨_, earlier⟩
    · rfl
    · exact consistent.keyed _ _ earlier

theorem Consistent.createRefund {gateway : MockGateway} (consistent : gateway.Consistent)
    (amount : Int64) (currency idempotencyKey : String) :
    (gateway.createRefund amount currency idempotencyKey).2.Consistent := by
  rcases gateway.createRefund_cases amount currency idempotencyKey with
    ⟨_, _, result⟩ | ⟨_, _, result⟩ | ⟨unseen, _, result⟩
  · rw [result]
    exact consistent
  · rw [result]
    exact consistent
  · rw [result]
    exact consistent.issue unseen amount currency

end MockGateway

end RefundEngine
