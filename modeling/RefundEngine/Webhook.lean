import RefundEngine.Operations

/-!
# Webhooks

Signature verification and the handler that dedupes on the event id and applies
settlements and failures.  The HMAC is a parameter: any function of secret and body.
-/

namespace RefundEngine

abbrev Bytes := List UInt8

/-- A keyed hash of a body. -/
abbrev Hmac := (secret body : Bytes) → Bytes

/-- Lower-case hexadecimal text, two digits a byte. -/
def hexEncode (bytes : Bytes) : String :=
  String.ofList (bytes.flatMap fun byte =>
    [Nat.digitChar (byte.toNat / 16), Nat.digitChar (byte.toNat % 16)])

/-- Value of a hexadecimal digit of either case. -/
def hexValue (char : Char) : Option Nat :=
  if '0' ≤ char ∧ char ≤ '9' then some (char.toNat - '0'.toNat)
  else if 'a' ≤ char ∧ char ≤ 'f' then some (char.toNat - 'a'.toNat + 10)
  else if 'A' ≤ char ∧ char ≤ 'F' then some (char.toNat - 'A'.toNat + 10)
  else none

/-- Decode pairs of hexadecimal digits. -/
def hexDecodeChars : List Char → Option Bytes
  | [] => some []
  | [_] => none
  | high :: low :: rest => do
      let high ← hexValue high
      let low ← hexValue low
      let bytes ← hexDecodeChars rest
      return UInt8.ofNat (16 * high + low) :: bytes

def hexDecode (text : String) : Option Bytes := hexDecodeChars text.toList

/-- Decoding undoes encoding. -/
theorem hexDecode_hexEncode (bytes : Bytes) : hexDecode (hexEncode bytes) = some bytes := by
  have digit : ∀ value : Fin 16, hexValue (Nat.digitChar value.val) = some value.val := by
    decide
  simp only [hexDecode, hexEncode, String.toList_ofList]
  induction bytes with
  | nil => rfl
  | cons byte bytes ih =>
      have high := digit ⟨byte.toNat / 16, by have := byte.toNat_lt; omega⟩
      have low := digit ⟨byte.toNat % 16, Nat.mod_lt _ (by decide)⟩
      have whole : UInt8.ofNat (16 * (byte.toNat / 16) + byte.toNat % 16) = byte := by
        rw [Nat.div_add_mod]
        simp
      simp only [List.flatMap_cons, List.cons_append, List.nil_append, hexDecodeChars, high,
        low, ih]
      exact congrArg (fun value => some (value :: bytes)) whole

/-- Sign a raw body with the shared secret. -/
def sign (hmac : Hmac) (rawBody secret : Bytes) : String :=
  hexEncode (hmac secret rawBody)

/-- Verify a hex signature against the raw body. -/
def verifySignature (hmac : Hmac) (rawBody : Bytes) (sig : String) (secret : Bytes) : Bool :=
  match hexDecode sig with
  | some expected => hmac secret rawBody = expected
  | none => false

/-- What is signed verifies. -/
theorem verifySignature_sign (hmac : Hmac) (rawBody secret : Bytes) :
    verifySignature hmac rawBody (sign hmac rawBody secret) secret = true := by
  simp [verifySignature, sign, hexDecode_hexEncode]

/-! ## The handler -/

structure WebhookData where
  gatewayRef : String
  reason : Option String
  deriving DecidableEq, Repr

/-- A webhook event from the gateway. -/
structure WebhookEvent where
  id : String
  eventType : String
  data : WebhookData
  deriving DecidableEq, Repr

/-- Outcome of handling a webhook. -/
inductive WebhookResult where
  /-- First time the event was seen; it was applied. -/
  | applied
  /-- The event id had already been processed. -/
  | duplicate
  deriving DecidableEq, Repr

/-- Advance every row at `gateway_ref` from a non-terminal state to `settled`. -/
def applySettled (gatewayRef : String) : Action Unit :=
  Action.sql (.applyMoved (.settle gatewayRef) none)

/-- Advance every row at `gateway_ref` that is not already settled or canceled to
`failed`, recording the reason. -/
def applyFailed (gatewayRef : String) (reason : Option String) : Action Unit :=
  Action.sql (.applyMoved (.fail gatewayRef reason) reason)

/-- Handle a gateway webhook: verify the signature, dedupe on the event id, and apply
the event in one transaction with its audit row. -/
def handleWebhook (hmac : Hmac) (event : WebhookEvent) (rawBody : Bytes) (sig : String)
    (secret : Bytes) : Action WebhookResult := do
  if verifySignature hmac rawBody sig secret = false then
    throw .badSignature
  let inserted ← Action.sql (.insertWebhookEvent event.id)
  if inserted = none then
    return .duplicate
  Action.sql .begin
  if event.eventType = "refund.settled" then
    applySettled event.data.gatewayRef
  else if event.eventType = "refund.failed" then
    applyFailed event.data.gatewayRef event.data.reason
  Action.sql .commit
  return .applied

end RefundEngine
