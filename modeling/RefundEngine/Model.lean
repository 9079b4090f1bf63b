import Mathlib.Data.List.Basic
import RefundEngine.Numerals

/-!
# Data model

The rows of the `charges`, `refunds` and `refund_transitions` tables and the
refund state machine.  Column constraints of the migration that concern one row
are part of the row's type: an amount that the `CHECK` would refuse, or a status
outside the enumeration, cannot be written down.
-/

namespace RefundEngine

/-- Microseconds of `timestamptz`, as far as the engine compares or copies them. -/
abbrev Timestamp := Nat

/-- A 128-bit identifier. -/
structure Uuid where
  bits : BitVec 128
  deriving DecidableEq, Repr

/-- The hyphenated lower-case form, in groups of 8, 4, 4, 4 and 12 digits. -/
def Uuid.toString (uuid : Uuid) : String :=
  let digits := Numerals.hexDigits 32 uuid.bits.toNat
  String.ofList
    (digits.take 8 ++ '-' :: (digits.drop 8).take 4 ++ '-' :: (digits.drop 12).take 4 ++
      '-' :: (digits.drop 16).take 4 ++ '-' :: digits.drop 20)

theorem Uuid.filter_toString (uuid : Uuid) :
    uuid.toString.toList.filter (· ≠ '-') = Numerals.hexDigits 32 uuid.bits.toNat := by
  have clean : ∀ char ∈ Numerals.hexDigits 32 uuid.bits.toNat, char ≠ '-' := by
    intro char member equal
    exact Numerals.notMem_hexDigits (by decide) _ _ (equal ▸ member)
  simp only [Uuid.toString]
  generalize Numerals.hexDigits 32 uuid.bits.toNat = digits at clean
  have keep : ∀ part : List Char, part.Sublist digits →
      part.filter (· ≠ '-') = part := by
    intro part inside
    rw [List.filter_eq_self]
    intro char member
    simpa using clean char (inside.subset member)
  have first := keep _ (List.take_sublist 8 digits)
  have second := keep _ ((List.take_sublist 4 _).trans (List.drop_sublist 8 digits))
  have third := keep _ ((List.take_sublist 4 _).trans (List.drop_sublist 12 digits))
  have fourth := keep _ ((List.take_sublist 4 _).trans (List.drop_sublist 16 digits))
  have fifth := keep _ (List.drop_sublist 20 digits)
  simp only [String.toList_ofList, List.filter_append, List.filter_cons, first, second,
    third, fourth, fifth]
  simp only [ne_eq, not_true_eq_false, decide_false, Bool.false_eq_true, ↓reduceIte,
    List.append_assoc]
  have joined : ∀ start size : Nat,
      (digits.drop start).take size ++ digits.drop (start + size) = digits.drop start := by
    intro start size
    rw [← List.drop_drop, List.take_append_drop]
  rw [joined 16 4, joined 12 4, joined 8 4, List.take_append_drop]

/-- The text form determines the identifier, so it can serve as a key. -/
theorem Uuid.toString_injective : Function.Injective Uuid.toString := by
  intro left right equal
  have digits : Numerals.hexDigits 32 left.bits.toNat =
      Numerals.hexDigits 32 right.bits.toNat := by
    rw [← left.filter_toString, equal, right.filter_toString]
  have bits := Numerals.hexDigits_inj (by simpa using left.bits.isLt)
    (by simpa using right.bits.isLt) digits
  cases left
  cases right
  simpa [BitVec.toNat_inj] using bits

/-- The refund state machine, mirroring the `CHECK` constraint on `refunds.status`. -/
inductive Status where
  | requested
  | pendingReview
  | submitted
  | settled
  | failed
  | canceled
  deriving DecidableEq, Repr

namespace Status

/-- The text stored in the `status` column. -/
def asStr : Status → String
  | .requested => "requested"
  | .pendingReview => "pending_review"
  | .submitted => "submitted"
  | .settled => "settled"
  | .failed => "failed"
  | .canceled => "canceled"

/-- The status a stored text stands for. -/
def parse (text : String) : Option Status :=
  if text = "requested" then some .requested
  else if text = "pending_review" then some .pendingReview
  else if text = "submitted" then some .submitted
  else if text = "settled" then some .settled
  else if text = "failed" then some .failed
  else if text = "canceled" then some .canceled
  else none

/-- Every status survives being stored and read back, so the column can be taken
to hold the enumeration itself. -/
@[simp] theorem parse_asStr (status : Status) : parse status.asStr = some status := by
  cases status <;> decide

/-- Terminal states never move money again. -/
def isTerminal : Status → Bool
  | .settled | .failed | .canceled => true
  | _ => false

end Status

/-- A row of the `charges` table. -/
structure Charge where
  id : Uuid
  amountCaptured : Int64
  currency : String
  amountCaptured_nonneg : 0 ≤ amountCaptured
  deriving DecidableEq

/-- A row of the `refunds` table. -/
structure Refund where
  id : Uuid
  chargeId : Uuid
  amountCents : Int64
  currency : String
  idempotencyKey : String
  gatewayRef : Option String
  status : Status
  reasonCode : Option String
  requestedBy : String
  failureReason : Option String
  createdAt : Timestamp
  updatedAt : Timestamp
  amountCents_pos : 0 < amountCents
  deriving DecidableEq

/-- A row of the `refund_transitions` table. -/
structure Transition where
  id : Nat
  refundId : Uuid
  fromStatus : Option Status
  toStatus : Status
  actor : String
  reason : Option String
  deriving DecidableEq, Repr

/-- Ways in which the database refuses or fails a statement. -/
inductive DbError where
  /-- The connection is lost, or a bound text holds U+0000, which `text` does not admit. -/
  | failed
  | uniqueViolation (constraint : String)
  | checkViolation (constraint : String)
  | foreignKeyViolation (constraint : String)
  | numericOutOfRange
  | rowNotFound
  | noTransaction
  deriving DecidableEq, Repr

/-- Errors the refund engine raises. -/
inductive RefundError where
  | overRefund (chargeId : Uuid) (requested remaining : Int64)
  | currencyMismatch (refund charge : String)
  | chargeNotFound (chargeId : Uuid)
  | refundNotFound (refundId : Uuid)
  | separationOfDuties (approver : String)
  | notPendingReview (refundId : Uuid)
  | badSignature
  | db (error : DbError)
  deriving DecidableEq

/-- Amounts at or above this threshold (in cents) enter `pending_review` and must be
approved by a second person before they can reach the gateway. -/
def reviewThresholdCents : Int64 := 100000

end RefundEngine
