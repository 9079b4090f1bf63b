import RefundEngine.Utf8

/-!
# PII redaction

The scanner that masks card numbers before they reach the log.  It walks the bytes of a
string and slices the string itself, so a step that leaves the character boundaries has no
value.
-/

namespace RefundEngine

/-- Length of the character that starts with a byte. -/
def utf8Len (b : UInt8) : Nat :=
  if b < 0x80 then 1
  else if b >>> 5 = 0b110 then 2
  else if b >>> 4 = 0b1110 then 3
  else 4

/-- `u8::is_ascii_digit` -/
def isAsciiDigit (b : UInt8) : Bool := 0x30 ≤ b ∧ b ≤ 0x39

def isPanStart (bytes : List UInt8) (i : Nat) : Bool :=
  match bytes[i]? with
  | some b => isAsciiDigit b
  | none => false

/-- The loop of `scanPan` over the bytes that are left: the index it stops at, the digits
and whether it stopped after a separator. -/
def scanLoop : List UInt8 → Nat → List Char → Bool → Nat × List Char × Bool
  | [], i, digits, lastWasSep => (i, digits, lastWasSep)
  | b :: rest, i, digits, lastWasSep =>
      if isAsciiDigit b then
        scanLoop rest (i + 1) (digits ++ [Char.ofNat b.toNat]) false
      else if (b = 0x20 ∨ b = 0x2d) ∧ lastWasSep = false ∧ digits ≠ [] then
        -- Allow single separators between digit groups.
        scanLoop rest (i + 1) digits true
      else (i, digits, lastWasSep)

/-- Scan a PAN-shaped run from `start`.  Returns the exclusive end index and the digits if
the run has 13 to 19 of them. -/
def scanPan (bytes : List UInt8) (start : Nat) : Option (Nat × List Char) :=
  let (i, digits, lastWasSep) := scanLoop (bytes.drop start) start [] false
  -- If we stopped on a trailing separator, back it out.
  let i := if lastWasSep then i - 1 else i
  if 13 ≤ digits.length ∧ digits.length ≤ 19 then some (i, digits) else none

/-- The loop of `maskKeepingLast4` from the digit with index `digitIdx`. -/
def maskLoop (keepFrom : Nat) : Nat → List Char → List Char
  | _, [] => []
  | digitIdx, ch :: rest =>
      if ch.isDigit then
        (if digitIdx ≥ keepFrom then ch else '*') :: maskLoop keepFrom (digitIdx + 1) rest
      else ch :: maskLoop keepFrom digitIdx rest

/-- Mask the matched span, keeping its separators and its last four digits. -/
def maskKeepingLast4 (span digits : List Char) : List Char :=
  maskLoop (digits.length - 4) 0 span

/-- The loop of `redactPan` at byte `i`.  Every round moves on by at least one byte, so
`fuel` bounds the rounds that are left. -/
def redactLoop (input : List Char) : (fuel i : Nat) → (out : List Char) → Option (List Char)
  | 0, i, out => if i < (Utf8.bytes input).length then none else some out
  | fuel + 1, i, out =>
      match (Utf8.bytes input)[i]? with
      | none => some out
      | some b =>
          let pan :=
            if isPanStart (Utf8.bytes input) i then scanPan (Utf8.bytes input) i else none
          match pan with
          | some (stop, digits) =>
              match Utf8.slice input i stop with
              | some span => redactLoop input fuel stop (out ++ maskKeepingLast4 span digits)
              | none => none
          | none =>
              -- Not a PAN: copy the character through.
              match Utf8.slice input i (i + utf8Len b) with
              | some piece => redactLoop input fuel (i + utf8Len b) (out ++ piece)
              | none => none

/-- Replace every PAN-shaped run by a masked form that keeps its last four digits. -/
def redactPan (input : List Char) : Option (List Char) :=
  redactLoop input (Utf8.bytes input).length 0 []

/-- Only the last four digits of a PAN, or nothing if it is not card-shaped. -/
def last4 (pan : List Char) : Option (List Char) :=
  let digits := pan.filter Char.isDigit
  if 13 ≤ digits.length ∧ digits.length ≤ 19 then some (digits.drop (digits.length - 4))
  else none

/-! ## The scanner between characters -/

def isSeparator (ch : Char) : Bool := ch = ' ' ∨ ch = '-'

section FirstByte

variable {ch : Char} {first : UInt8}

/-- The code reads the length of a character off its first byte. -/
theorem utf8Len_eq (lead : Utf8.FirstByte ch first) : utf8Len first = ch.utf8Size := by
  have shift : ∀ amount : UInt8, amount.toNat < 8 →
      (first >>> amount).toNat = first.toNat / 2 ^ amount.toNat := by
    intro amount small
    rw [UInt8.toNat_shiftRight, Nat.mod_eq_of_lt small, Nat.shiftRight_eq_div_pow]
  have five := shift 5 (by decide)
  have four := shift 4 (by decide)
  have isFive : first >>> 5 = 0b110 ↔ first.toNat / 32 = 6 := by
    rw [← UInt8.toNat_inj, five]
    rfl
  have isFour : first >>> 4 = 0b1110 ↔ first.toNat / 16 = 14 := by
    rw [← UInt8.toNat_inj, four]
    rfl
  have isAscii : first < 0x80 ↔ first.toNat < 128 := UInt8.lt_iff_toNat_lt
  rw [utf8Len]
  cases lead with
  | ascii size small same => rw [if_pos (isAscii.mpr (by omega)), size]
  | two size large low high =>
      rw [if_neg (mt isAscii.mp (by omega)), if_pos (isFive.mpr (by omega)), size]
  | three size large low high =>
      rw [if_neg (mt isAscii.mp (by omega)), if_neg (mt isFive.mp (by omega)),
        if_pos (isFour.mpr (by omega)), size]
  | four size large low high =>
      rw [if_neg (mt isAscii.mp (by omega)), if_neg (mt isFive.mp (by omega)),
        if_neg (mt isFour.mp (by omega)), size]

/-- A byte is a digit only as the whole of a digit character. -/
theorem isAsciiDigit_eq (lead : Utf8.FirstByte ch first) : isAsciiDigit first = ch.isDigit := by
  have digit : ch.isDigit = decide (48 ≤ ch.toNat ∧ ch.toNat ≤ 57) := by
    simp [Char.isDigit, UInt32.le_iff_toNat_le]
  have byte : isAsciiDigit first = decide (48 ≤ first.toNat ∧ first.toNat ≤ 57) := by
    simp [isAsciiDigit, UInt8.le_iff_toNat_le]
  rw [digit, byte, decide_eq_decide]
  cases lead <;> omega

theorem isSeparator_iff (lead : Utf8.FirstByte ch first) :
    (first = 0x20 ∨ first = 0x2d) ↔ isSeparator ch = true := by
  have character : isSeparator ch = true ↔ ch.toNat = 32 ∨ ch.toNat = 45 := by
    simp only [isSeparator, decide_eq_true_eq, ← Char.toNat_inj]
    rfl
  have byte : (first = 0x20 ∨ first = 0x2d) ↔ first.toNat = 32 ∨ first.toNat = 45 := by
    simp only [← UInt8.toNat_inj]
    rfl
  rw [character, byte]
  cases lead <;> omega

end FirstByte

end RefundEngine
