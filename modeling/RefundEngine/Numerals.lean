import Mathlib.Data.List.Basic
import Mathlib.Logic.Function.Basic
import Mathlib.Tactic.IntervalCases

/-!
# Fixed-width and padded numerals

Two ways of writing a natural number as characters: hexadecimal at a fixed width,
and decimal padded on the left with zeros to a minimal width.  Both determine the
number they write; for the padded form this holds also where the number outgrows
the width and the padding disappears.
-/

namespace Numerals

/-- The lowest `width` hexadecimal digits of a number, most significant first. -/
def hexDigits : (width : Nat) → Nat → List Char
  | 0, _ => []
  | width + 1, number => hexDigits width (number / 16) ++ [Nat.digitChar (number % 16)]

@[simp] theorem length_hexDigits (width number : Nat) :
    (hexDigits width number).length = width := by
  induction width generalizing number with
  | zero => rfl
  | succ width ih => simp [hexDigits, ih]

theorem digitChar_inj {left right : Nat} (leftBound : left < 16) (rightBound : right < 16)
    (equal : Nat.digitChar left = Nat.digitChar right) : left = right := by
  have table : ∀ left : Fin 16, ∀ right : Fin 16,
      Nat.digitChar left.val = Nat.digitChar right.val → left = right := by decide
  exact congrArg Fin.val (table ⟨left, leftBound⟩ ⟨right, rightBound⟩ equal)

theorem notMem_hexDigits {char : Char} (other : ∀ digit : Fin 16, Nat.digitChar digit.val ≠ char)
    (width number : Nat) : char ∉ hexDigits width number := by
  induction width generalizing number with
  | zero => simp [hexDigits]
  | succ width ih =>
      have last := other ⟨number % 16, Nat.mod_lt _ (by decide)⟩
      simp only [hexDigits, List.mem_append, List.mem_singleton, not_or]
      exact ⟨ih _, Ne.symm last⟩

/-- Numbers that fit the width are determined by their hexadecimal digits. -/
theorem hexDigits_inj {width left right : Nat} (leftBound : left < 16 ^ width)
    (rightBound : right < 16 ^ width)
    (equal : hexDigits width left = hexDigits width right) : left = right := by
  induction width generalizing left right with
  | zero =>
      simp only [Nat.pow_zero, Nat.lt_one_iff] at leftBound rightBound
      rw [leftBound, rightBound]
  | succ width ih =>
      simp only [hexDigits] at equal
      obtain ⟨high, low⟩ := List.append_inj equal (by simp)
      have quotients : left / 16 = right / 16 :=
        ih (by rw [Nat.pow_succ] at leftBound; omega)
          (by rw [Nat.pow_succ] at rightBound; omega) high
      have remainders : left % 16 = right % 16 :=
        digitChar_inj (Nat.mod_lt _ (by decide)) (Nat.mod_lt _ (by decide))
          (List.cons.inj low).1
      omega

/-- Decimal digits padded with zeros to at least `width` characters. -/
def padded (width number : Nat) : List Char :=
  let digits := Nat.toDigits 10 number
  List.replicate (width - digits.length) '0' ++ digits

/-- Reading the padded digits back gives the number, whatever its length. -/
theorem ofDigitChars_padded (width number : Nat) :
    Nat.ofDigitChars 10 (padded width number) 0 = number := by
  simp [padded, Nat.ofDigitChars_append, Nat.ofDigitChars_replicate_zero,
    Nat.ofDigitChars_toDigits]

theorem padded_injective (width : Nat) : Function.Injective (padded width) := by
  intro left right equal
  rw [← ofDigitChars_padded width left, equal, ofDigitChars_padded]

end Numerals
