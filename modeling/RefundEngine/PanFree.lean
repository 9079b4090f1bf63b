import RefundEngine.Redaction

/-!
# When no card number survives

A run of 32 digits is masked only at its end; what stays in front of the mask is long
enough for a card number.  With shorter runs nothing that is left is.
-/

namespace RefundEngine

open Utf8 (bytes)

/-- No PAN-shaped run starts at a digit of the text. -/
def PanFree (text : List Char) : Prop :=
  ∀ i, isPanStart (bytes text) i = true → scanPan (bytes text) i = none

variable {text suffix : List Char} {before : Nat}

theorem exists_digit_of_isPanStart {i : Nat} (start : isPanStart (bytes text) i = true) :
    ∃ before ch rest, text = before ++ ch :: rest ∧ i = (bytes before).length ∧
      ch.isDigit = true := by
  rw [isPanStart] at start
  split at start
  · rename_i byte here
    have ascii : byte.toNat < 128 := by
      simp only [isAsciiDigit, decide_eq_true_eq, UInt8.le_iff_toNat_le] at start
      exact Nat.lt_of_le_of_lt start.2 (by decide)
    rcases Utf8.exists_char_of_ascii here ascii with ⟨before, ch, rest, rfl, rfl⟩
    refine ⟨before, ch, rest, rfl, rfl, ?_⟩
    rcases byte_at before rest ch with ⟨first, here', isStart, _⟩
    rw [← isStart, isPanStart, here]
    exact start
  · cases start

/-- A text is free of card numbers when no suffix continues a run with 13 to 19 digits. -/
theorem panFree_iff :
    PanFree text ↔ ∀ suffix, suffix <:+ text →
      ¬(13 ≤ digitCount (runRest suffix) ∧ digitCount (runRest suffix) ≤ 19) := by
  constructor
  · intro free suffix
    induction suffix using run_induction with
    | digit ch rest digit =>
        intro isSuffix found
        rcases isSuffix with ⟨before, rfl⟩
        have clean := free (bytes before).length
          (by rcases byte_at before rest ch with ⟨_, _, start, _⟩; rw [start]; exact digit)
        rw [scanPan_eq before rest digit, if_pos found] at clean
        cases clean
    | separator ch next after separator digit ih =>
        intro isSuffix
        rw [runRest_separator separator digit, digitCount_separator separator]
        exact ih ((List.suffix_cons ch (next :: after)).trans isSuffix)
    | ended suffix ended =>
        intro _ found
        rw [ended, digitCount_nil] at found
        omega
  · intro short i start
    rcases exists_digit_of_isPanStart start with ⟨before, ch, rest, rfl, rfl, digit⟩
    rw [scanPan_eq before rest digit, if_neg (short _ (List.suffix_append ..))]

/-- How many digits stay visible from a digit on, up to the first hidden one. -/
def visible (before left : Nat) : Nat :=
  if before + left < 13 then left
  else if 19 < left then left - 19
  else if 4 < left then 0
  else left

theorem visible_of_hidden {left : Nat} (hidden : Hidden before left) :
    visible before left = 0 := by
  rw [Hidden] at hidden
  rw [visible, if_neg (by omega), if_neg (by omega), if_pos hidden.2.2]

theorem visible_succ {left : Nat} (shown : ¬Hidden before (left + 1)) :
    visible before (left + 1) = visible (before + 1) left + 1 := by
  rw [Hidden] at shown
  rw [visible, visible]
  split_ifs <;> omega

theorem runRest_star (rest : List Char) : runRest ('*' :: rest) = [] :=
  runRest_ended (by decide) (fun separator => absurd separator (by decide))

theorem digitCount_masked (before : Nat) (text : List Char) :
    digitCount (runRest (masked before text)) = visible before (digitCount (runRest text)) := by
  induction text using run_induction generalizing before with
  | digit ch rest digit ih =>
      rw [masked_digit digit, runRest_digit digit, digitCount_digit digit]
      by_cases hidden : Hidden before (digitCount (runRest rest) + 1)
      · rw [if_pos hidden, runRest_star, visible_of_hidden hidden, digitCount_nil]
      · rw [if_neg hidden, runRest_digit digit, digitCount_digit digit, visible_succ hidden, ih]
  | separator ch next after separator digit ih =>
      have other : ¬ch.isDigit = true := by simp [not_isDigit_of_isSeparator separator]
      rw [masked_separator separator digit, runRest_separator separator digit,
        digitCount_separator separator, ← ih before, masked_digit digit]
      by_cases hidden : Hidden before (digitCount (runRest after) + 1)
      · rw [if_pos hidden, runRest_star, runRest_ended other]
        intro _ shown isStar
        cases isStar
        decide
      · rw [if_neg hidden, runRest_separator separator digit, digitCount_separator separator]
  | ended text ended =>
      rw [ended, digitCount_nil]
      have unseen : visible before 0 = 0 := by
        rw [visible]
        split_ifs <;> omega
      cases text with
      | nil => exact unseen.symm
      | cons ch rest =>
          have other : ¬ch.isDigit = true := by simp [not_isDigit_of_ended ended]
          rw [masked_ended ended, runRest_ended other, digitCount_nil, unseen]
          intro separator shown isHead digit
          -- Masking makes no new digits, so the run would have gone on in the text.
          cases rest with
          | nil => cases isHead
          | cons next after =>
              have nextDigit : next.isDigit = true := by
                rw [masked] at isHead
                split at isHead
                · assumption
                · cases isHead
                  exact digit
              rw [runRest_separator separator nextDigit] at ended
              cases ended

/-- Every suffix of the masked text is a masked suffix of the text. -/
theorem exists_suffix_of_masked (isSuffix : suffix <:+ masked before text) :
    ∃ passed rest, rest <:+ text ∧ suffix = masked passed rest := by
  induction text generalizing before with
  | nil => exact ⟨before, [], List.suffix_refl [], List.suffix_nil.mp isSuffix⟩
  | cons ch rest ih =>
      have later : ∀ {shown passed}, suffix <:+ shown :: masked passed rest →
          masked before (ch :: rest) = shown :: masked passed rest →
          ∃ passed rest', rest' <:+ ch :: rest ∧ suffix = masked passed rest' := by
        intro shown passed isSuffix whole
        rcases List.suffix_cons_iff.mp isSuffix with all | inRest
        · exact ⟨before, ch :: rest, List.suffix_refl _, all.trans whole.symm⟩
        · rcases ih inRest with ⟨passed, rest', isRest, same⟩
          exact ⟨passed, rest', isRest.trans (List.suffix_cons ch rest), same⟩
      rw [masked] at isSuffix
      split at isSuffix
      · rename_i digit
        exact later isSuffix (by rw [masked, if_pos digit])
      · rename_i other
        exact later isSuffix (by rw [masked, if_neg other])

/-- Every suffix of the text is masked as some suffix of the masked text. -/
theorem exists_masked_of_suffix (before : Nat) (isSuffix : suffix <:+ text) :
    ∃ passed, masked passed suffix <:+ masked before text := by
  induction text generalizing before with
  | nil =>
      cases List.suffix_nil.mp isSuffix
      exact ⟨before, List.suffix_refl _⟩
  | cons ch rest ih =>
      rcases List.suffix_cons_iff.mp isSuffix with rfl | inRest
      · exact ⟨before, List.suffix_refl _⟩
      · rw [masked]
        split
        · rcases ih (before + 1) inRest with ⟨passed, masks⟩
          exact ⟨passed, masks.trans (List.suffix_cons ..)⟩
        · rcases ih (if runRest (ch :: rest) = [] then 0 else before) inRest with ⟨passed, masks⟩
          exact ⟨passed, masks.trans (List.suffix_cons ..)⟩

/-- Going along a run, every smaller number of digits is left at some point. -/
theorem exists_suffix_of_le (count : Nat) (positive : 0 < count) (text : List Char)
    (enough : count ≤ digitCount (runRest text)) :
    ∃ suffix, suffix <:+ text ∧ digitCount (runRest suffix) = count := by
  induction text using run_induction with
  | digit ch rest digit ih =>
      rw [runRest_digit digit, digitCount_digit digit] at enough
      by_cases last : count = digitCount (runRest rest) + 1
      · refine ⟨ch :: rest, List.suffix_refl _, ?_⟩
        rw [runRest_digit digit, digitCount_digit digit, last]
      · rcases ih (by omega) with ⟨suffix, isSuffix, same⟩
        exact ⟨suffix, isSuffix.trans (List.suffix_cons ch rest), same⟩
  | separator ch next after separator digit ih =>
      rw [runRest_separator separator digit, digitCount_separator separator] at enough
      rcases ih enough with ⟨suffix, isSuffix, same⟩
      exact ⟨suffix, isSuffix.trans (List.suffix_cons ch _), same⟩
  | ended text ended =>
      rw [ended, digitCount_nil] at enough
      omega

/-- For every input, redaction returns, and its output is free of card numbers exactly when
no run of the input has more than 31 digits. -/
theorem redactPan_panFree_iff (input : List Char) :
    ∃ output, redactPan input = some output ∧
      (PanFree output ↔ ∀ suffix, suffix <:+ input → digitCount (runRest suffix) ≤ 31) := by
  refine ⟨masked 0 input, redactPan_eq input, ?_⟩
  rw [panFree_iff]
  constructor
  · intro free suffix isSuffix
    by_contra long
    rcases exists_suffix_of_le 32 (by decide) suffix (by omega) with
      ⟨rest, isRest, count⟩
    rcases exists_masked_of_suffix 0 (isRest.trans isSuffix) with ⟨passed, masks⟩
    apply free _ masks
    rw [digitCount_masked, count, visible, if_neg (by omega), if_pos (by decide)]
    decide
  · intro short suffix isSuffix
    rcases exists_suffix_of_masked isSuffix with ⟨passed, rest, isRest, rfl⟩
    have bound := short rest isRest
    rw [digitCount_masked, visible]
    split_ifs <;> omega

/-- Two card numbers, one after the other. -/
def twoCards : List Char := "4242 4242 4242 4242 4111 1111 1111 1111".toList

/-- The first 13 digits of two card numbers stay visible. -/
theorem redactPan_leaves_pan :
    ¬∀ input output, redactPan input = some output → PanFree output := by
  intro free
  have clean := free twoCards _ (redactPan_eq twoCards) 0 (by decide +kernel)
  revert clean
  decide +kernel

end RefundEngine
