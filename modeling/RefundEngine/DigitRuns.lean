import RefundEngine.Redact

/-!
# Digit runs

What redaction does, without a scanner: the text is cut into runs of digits in which
neighbours touch or have one separator between them, and what becomes of a digit depends
only on how many digits of its run come before it and how many are left.
-/

namespace RefundEngine

/-- The rest of a digit run, seen from inside it. -/
def runRest : List Char → List Char
  | [] => []
  | ch :: rest =>
      if ch.isDigit then ch :: runRest rest
      else if isSeparator ch then
        match rest with
        | [] => []
        | next :: after => if next.isDigit then ch :: next :: runRest after else []
      else []

def digitCount (text : List Char) : Nat := text.countP Char.isDigit

/-- A digit is hidden when its run has at least 13 digits and it is among the last 19 of
them, but not among the last four.  `left` counts the digit itself. -/
def Hidden (before left : Nat) : Prop := 13 ≤ before + left ∧ left ≤ 19 ∧ 4 < left

instance (before left : Nat) : Decidable (Hidden before left) :=
  inferInstanceAs (Decidable (_ ∧ _ ∧ _))

/-- The masked text, when `before` digits of the current run have already passed. -/
def masked : (before : Nat) → List Char → List Char
  | _, [] => []
  | before, ch :: rest =>
      if ch.isDigit then
        (if Hidden before (digitCount (runRest (ch :: rest))) then '*' else ch) ::
          masked (before + 1) rest
      else ch :: masked (if runRest (ch :: rest) = [] then 0 else before) rest

section Runs

variable {ch next : Char} {rest after text : List Char} {before : Nat}

theorem runRest_digit (digit : ch.isDigit = true) :
    runRest (ch :: rest) = ch :: runRest rest := by
  rw [runRest.eq_def]
  exact if_pos digit

theorem not_isDigit_of_isSeparator (separator : isSeparator ch = true) :
    ch.isDigit = false := by
  simp only [isSeparator, decide_eq_true_eq] at separator
  rcases separator with rfl | rfl <;> rfl

theorem runRest_separator (separator : isSeparator ch = true) (digit : next.isDigit = true) :
    runRest (ch :: next :: after) = ch :: runRest (next :: after) := by
  have other : ¬ch.isDigit = true := by simp [not_isDigit_of_isSeparator separator]
  rw [runRest_digit digit, runRest.eq_def]
  exact (if_neg other).trans ((if_pos separator).trans (if_pos digit))

theorem runRest_ended (other : ¬ch.isDigit = true)
    (stops : isSeparator ch = true → ∀ next ∈ rest.head?, ¬next.isDigit = true) :
    runRest (ch :: rest) = [] := by
  rw [runRest.eq_def]
  simp only [if_neg other]
  split
  · rename_i separator
    cases rest with
    | nil => rfl
    | cons next after => exact if_neg (stops separator next rfl)
  · rfl

@[simp] theorem digitCount_nil : digitCount [] = 0 := rfl

theorem digitCount_digit (digit : ch.isDigit = true) :
    digitCount (ch :: rest) = digitCount rest + 1 :=
  List.countP_cons_of_pos digit

theorem digitCount_separator (separator : isSeparator ch = true) :
    digitCount (ch :: rest) = digitCount rest :=
  List.countP_cons_of_neg (by simp [not_isDigit_of_isSeparator separator])

/-- Induction along a run: it goes on with a digit, or with one separator and a digit, or
it has ended. -/
@[elab_as_elim] theorem run_induction {motive : List Char → Prop}
    (digit : ∀ ch rest, ch.isDigit = true → motive rest → motive (ch :: rest))
    (separator : ∀ ch next after, isSeparator ch = true → next.isDigit = true →
      motive (next :: after) → motive (ch :: next :: after))
    (ended : ∀ text, runRest text = [] → motive text) (text : List Char) : motive text := by
  induction text with
  | nil => exact ended [] rfl
  | cons ch rest ih =>
      by_cases isDigit : ch.isDigit = true
      · exact digit ch rest isDigit ih
      · by_cases isSep : isSeparator ch = true
        · cases rest with
          | nil => exact ended [ch] (runRest_ended isDigit (by simp))
          | cons next after =>
              by_cases nextDigit : next.isDigit = true
              · exact separator ch next after isSep nextDigit ih
              · exact ended _ (runRest_ended isDigit (by simp [nextDigit]))
        · exact ended _ (runRest_ended isDigit (by simp [isSep]))

theorem not_isDigit_of_ended (ended : runRest (ch :: rest) = []) : ch.isDigit = false := by
  cases isDigit : ch.isDigit with
  | false => rfl
  | true =>
      rw [runRest_digit isDigit] at ended
      cases ended

theorem masked_digit (digit : ch.isDigit = true) :
    masked before (ch :: rest) =
      (if Hidden before (digitCount (runRest rest) + 1) then '*' else ch) ::
        masked (before + 1) rest := by
  rw [masked, if_pos digit, runRest_digit digit, digitCount_digit digit]

theorem masked_separator (separator : isSeparator ch = true) (digit : next.isDigit = true) :
    masked before (ch :: next :: after) = ch :: masked before (next :: after) := by
  rw [masked, if_neg (by simp [not_isDigit_of_isSeparator separator]),
    runRest_separator separator digit, if_neg (List.cons_ne_nil _ _)]

theorem masked_ended (ended : runRest (ch :: rest) = []) :
    masked before (ch :: rest) = ch :: masked 0 rest := by
  rw [masked, if_neg (by simp [not_isDigit_of_ended ended]), if_pos ended]

/-- A run of which at most 19 digits are left is masked up to its last four. -/
theorem masked_run (text : List Char) (before keepFrom digitIdx : Nat)
    (long : 13 ≤ before + digitCount (runRest text)) (short : digitCount (runRest text) ≤ 19)
    (keeps : keepFrom + 4 = digitIdx + digitCount (runRest text)) :
    masked before text =
      maskLoop keepFrom digitIdx (runRest text) ++
        masked 0 (text.drop (runRest text).length) := by
  induction text using run_induction generalizing before digitIdx with
  | digit ch rest digit ih =>
      rw [runRest_digit digit, digitCount_digit digit] at long short keeps
      have later : masked (before + 1) rest =
          maskLoop keepFrom (digitIdx + 1) (runRest rest) ++
            masked 0 (rest.drop (runRest rest).length) :=
        ih (before + 1) (digitIdx + 1) (by omega) (by omega) (by omega)
      rw [masked_digit digit, runRest_digit digit, maskLoop, if_pos digit, later]
      have same : Hidden before (digitCount (runRest rest) + 1) ↔ ¬keepFrom ≤ digitIdx := by
        simp only [Hidden]
        omega
      by_cases hidden : Hidden before (digitCount (runRest rest) + 1)
      · rw [if_pos hidden, if_neg (same.mp hidden)]
        rfl
      · rw [if_neg hidden, if_pos (not_not.mp (mt same.mpr hidden))]
        rfl
  | separator ch next after separator digit ih =>
      rw [runRest_separator separator digit, digitCount_separator separator] at long short keeps
      rw [masked_separator separator digit, runRest_separator separator digit, maskLoop,
        if_neg (by simp [not_isDigit_of_isSeparator separator])]
      rw [ih before digitIdx long short keeps]
      rfl
  | ended text ended =>
      rw [ended]
      cases text with
      | nil => rfl
      | cons ch rest =>
        rw [masked_ended ended]
        exact (masked_ended ended).symm

end Runs

end RefundEngine
