import RefundEngine.ExactMasking
import RefundEngine.PanFree

/-!
# How redactions compose

A text that is redacted more than once, and a text that is redacted in pieces.  Every pass
takes 19 digits from the end of a long run, so enough passes leave no card number.  Pieces
can be redacted apart, unless a cut goes through a run that is long enough to matter.
-/

namespace RefundEngine

variable {text rest left right : List Char} {ch : Char} {before : Nat}

theorem continues_of_ne_nil (other : ¬ch.isDigit = true) (continues : runRest (ch :: rest) ≠ []) :
    isSeparator ch = true ∧ ∃ next after, rest = next :: after ∧ next.isDigit = true := by
  by_contra stops
  apply continues
  apply runRest_ended other
  intro separator next isNext digit
  cases rest with
  | nil => cases isNext
  | cons _ after =>
      cases isNext
      exact stops ⟨separator, next, after, rfl, digit⟩

/-! ## Again and again -/

/-- No run of the text has more digits. -/
def RunsWithin (bound : Nat) (text : List Char) : Prop :=
  ∀ suffix, suffix <:+ text → digitCount (runRest suffix) ≤ bound

theorem RunsWithin.tail {bound : Nat} (within : RunsWithin bound (ch :: rest)) :
    RunsWithin bound rest :=
  fun suffix isSuffix => within suffix (isSuffix.trans (List.suffix_cons ch rest))

theorem panFree_iff_runsWithin : PanFree text ↔ RunsWithin 12 text := by
  rw [panFree_iff]
  constructor
  · intro free suffix isSuffix
    by_contra long
    rcases exists_suffix_of_le 13 (by decide) suffix (by omega) with ⟨inside, isInside, count⟩
    exact free inside (isInside.trans isSuffix) (by omega)
  · intro within suffix isSuffix found
    have short := within suffix isSuffix
    omega

/-- A pass shortens what is long of the runs by 19 digits. -/
theorem runsWithin_masked_iff (passes before : Nat) :
    RunsWithin (12 + 19 * passes) (masked before text) ↔
      RunsWithin (12 + 19 * (passes + 1)) text := by
  constructor
  · intro within suffix isSuffix
    rcases exists_masked_of_suffix before isSuffix with ⟨passed, masks⟩
    have short := within _ masks
    rw [digitCount_masked, visible] at short
    split_ifs at short <;> omega
  · intro within suffix isSuffix
    rcases exists_suffix_of_masked isSuffix with ⟨passed, inside, isInside, rfl⟩
    have short := within inside isInside
    rw [digitCount_masked, visible]
    split_ifs <;> omega

theorem masked_of_runsWithin (within : RunsWithin 12 text)
    (short : before + digitCount (runRest text) ≤ 12) : masked before text = text := by
  induction text generalizing before with
  | nil => rfl
  | cons ch rest ih =>
      by_cases digit : ch.isDigit = true
      · rw [runRest_digit digit, digitCount_digit digit] at short
        have shown : ¬Hidden before (digitCount (runRest rest) + 1) := by
          rw [Hidden]
          omega
        rw [masked_digit digit, if_neg shown, ih within.tail (by omega)]
      · rw [masked, if_neg digit]
        have fits := within.tail rest (List.suffix_refl rest)
        by_cases ended : runRest (ch :: rest) = []
        · rw [if_pos ended, ih within.tail (by omega)]
        · rcases continues_of_ne_nil digit ended with ⟨separator, next, after, rfl, nextDigit⟩
          rw [runRest_separator separator nextDigit, digitCount_separator separator] at short
          rw [if_neg ended, ih within.tail short]

theorem ne_star_of_isDigit (digit : ch.isDigit = true) : ch ≠ '*' := by
  rintro rfl
  cases digit

theorem masked_eq_self_iff : masked 0 text = text ↔ PanFree text := by
  constructor
  · intro same i start
    rcases exists_digit_of_isPanStart start with ⟨front, ch, rest, rfl, rfl, digit⟩
    rw [scanPan_eq front rest digit, if_neg]
    intro found
    have here := getElem?_masked 0 (front ++ ch :: rest) front.length
    have hidden : Hidden (passedAt 0 (front ++ ch :: rest) front.length)
        (digitCount (runRest (ch :: rest))) := by
      rw [Hidden]
      omega
    rw [same, List.drop_left, List.getElem?_append_right (Nat.le_refl _), Nat.sub_self,
      List.getElem?_cons_zero, Option.map_some, if_pos ⟨digit, hidden⟩, Option.some.injEq] at here
    exact ne_star_of_isDigit digit here
  · intro free
    have within := panFree_iff_runsWithin.mp free
    apply masked_of_runsWithin within
    rw [Nat.zero_add]
    exact within text (List.suffix_refl text)

/-- The output of each pass is the input of the next. -/
def redactTimes : (passes : Nat) → List Char → Option (List Char)
  | 0, text => some text
  | passes + 1, text => (redactPan text).bind (redactTimes passes)

/-- For every text and number of passes: they return, and what they leave is free of card
numbers, and then a fixed point, exactly when no run has more than 12 digits and 19 for each
pass. -/
theorem redactTimes_panFree_iff (passes : Nat) (input : List Char) :
    ∃ output, redactTimes passes input = some output ∧
      (PanFree output ↔ RunsWithin (12 + 19 * passes) input) ∧
      (redactPan output = some output ↔ RunsWithin (12 + 19 * passes) input) := by
  have fixed : ∀ output, redactPan output = some output ↔ PanFree output := by
    intro output
    rw [redactPan_eq, Option.some.injEq, masked_eq_self_iff]
  simp only [fixed, and_self]
  induction passes generalizing input with
  | zero => exact ⟨input, rfl, panFree_iff_runsWithin⟩
  | succ passes ih =>
      rcases ih (masked 0 input) with ⟨output, redacted, free⟩
      refine ⟨output, ?_, free.trans (runsWithin_masked_iff passes 0)⟩
      rw [redactTimes, redactPan_eq, Option.bind_some, redacted]

/-! ## In pieces -/

/-- The run at the start of the left piece goes on to the cut, and over it where it can. -/
def Reaches (left right : List Char) : Prop := runRest (left ++ right) = left ++ runRest right

/-- Induction along a piece that another one follows: a separator at its end may or may not
continue a run. -/
@[elab_as_elim] theorem piece_induction {motive : List Char → Prop} (empty : motive [])
    (digit : ∀ ch rest, ch.isDigit = true → motive rest → motive (ch :: rest))
    (last : ∀ ch, ¬ch.isDigit = true → motive [ch])
    (separator : ∀ ch next after, isSeparator ch = true → next.isDigit = true →
      motive (next :: after) → motive (ch :: next :: after))
    (ended : ∀ ch next after, ¬ch.isDigit = true →
      (∀ more, runRest (ch :: next :: more) = []) → motive (next :: after) →
      motive (ch :: next :: after)) (text : List Char) : motive text := by
  induction text with
  | nil => exact empty
  | cons ch rest ih =>
      by_cases isDigit : ch.isDigit = true
      · exact digit ch rest isDigit ih
      · cases rest with
        | nil => exact last ch isDigit
        | cons next after =>
            by_cases continues : isSeparator ch = true ∧ next.isDigit = true
            · exact separator ch next after continues.1 continues.2 ih
            · apply ended ch next after isDigit _ ih
              intro more
              apply runRest_ended isDigit
              intro isSep head isHead headDigit
              cases isHead
              exact continues ⟨isSep, headDigit⟩

theorem reaches_nil : Reaches [] right := rfl

theorem reaches_digit (digit : ch.isDigit = true) :
    Reaches (ch :: rest) right ↔ Reaches rest right := by
  rw [Reaches, Reaches, List.cons_append, runRest_digit digit, List.cons_append,
    List.cons_eq_cons, and_iff_right rfl]

theorem reaches_separator {next : Char} {after : List Char} (separator : isSeparator ch = true)
    (digit : next.isDigit = true) :
    Reaches (ch :: next :: after) right ↔ Reaches (next :: after) right := by
  rw [Reaches, Reaches, List.cons_append, List.cons_append, runRest_separator separator digit,
    List.cons_append, List.cons_append, List.cons_eq_cons, and_iff_right rfl]

theorem not_reaches_of_ended (ended : runRest (ch :: (rest ++ right)) = []) :
    ¬Reaches (ch :: rest) right := by
  rw [Reaches, List.cons_append, ended]
  exact (List.cons_ne_nil _ _).symm

theorem reaches_or_ended (other : ¬ch.isDigit = true) (right : List Char) :
    Reaches [ch] right ∨ runRest (ch :: right) = [] := by
  by_cases ended : runRest (ch :: right) = []
  · exact .inr ended
  · rcases continues_of_ne_nil other ended with ⟨separator, next, after, rfl, digit⟩
    exact .inl (runRest_separator separator digit)

theorem digitCount_of_reaches (reaches : Reaches left right) :
    digitCount (runRest left) = digitCount left ∧
      digitCount (runRest (left ++ right)) = digitCount left + digitCount (runRest right) := by
  constructor
  · induction left using piece_induction with
    | empty => rfl
    | digit ch rest digit ih =>
        rw [runRest_digit digit, digitCount_digit digit, digitCount_digit digit,
          ih ((reaches_digit digit).mp reaches)]
    | last ch other =>
        rw [runRest_ended other (by simp)]
        exact (List.countP_cons_of_neg other).symm
    | separator ch next after separator digit ih =>
        rw [runRest_separator separator digit, digitCount_separator separator,
          digitCount_separator separator, ih ((reaches_separator separator digit).mp reaches)]
    | ended ch next after other ended =>
        exact (not_reaches_of_ended (ended _) reaches).elim
  · rw [reaches, digitCount, List.countP_append]
    rfl

theorem digitCount_of_not_reaches (apart : ¬Reaches left right) :
    digitCount (runRest (left ++ right)) = digitCount (runRest left) := by
  induction left using piece_induction with
  | empty => exact (apart reaches_nil).elim
  | digit ch rest digit ih =>
      rw [List.cons_append, runRest_digit digit, runRest_digit digit, digitCount_digit digit,
        digitCount_digit digit, ih (mt (reaches_digit digit).mpr apart)]
  | last ch other =>
      rw [List.singleton_append, (reaches_or_ended other right).resolve_left apart,
        runRest_ended other (by simp)]
  | separator ch next after separator digit ih =>
      rw [List.cons_append, List.cons_append, runRest_separator separator digit,
        runRest_separator separator digit, digitCount_separator separator,
        digitCount_separator separator]
      exact ih (mt (reaches_separator separator digit).mpr apart)
  | ended ch next after other ended =>
      rw [List.cons_append, List.cons_append, ended, ended]

theorem passedAt_digit (digit : ch.isDigit = true) (position : Nat) :
    passedAt before (ch :: rest) (position + 1) = passedAt (before + 1) rest position := by
  rw [passedAt, if_pos digit]

theorem passedAt_separator {next : Char} {after : List Char} (separator : isSeparator ch = true)
    (digit : next.isDigit = true) (position : Nat) :
    passedAt before (ch :: next :: after) (position + 1) =
      passedAt before (next :: after) position := by
  rw [passedAt, if_neg (by simp [not_isDigit_of_isSeparator separator]),
    runRest_separator separator digit, if_neg (List.cons_ne_nil _ _)]

theorem passedAt_ended (ended : runRest (ch :: rest) = []) (position : Nat) :
    passedAt before (ch :: rest) (position + 1) = passedAt 0 rest position := by
  rw [passedAt, if_neg (by simp [not_isDigit_of_ended ended]), if_pos ended]

theorem passedAt_of_reaches (reaches : Reaches left right) :
    passedAt before (left ++ right) left.length = before + digitCount left := by
  induction left using piece_induction generalizing before with
  | empty => rw [List.length_nil, passedAt, digitCount_nil, Nat.add_zero]
  | digit ch rest digit ih =>
      rw [List.cons_append, List.length_cons, passedAt_digit digit,
        ih ((reaches_digit digit).mp reaches), digitCount_digit digit]
      omega
  | last ch other =>
      have same : digitCount [ch] = 0 := List.countP_cons_of_neg other
      have continues : runRest (ch :: right) ≠ [] := by
        intro ended
        exact not_reaches_of_ended ended reaches
      rw [List.singleton_append, List.length_singleton, passedAt, if_neg other,
        if_neg continues, passedAt, same, Nat.add_zero]
  | separator ch next after separator digit ih =>
      rw [List.cons_append, List.cons_append, List.length_cons, passedAt_separator separator digit,
        digitCount_separator separator]
      exact ih ((reaches_separator separator digit).mp reaches)
  | ended ch next after other ended =>
      exact (not_reaches_of_ended (ended _) reaches).elim

theorem ite_star_eq_iff (digit : ch.isDigit = true) {hidden hidden' : Prop} [Decidable hidden]
    [Decidable hidden'] :
    ((if hidden then '*' else ch) = if hidden' then '*' else ch) ↔ (hidden ↔ hidden') := by
  have shown := ne_star_of_isDigit digit
  by_cases first : hidden
  · by_cases second : hidden'
    · simp [first, second]
    · simp [first, second, shown.symm]
  · by_cases second : hidden'
    · simp [first, second, shown]
    · simp [first, second]

/-- In front of the cut, masking the whole and masking the piece are the same where they agree
on every digit of the run that reaches the cut. -/
theorem masked_front_iff (before : Nat) (left right : List Char) :
    (masked before (left ++ right)).take left.length = masked before left ↔
      ∀ index, (Reaches left right → before ≤ index) →
        index < passedAt before (left ++ right) left.length →
        (Hidden index (passedAt before (left ++ right) left.length - index +
            digitCount (runRest right)) ↔
          Hidden index (passedAt before (left ++ right) left.length - index)) := by
  induction left using piece_induction generalizing before with
  | empty =>
      simp only [List.length_nil, List.take_zero, masked, true_iff, passedAt]
      intro index low high
      exact absurd (low reaches_nil) (Nat.not_le.mpr high)
  | digit ch rest digit ih =>
      rw [List.cons_append, List.length_cons, masked_digit digit, masked_digit digit,
        List.take_succ_cons, List.cons_eq_cons, ite_star_eq_iff digit, ih, passedAt_digit digit,
        reaches_digit digit]
      by_cases reaches : Reaches rest right
      · rcases digitCount_of_reaches reaches with ⟨piece, whole⟩
        rw [piece, whole, passedAt_of_reaches reaches]
        have first : before + 1 + digitCount rest - before = digitCount rest + 1 := by omega
        constructor
        · intro agree index low high
          rcases Nat.eq_or_lt_of_le (low reaches) with rfl | later
          · rw [first, Nat.add_right_comm]
            exact agree.1
          · exact agree.2 index (fun _ => later) high
        · intro agree
          constructor
          · have here := agree before (fun _ => Nat.le_refl before) (by omega)
            rw [first, Nat.add_right_comm] at here
            exact here
          · intro index low high
            exact agree index (fun _ => Nat.le_of_succ_le (low reaches)) high
      · rw [digitCount_of_not_reaches reaches]
        simp [reaches]
  | last ch other =>
      have same : (masked before ([ch] ++ right)).take [ch].length = masked before [ch] := by
        simp [masked, other]
      rw [iff_true_left same]
      intro index low high
      rcases reaches_or_ended other right with reaches | ended
      · have none : digitCount [ch] = 0 := List.countP_cons_of_neg other
        rw [passedAt_of_reaches reaches, none, Nat.add_zero] at high
        exact absurd (low reaches) (Nat.not_le.mpr high)
      · rw [List.singleton_append, List.length_singleton, passedAt_ended ended, passedAt] at high
        cases high
  | separator ch next after separator digit ih =>
      have shown :
          (masked before (ch :: next :: after ++ right)).take (ch :: next :: after).length =
            masked before (ch :: next :: after) ↔
          (masked before (next :: after ++ right)).take (next :: after).length =
            masked before (next :: after) := by
        rw [List.cons_append, List.cons_append, masked_separator separator digit,
          masked_separator separator digit, List.length_cons, List.take_succ_cons,
          List.cons_eq_cons, and_iff_right rfl]
      have count : passedAt before (ch :: next :: after ++ right) (ch :: next :: after).length =
          passedAt before (next :: after ++ right) (next :: after).length :=
        passedAt_separator separator digit (next :: after).length
      rw [shown, ih, reaches_separator separator digit, count]
  | ended ch next after other ended ih =>
      have shown :
          (masked before (ch :: next :: after ++ right)).take (ch :: next :: after).length =
            masked before (ch :: next :: after) ↔
          (masked 0 (next :: after ++ right)).take (next :: after).length =
            masked 0 (next :: after) := by
        rw [List.cons_append, List.cons_append, masked_ended (ended _), masked_ended (ended _),
          List.length_cons, List.take_succ_cons, List.cons_eq_cons, and_iff_right rfl]
      have count : passedAt before (ch :: next :: after ++ right) (ch :: next :: after).length =
          passedAt 0 (next :: after ++ right) (next :: after).length :=
        passedAt_ended (ended (after ++ right)) (next :: after).length
      have apart : ¬Reaches (ch :: next :: after) right := not_reaches_of_ended (ended _)
      have zero : ∀ index, (Reaches (next :: after) right → 0 ≤ index) ↔
          (Reaches (ch :: next :: after) right → before ≤ index) := by
        intro index
        exact iff_of_true (fun _ => Nat.zero_le index) (fun reaches => absurd reaches apart)
      rw [shown, ih, count]
      simp only [zero]

/-- Behind the cut, what has passed matters while more than four digits are left. -/
theorem masked_eq_iff (before passed : Nat) (text : List Char) :
    masked before text = masked passed text ↔
      digitCount (runRest text) ≤ 4 ∨
        (13 ≤ before + digitCount (runRest text) ↔ 13 ≤ passed + digitCount (runRest text)) := by
  induction text using run_induction generalizing before passed with
  | digit ch rest digit ih =>
      rw [masked_digit digit, masked_digit digit, List.cons_eq_cons, ite_star_eq_iff digit, ih,
        runRest_digit digit, digitCount_digit digit, Hidden, Hidden]
      omega
  | separator ch next after separator digit ih =>
      rw [masked_separator separator digit, masked_separator separator digit, List.cons_eq_cons,
        and_iff_right rfl, ih, runRest_separator separator digit, digitCount_separator separator]
  | ended text ended =>
      rw [ended, digitCount_nil]
      apply iff_of_true _ (.inl (Nat.zero_le 4))
      cases text with
      | nil => rfl
      | cons ch rest => rw [masked_ended ended, masked_ended ended]

theorem drop_masked (before : Nat) (text : List Char) (position : Nat) :
    (masked before text).drop position =
      masked (passedAt before text position) (text.drop position) := by
  induction text generalizing before position with
  | nil => cases position <;> rfl
  | cons ch rest ih =>
      cases position with
      | zero => rw [List.drop_zero, List.drop_zero, passedAt]
      | succ position =>
          by_cases digit : ch.isDigit = true
          · rw [masked, if_pos digit, List.drop_succ_cons, List.drop_succ_cons, passedAt,
              if_pos digit, ih]
          · rw [masked, if_neg digit, List.drop_succ_cons, List.drop_succ_cons, passedAt,
              if_neg digit, ih]

/-- A run may be cut into digits that have passed and digits that are left when it has too few
for a card number, or when all that is masked of it is behind the cut. -/
def Cuttable (passed left : Nat) : Prop := passed + left < 13 ∨ (passed < 13 ∧ 19 ≤ left)

/-- Masking the pieces is masking the whole unless the cut goes through a run that may not be
cut there. -/
theorem masked_append_iff (left right : List Char) :
    masked 0 (left ++ right) = masked 0 left ++ masked 0 right ↔
      (0 < passedAt 0 (left ++ right) left.length → 0 < digitCount (runRest right) →
        Cuttable (passedAt 0 (left ++ right) left.length) (digitCount (runRest right))) := by
  have back := drop_masked 0 (left ++ right) left.length
  have front := masked_front_iff 0 left right
  have same := masked_eq_iff (passedAt 0 (left ++ right) left.length) 0 right
  rw [List.drop_left] at back
  have parts : masked 0 (left ++ right) = masked 0 left ++ masked 0 right ↔
      (masked 0 (left ++ right)).take left.length = masked 0 left ∧
        masked (passedAt 0 (left ++ right) left.length) right = masked 0 right := by
    rw [← back]
    constructor
    · intro whole
      have size := length_masked 0 left
      rw [whole, ← size, List.take_left, List.drop_left]
      exact ⟨rfl, rfl⟩
    · intro both
      rw [← both.1, ← both.2, List.take_append_drop]
  rw [parts, front, same]
  generalize passedAt 0 (left ++ right) left.length = passed
  generalize digitCount (runRest right) = behind
  simp only [Hidden, Cuttable, Nat.zero_le, implies_true, true_implies, Nat.zero_add]
  constructor
  · intro agree some someBehind
    -- The last digit in front of the cut, the fifth from the end of the run, and the fifth from
    -- the end of the piece tell the whole from the piece.
    have atCut := agree.1 (passed - 1)
    have fifth := agree.1 (passed + behind - 5)
    have fifthInFront := agree.1 (passed - 5)
    omega
  · intro cuttable
    constructor
    · intro index inFront
      omega
    · omega

theorem DigitRun.counts_of_cut {earlier later : List Nat} {last first : Nat}
    (isRun : DigitRun (left ++ right) (earlier ++ last :: first :: later))
    (inFront : last < left.length) (behind : left.length ≤ first) :
    passedAt 0 (left ++ right) left.length = earlier.length + 1 ∧
      digitCount (runRest right) = later.length + 1 := by
  have atLast : (earlier ++ last :: first :: later)[earlier.length]? = some last := by simp
  have atFirst : (earlier ++ last :: first :: later)[earlier.length + 1]? = some first := by simp
  have size : (earlier ++ last :: first :: later).length = earlier.length + later.length + 2 := by
    rw [List.length_append]
    rfl
  have passedLast := (isRun.counts atLast).1
  rcases isRun.counts atFirst with ⟨passedFirst, leftFirst⟩
  have piece : (left ++ right).drop left.length = right := List.drop_left
  have link := (List.isChain_append_cons_cons.mp isRun.maximal.links).2.1
  rcases Nat.eq_or_lt_of_le behind with atCut | between
  · rw [atCut] at piece ⊢
    rw [piece] at leftFirst
    exact ⟨passedFirst, by omega⟩
  · rcases link with ⟨⟨ch, here, digit⟩, ⟨next, there, nextDigit⟩, adjacent⟩
    rcases adjacent with rfl | ⟨rfl, other, atSeparator, separator⟩
    · omega
    · have cut : left.length = last + 1 := by omega
      rw [cut] at piece ⊢
      rw [drop_of_getElem? atSeparator, drop_of_getElem? there] at piece
      rw [drop_of_getElem? there] at leftFirst
      rw [passedAt_add, drop_of_getElem? here, passedAt_digit digit, passedAt, passedLast, ← piece,
        runRest_separator separator nextDigit, digitCount_separator separator]
      exact ⟨rfl, by omega⟩

/-- Digits that have passed at the cut and digits that are left there are in one run. -/
theorem exists_cut (passed : 0 < passedAt 0 (left ++ right) left.length)
    (behind : 0 < digitCount (runRest right)) :
    ∃ earlier last first later,
      DigitRun (left ++ right) (earlier ++ last :: first :: later) ∧ last < left.length ∧
        left.length ≤ first := by
  -- The first digit of the run behind the cut is at the cut, or behind a separator there.
  have found : ∃ first, DigitAt (left ++ right) first ∧ left.length ≤ first ∧
      passedAt 0 (left ++ right) first = passedAt 0 (left ++ right) left.length ∧
      (first = left.length ∨
        first = left.length + 1 ∧ SeparatorAt (left ++ right) left.length) := by
    have some : runRest right ≠ [] := by
      intro none
      rw [none] at behind
      cases behind
    cases right with
    | nil => exact (some rfl).elim
    | cons ch rest =>
        by_cases digit : ch.isDigit = true
        · refine ⟨left.length, ⟨ch, ?_, digit⟩, Nat.le_refl _, rfl, .inl rfl⟩
          simp
        · rcases continues_of_ne_nil digit some with ⟨separator, next, after, rfl, nextDigit⟩
          refine ⟨left.length + 1, ⟨next, ?_, nextDigit⟩, Nat.le_succ _, ?_,
            .inr ⟨rfl, ch, ?_, separator⟩⟩
          · simp
          · rw [passedAt_add, List.drop_left, passedAt_separator separator nextDigit, passedAt]
          · simp
  rcases found with ⟨first, digit, later, same, place⟩
  rcases (existsUnique_digitRun digit).exists with ⟨run, isRun, member⟩
  rcases List.append_of_mem member with ⟨front, rest, rfl⟩
  have atFirst : (front ++ first :: rest)[front.length]? = some first := by simp
  have count := (isRun.counts atFirst).1
  rw [same] at count
  rcases List.eq_nil_or_concat' front with rfl | ⟨earlier, last, rfl⟩
  · rw [count] at passed
    cases passed
  · rw [List.append_assoc, List.singleton_append] at isRun
    refine ⟨earlier, last, first, rest, isRun, ?_, later⟩
    have link := (List.isChain_append_cons_cons.mp isRun.maximal.links).2.1
    have before := link.lt
    rcases place with rfl | ⟨rfl, separator⟩
    · exact before
    · -- The separator at the cut is no digit of the run.
      have other : last ≠ left.length := by
        rintro rfl
        exact not_separatorAt link.1 separator
      omega

/-- For every text and every place to cut it: redacting the pieces apart gives the redacted
text exactly when every run with digits on both sides has fewer than 13 digits, or fewer than
13 in front of the cut and at least 19 behind it. -/
theorem redactPan_append_iff (left right : List Char) :
    ∃ whole front back, redactPan (left ++ right) = some whole ∧ redactPan left = some front ∧
      redactPan right = some back ∧
      (whole = front ++ back ↔ ∀ earlier last first later,
        DigitRun (left ++ right) (earlier ++ last :: first :: later) → last < left.length →
        left.length ≤ first → Cuttable (earlier.length + 1) (later.length + 1)) := by
  refine ⟨_, _, _, redactPan_eq _, redactPan_eq _, redactPan_eq _, ?_⟩
  rw [masked_append_iff]
  constructor
  · intro cuttable earlier last first later isRun inFront behind
    rcases isRun.counts_of_cut inFront behind with ⟨passed, left⟩
    rw [passed, left] at cuttable
    exact cuttable (Nat.succ_pos _) (Nat.succ_pos _)
  · intro cuttable passed behind
    rcases exists_cut passed behind with ⟨earlier, last, first, later, isRun, inFront, after⟩
    rcases isRun.counts_of_cut inFront after with ⟨count, count'⟩
    rw [count, count']
    exact cuttable earlier last first later isRun inFront after

/-- A character that is in no run is redacted apart from what is around it. -/
theorem masked_border (digit : ¬ch.isDigit = true) (separator : ¬isSeparator ch = true)
    (left right : List Char) :
    masked 0 (left ++ ch :: right) = masked 0 left ++ ch :: masked 0 right := by
  have ended : runRest (ch :: right) = [] :=
    runRest_ended digit fun isSep => absurd isSep separator
  have alone : masked 0 (ch :: right) = ch :: masked 0 right := masked_ended ended
  rw [← alone, masked_append_iff, ended]
  intro _ behind
  cases behind

/-- For every character that belongs to no card number, redacting a text line by line gives the
redacted text. -/
theorem redactPan_intercalate (border : Char) (digit : ¬border.isDigit = true)
    (separator : ¬isSeparator border = true) (lines : List (List Char)) :
    redactPan ([border].intercalate lines) =
      (lines.mapM redactPan).map [border].intercalate := by
  have each : lines.mapM redactPan = some (lines.map (masked 0)) := by
    induction lines with
    | nil => rfl
    | cons line lines ih =>
        rw [List.mapM_cons, redactPan_eq, ih]
        rfl
  rw [each, redactPan_eq, Option.map_some, Option.some.injEq]
  clear each
  induction lines with
  | nil => rfl
  | cons line lines ih =>
      cases lines with
      | nil => simp
      | cons next lines =>
          rw [List.intercalate_cons_cons, List.append_assoc, List.singleton_append,
            masked_border digit separator, ih]
          simp

theorem redactPan_intercalate_newline :
    ¬('\n' : Char).isDigit = true ∧ ¬isSeparator '\n' = true ∧
      redactPan (['\n'].intercalate [twoCards, [], twoCards]) =
        ([twoCards, [], twoCards].mapM redactPan).map ['\n'].intercalate :=
  ⟨by decide, by decide, redactPan_intercalate '\n' (by decide) (by decide) _⟩

end RefundEngine
