import RefundEngine.ExactMasking

/-!
# Two notions of a card number

`last4` strips everything but the digits and counts them; the redactor looks for runs.  They
agree exactly when all digits are in one run.
-/

namespace RefundEngine

variable {text rest : List Char} {ch : Char} {before : Nat}

/-- The digits of a text that redaction leaves visible. -/
def visibleDigits (text : List Char) : List Char := (masked 0 text).filter Char.isDigit

@[simp] theorem digitCount_append (left right : List Char) :
    digitCount (left ++ right) = digitCount left + digitCount right :=
  List.countP_append

theorem digitCount_eq_length (text : List Char) :
    digitCount text = (text.filter Char.isDigit).length :=
  List.countP_eq_length_filter

/-- What comes behind a run. -/
def runTail (text : List Char) : List Char := text.drop (runRest text).length

theorem digitCount_runRest_add (text : List Char) :
    digitCount (runRest text) + digitCount (runTail text) = digitCount text := by
  rw [← digitCount_append, runTail, runRest_append]

/-- Induction from run to run. -/
@[elab_as_elim] theorem runs_induction {motive : List Char → Prop}
    (plain : ∀ text, digitCount text = 0 → motive text)
    (run : ∀ skipped ch rest, digitCount skipped = 0 → ch.isDigit = true →
      motive (runTail (ch :: rest)) → motive (skipped ++ ch :: rest))
    (text : List Char) : motive text := by
  induction size : text.length using Nat.strongRecOn generalizing text with
  | ind size ih =>
      cases found : text.find? Char.isDigit with
      | none =>
          apply plain
          rw [digitCount, List.countP_eq_zero]
          exact List.find?_eq_none.mp found
      | some ch =>
          rcases List.find?_eq_some_iff_append.mp found with ⟨digit, skipped, rest, rfl, noDigit⟩
          apply run skipped ch rest
          · rw [digitCount, List.countP_eq_zero]
            intro other member
            simpa using noDigit other member
          · exact digit
          · refine ih _ ?_ _ rfl
            rw [← size, runTail, runRest_digit digit, List.length_cons, List.drop_succ_cons,
              List.length_drop, List.length_append, List.length_cons]
            omega

theorem masked_of_few (few : before + digitCount text < 13) : masked before text = text := by
  induction text generalizing before with
  | nil => rfl
  | cons ch rest ih =>
      have inRun := digitCount_runRest_add (ch :: rest)
      rw [masked]
      by_cases digit : ch.isDigit = true
      · have shown : ¬Hidden before (digitCount (runRest (ch :: rest))) := by
          rw [Hidden]
          omega
        rw [digitCount_digit digit] at few
        rw [if_pos digit, if_neg shown, ih (by omega)]
      · have same : digitCount (ch :: rest) = digitCount rest := List.countP_cons_of_neg digit
        rw [same] at few
        rw [if_neg digit, ih]
        split
        · omega
        · exact few

theorem masked_of_short (short : before + digitCount (runRest text) < 13) :
    masked before text = runRest text ++ masked 0 (runTail text) := by
  induction text using run_induction generalizing before with
  | digit ch rest digit ih =>
      rw [runRest_digit digit, digitCount_digit digit] at short
      have shown : ¬Hidden before (digitCount (runRest rest) + 1) := by
        rw [Hidden]
        omega
      rw [masked_digit digit, if_neg shown, ih (by omega), runTail, runTail, runRest_digit digit]
      rfl
  | separator ch next after separator digit ih =>
      rw [runRest_separator separator digit, digitCount_separator separator] at short
      rw [masked_separator separator digit, ih short, runTail, runTail,
        runRest_separator separator digit]
      rfl
  | ended text ended =>
      rw [runTail, ended]
      cases text with
      | nil => rfl
      | cons ch rest =>
          rw [masked_ended ended]
          exact (masked_ended ended).symm

/-- Without digits in front a text is masked as if it stood alone. -/
theorem masked_skipped {skipped : List Char} (plain : digitCount skipped = 0) (rest : List Char) :
    masked 0 (skipped ++ rest) = skipped ++ masked 0 rest := by
  induction skipped with
  | nil => rfl
  | cons ch skipped ih =>
      rw [digitCount, List.countP_eq_zero] at plain
      have other := plain ch List.mem_cons_self
      have later : digitCount skipped = 0 :=
        List.countP_eq_zero.mpr fun other member => plain other (List.mem_cons_of_mem ch member)
      rw [List.cons_append, masked, if_neg other, ite_self, ih later, List.cons_append]

theorem filter_maskLoop (keepFrom digitIdx : Nat) (span : List Char) :
    (maskLoop keepFrom digitIdx span).filter Char.isDigit =
      (span.filter Char.isDigit).drop (keepFrom - digitIdx) := by
  induction span generalizing digitIdx with
  | nil => rw [maskLoop, List.filter_nil, List.drop_nil]
  | cons ch rest ih =>
      by_cases digit : ch.isDigit = true
      · rw [maskLoop, if_pos digit, List.filter_cons_of_pos digit]
        by_cases kept : keepFrom ≤ digitIdx
        · rw [if_pos kept, List.filter_cons_of_pos digit, ih]
          have none : keepFrom - digitIdx = 0 := Nat.sub_eq_zero_of_le kept
          have none' : keepFrom - (digitIdx + 1) = 0 := by omega
          rw [none, none']
          rfl
        · have star : ¬('*' : Char).isDigit = true := by decide
          have some : keepFrom - digitIdx = keepFrom - (digitIdx + 1) + 1 := by omega
          rw [if_neg kept, List.filter_cons_of_neg star, ih, some, List.drop_succ_cons]
      · rw [maskLoop, if_neg digit, List.filter_cons_of_neg digit, List.filter_cons_of_neg digit,
          ih]

/-- What is visible of the first run and of what comes behind it. -/
theorem visibleDigits_run {skipped : List Char} (plain : digitCount skipped = 0)
    (short : digitCount (runRest text) ≤ 19) :
    visibleDigits (skipped ++ text) =
      ((runRest text).filter Char.isDigit).drop
        (if 13 ≤ digitCount (runRest text) then digitCount (runRest text) - 4 else 0) ++
      visibleDigits (runTail text) := by
  have noDigits : skipped.filter Char.isDigit = [] := by
    rw [← List.length_eq_zero_iff, ← digitCount_eq_length, plain]
  rw [visibleDigits, masked_skipped plain, List.filter_append, noDigits, List.nil_append]
  by_cases long : 13 ≤ digitCount (runRest text)
  · rw [if_pos long, masked_run text 0 (digitCount (runRest text) - 4) 0 (by omega) short
      (by omega), List.filter_append, filter_maskLoop, Nat.sub_zero]
    rfl
  · rw [if_neg long, masked_of_short (by omega), List.filter_append]
    rfl

theorem visibleDigits_of_few (few : digitCount text < 13) :
    visibleDigits text = text.filter Char.isDigit := by
  rw [visibleDigits, masked_of_few (by omega)]

theorem le_length_visibleDigits (text : List Char) (short : digitCount text ≤ 19) :
    min 4 (digitCount text) ≤ (visibleDigits text).length := by
  induction text using runs_induction with
  | plain text none =>
      rw [none]
      exact Nat.zero_le _
  | run skipped ch rest none digit ih =>
      have inRun := digitCount_runRest_add (ch :: rest)
      rw [digitCount_append, none, Nat.zero_add] at short ⊢
      rw [visibleDigits_run none (by omega), List.length_append, List.length_drop,
        ← digitCount_eq_length]
      have later := ih (by omega)
      split
      · omega
      · omega

/-! ## The last four -/

/-- Of 13 to 19 digits exactly the last four stay visible when all are in the first run. -/
theorem visibleDigits_eq_iff {skipped : List Char} (none : digitCount skipped = 0)
    (digit : ch.isDigit = true) (long : 13 ≤ digitCount (ch :: rest))
    (short : digitCount (ch :: rest) ≤ 19) :
    visibleDigits (skipped ++ ch :: rest) =
        ((ch :: rest).filter Char.isDigit).drop (digitCount (ch :: rest) - 4) ↔
      digitCount (runRest (ch :: rest)) = digitCount (ch :: rest) := by
  have inRun := digitCount_runRest_add (ch :: rest)
  have some : 0 < digitCount (runRest (ch :: rest)) := by
    rw [runRest_digit digit, digitCount_digit digit]
    exact Nat.succ_pos _
  rw [visibleDigits_run none (by omega)]
  constructor
  · intro same
    have size := congrArg List.length same
    rw [List.length_append, List.length_drop, List.length_drop, ← digitCount_eq_length,
      ← digitCount_eq_length] at size
    have behind := le_length_visibleDigits (runTail (ch :: rest)) (by omega)
    by_cases few : digitCount (runTail (ch :: rest)) < 13
    · rw [visibleDigits_of_few few, ← digitCount_eq_length] at size behind
      split at size
      · omega
      · omega
    · split at size
      · omega
      · omega
  · intro same
    have nothing : digitCount (runTail (ch :: rest)) = 0 := by omega
    have whole : (ch :: rest).filter Char.isDigit =
        (runRest (ch :: rest)).filter Char.isDigit ++ (runTail (ch :: rest)).filter Char.isDigit := by
      rw [← List.filter_append, runTail, runRest_append]
    have noDigits : (runTail (ch :: rest)).filter Char.isDigit = [] := by
      rw [← List.length_eq_zero_iff, ← digitCount_eq_length, nothing]
    rw [visibleDigits_of_few (by omega), whole, noDigits, List.append_nil, List.append_nil,
      if_pos (by omega), same]

theorem le_of_digitAt {skipped : List Char} (none : digitCount skipped = 0) {position : Nat}
    (digit : DigitAt (skipped ++ text) position) : skipped.length ≤ position := by
  by_contra inside
  rcases digit with ⟨other, here, isDigit⟩
  rw [List.getElem?_append_left (Nat.lt_of_not_le inside)] at here
  exact List.countP_eq_zero.mp none other (List.mem_of_getElem? here) isDigit

/-- All digits are in one run when nothing is left of them behind the first run. -/
theorem exists_digitRun_iff {skipped : List Char} (none : digitCount skipped = 0)
    (digit : ch.isDigit = true) :
    (∃ run, DigitRun (skipped ++ ch :: rest) run ∧ run.length = digitCount (ch :: rest)) ↔
      digitCount (runRest (ch :: rest)) = digitCount (ch :: rest) := by
  have behind : (skipped ++ ch :: rest).drop skipped.length = ch :: rest := List.drop_left
  constructor
  · intro found
    rcases found with ⟨run, isRun, all⟩
    rcases List.exists_cons_of_ne_nil isRun.nonempty with ⟨first, others, rfl⟩
    have atStart : (first :: others)[0]? = some first := rfl
    have count := (isRun.counts atStart).2
    -- The run has all digits, so none comes before its first.
    have atFirst : first = skipped.length := by
      apply Nat.le_antisymm
      · by_contra later
        have sublist : ((skipped ++ ch :: rest).drop first).Sublist rest := by
          have shift : first = skipped.length + 1 + (first - skipped.length - 1) := by omega
          rw [shift, ← List.drop_drop, ← List.drop_drop, behind]
          exact List.drop_sublist _ _
        have fewer : digitCount ((skipped ++ ch :: rest).drop first) ≤ digitCount rest :=
          sublist.countP_le
        have inRun := digitCount_runRest_add ((skipped ++ ch :: rest).drop first)
        rw [digitCount_digit digit] at all
        omega
      · exact le_of_digitAt none (isRun.digits first List.mem_cons_self)
    rw [atFirst, behind, Nat.add_zero] at count
    exact count.trans all
  · intro same
    have here : DigitAt (skipped ++ ch :: rest) skipped.length := by
      refine ⟨ch, ?_, digit⟩
      rw [List.getElem?_append_right (Nat.le_refl _), Nat.sub_self, List.getElem?_cons_zero]
    have isFirst : ∀ other, ¬Joined (skipped ++ ch :: rest) other skipped.length := by
      intro other link
      have before := link.lt
      have after := le_of_digitAt none link.1
      omega
    rcases (existsUnique_digitRun here).exists with ⟨run, isRun, member⟩
    rcases List.mem_iff_getElem?.mp member with ⟨index, inRun⟩
    rcases isRun.counts inRun with ⟨passed, count⟩
    rw [passedAt_of_first here isFirst] at passed
    rw [behind, ← passed, Nat.add_zero] at count
    exact ⟨run, isRun, count.symm.trans same⟩

/-- For every text: redaction leaves visible exactly the digits that `last4` returns, if it
returns any, when the text does not have 13 to 19 digits or has all of them in one run. -/
theorem last4_agrees_iff (input : List Char) :
    ∃ output, redactPan input = some output ∧
      ((∀ digits, last4 input = some digits → output.filter Char.isDigit = digits) ↔
        (13 ≤ digitCount input → digitCount input ≤ 19 →
          ∃ run, DigitRun input run ∧ run.length = digitCount input)) := by
  refine ⟨masked 0 input, redactPan_eq input, ?_⟩
  have returned : ∀ digits, last4 input = some digits ↔
      (13 ≤ digitCount input ∧ digitCount input ≤ 19) ∧
        (input.filter Char.isDigit).drop (digitCount input - 4) = digits := by
    intro digits
    rw [digitCount_eq_length, last4]
    simp only [Option.ite_none_right_eq_some, Option.some.injEq]
  simp only [returned]
  have agrees : 13 ≤ digitCount input → digitCount input ≤ 19 →
      (visibleDigits input = (input.filter Char.isDigit).drop (digitCount input - 4) ↔
        ∃ run, DigitRun input run ∧ run.length = digitCount input) := by
    intro long short
    cases input using runs_induction with
    | plain input none => omega
    | run skipped ch rest none digit _ =>
        have noDigits : skipped.filter Char.isDigit = [] := by
          rw [← List.length_eq_zero_iff, ← digitCount_eq_length, none]
        rw [digitCount_append, none, Nat.zero_add] at long short ⊢
        rw [List.filter_append, noDigits, List.nil_append, visibleDigits_eq_iff none digit long short,
          exists_digitRun_iff none digit]
  constructor
  · intro same long short
    exact (agrees long short).mp (same _ ⟨⟨long, short⟩, rfl⟩)
  · intro oneRun digits found
    rcases found with ⟨⟨long, short⟩, rfl⟩
    exact (agrees long short).mpr (oneRun long short)

/-- A card number with two spaces between its groups. -/
def doubleSpaced : List Char := "4242  4242  4242  4242".toList

/-- What `last4` takes for a card number the redactor lets through. -/
theorem last4_disagrees : ¬∀ input output digits, redactPan input = some output →
    last4 input = some digits → output.filter Char.isDigit = digits := by
  intro agrees
  have same := agrees doubleSpaced doubleSpaced "4242".toList (by decide +kernel) (by decide +kernel)
  revert same
  decide +kernel

end RefundEngine
