import RefundEngine.MaximalChains
import RefundEngine.Redaction

/-!
# Exactly what is masked

The digits of a text fall into maximal runs, in which neighbours touch or have one separator
between them.  What redaction makes of a digit depends on its index in its run and on the
length of the run; every other character is kept.
-/

namespace RefundEngine

open MaximalChains (Maximal Orderly)

def DigitAt (text : List Char) (position : Nat) : Prop :=
  ∃ ch, text[position]? = some ch ∧ ch.isDigit = true

def SeparatorAt (text : List Char) (position : Nat) : Prop :=
  ∃ ch, text[position]? = some ch ∧ isSeparator ch = true

/-- Neighbouring digits of a run touch, or have exactly one separator between them. -/
def Joined (text : List Char) (left right : Nat) : Prop :=
  DigitAt text left ∧ DigitAt text right ∧
    (right = left + 1 ∨ (right = left + 2 ∧ SeparatorAt text (left + 1)))

/-- The positions of the digits of a maximal run. -/
structure DigitRun (text : List Char) (run : List Nat) : Prop where
  nonempty : run ≠ []
  digits : ∀ position ∈ run, DigitAt text position
  maximal : Maximal (Joined text) run

/-- A digit is masked when its run has at least 13 digits and its index is among the last
19, but not among the last four. -/
def MaskedIndex (length index : Nat) : Prop :=
  13 ≤ length ∧ (length : Int) - 19 ≤ index ∧ (index : Int) < length - 4

instance (length index : Nat) : Decidable (MaskedIndex length index) :=
  inferInstanceAs (Decidable (_ ∧ _ ∧ _))

variable {text : List Char} {position left right : Nat}

theorem drop_of_getElem? {ch : Char} (here : text[position]? = some ch) :
    text.drop position = ch :: text.drop (position + 1) := by
  rcases List.getElem?_eq_some_iff.mp here with ⟨bound, rfl⟩
  exact List.drop_eq_getElem_cons bound

theorem exists_getElem?_of_lt (bound : position < text.length) :
    ∃ ch, text[position]? = some ch :=
  ⟨text[position], List.getElem?_eq_getElem bound⟩

theorem DigitAt.lt_length (digit : DigitAt text position) : position < text.length := by
  rcases digit with ⟨ch, here, _⟩
  exact (List.getElem?_eq_some_iff.mp here).1

theorem not_separatorAt (digit : DigitAt text position) : ¬SeparatorAt text position := by
  intro separator
  rcases digit with ⟨ch, here, isDigit⟩
  rcases separator with ⟨other, here', isSep⟩
  cases here.symm.trans here'
  rw [not_isDigit_of_isSeparator isSep] at isDigit
  cases isDigit

theorem Joined.lt (link : Joined text left right) : left < right := by
  rcases link with ⟨_, _, rfl | ⟨rfl, _⟩⟩
  · exact Nat.lt_add_one left
  · exact Nat.lt_add_of_pos_right (by decide)

/-- Digits have at most one neighbour on either side. -/
theorem joined_orderly (text : List Char) : Orderly (Joined text) where
  next_unique := by
    intro position left right link link'
    rcases link with ⟨_, leftDigit, rfl | ⟨rfl, separator⟩⟩
    · rcases link' with ⟨_, _, rfl | ⟨rfl, separator'⟩⟩
      · rfl
      · exact (not_separatorAt leftDigit separator').elim
    · rcases link' with ⟨_, rightDigit, rfl | ⟨rfl, _⟩⟩
      · exact (not_separatorAt rightDigit separator).elim
      · rfl
  previous_unique := by
    intro position left right link link'
    rcases link with ⟨leftDigit, _, next | ⟨next, separator⟩⟩
    · rcases link' with ⟨_, _, next' | ⟨next', separator'⟩⟩
      · omega
      · have same : right + 1 = left := by omega
        exact (not_separatorAt leftDigit (same ▸ separator')).elim
    · rcases link' with ⟨rightDigit, _, next' | ⟨next', _⟩⟩
      · have same : left + 1 = right := by omega
        exact (not_separatorAt rightDigit (same ▸ separator)).elim
      · omega
  forward := by
    apply Subrelation.wf _ (measure fun position => text.length - position).wf
    intro after before link
    have later := link.lt
    have bound := link.2.1.lt_length
    exact Nat.sub_lt_sub_left (Nat.lt_trans later bound) later
  backward := Subrelation.wf Joined.lt Nat.lt_wfRel.wf

/-- Every digit is in exactly one run. -/
theorem existsUnique_digitRun (digit : DigitAt text position) :
    ∃! run, DigitRun text run ∧ position ∈ run := by
  rcases (joined_orderly text).existsUnique_maximal position with ⟨run, found, unique⟩
  rcases found with ⟨maximal, member⟩
  exists run
  constructor
  · refine ⟨⟨List.ne_nil_of_mem member, ?_, maximal⟩, member⟩
    exact MaximalChains.forall_of_isChain maximal.links (fun _ _ link => ⟨link.1, link.2.1⟩)
      member digit
  · intro other isOther
    exact unique other ⟨isOther.1.maximal, isOther.2⟩

theorem runRest_of_last (digit : DigitAt text position)
    (last : ∀ other, ¬Joined text position other) :
    runRest (text.drop (position + 1)) = [] := by
  cases shape : text.drop (position + 1) with
  | nil => rfl
  | cons ch rest =>
      have here : text[position + 1]? = some ch := by
        rw [← List.head?_drop, shape]
        rfl
      apply runRest_ended
      · intro isDigit
        exact last (position + 1) ⟨digit, ⟨ch, here, isDigit⟩, .inl rfl⟩
      · intro separator next isNext isDigit
        have later : text[position + 2]? = some next := by
          rw [← List.head?_drop, ← List.tail_drop, shape]
          exact isNext
        exact last (position + 2)
          ⟨digit, ⟨next, later, isDigit⟩, .inr ⟨rfl, ch, here, separator⟩⟩

theorem digitCount_of_joined (link : Joined text left right) :
    digitCount (runRest (text.drop left)) = digitCount (runRest (text.drop right)) + 1 := by
  rcases link with ⟨⟨ch, here, isDigit⟩, ⟨next, there, nextDigit⟩, adjacent⟩
  rw [drop_of_getElem? here, runRest_digit isDigit, digitCount_digit isDigit]
  rcases adjacent with rfl | ⟨rfl, other, between, separator⟩
  · rfl
  · rw [drop_of_getElem? between, drop_of_getElem? there,
      runRest_separator separator nextDigit, digitCount_separator separator]

/-- How many digits of the current run have passed when masking reaches a position. -/
def passedAt : (before : Nat) → List Char → (position : Nat) → Nat
  | before, _, 0 => before
  | before, [], _ + 1 => before
  | before, ch :: rest, position + 1 =>
      passedAt
        (if ch.isDigit then before + 1 else if runRest (ch :: rest) = [] then 0 else before)
        rest position

theorem length_masked (before : Nat) (text : List Char) :
    (masked before text).length = text.length := by
  induction text generalizing before with
  | nil => rfl
  | cons ch rest ih =>
      rw [masked]
      split
      · rw [List.length_cons, List.length_cons, ih]
      · rw [List.length_cons, List.length_cons, ih]

/-- The masked text, position by position. -/
theorem getElem?_masked (before : Nat) (text : List Char) (position : Nat) :
    (masked before text)[position]? = text[position]?.map fun ch =>
      if ch.isDigit = true ∧
        Hidden (passedAt before text position) (digitCount (runRest (text.drop position)))
      then '*' else ch := by
  induction text generalizing before position with
  | nil => rfl
  | cons ch rest ih =>
      rw [masked]
      cases position with
      | zero =>
          by_cases isDigit : ch.isDigit = true
          · simp [isDigit, passedAt]
          · simp [isDigit]
      | succ position =>
          by_cases isDigit : ch.isDigit = true
          · simp [isDigit, ih, passedAt]
          · simp [isDigit, ih, passedAt]

theorem passedAt_add (before : Nat) (text : List Char) (position more : Nat) :
    passedAt before text (position + more) =
      passedAt (passedAt before text position) (text.drop position) more := by
  induction text generalizing before position with
  | nil => cases position <;> cases more <;> rfl
  | cons ch rest ih =>
      cases position with
      | zero => rw [Nat.zero_add, List.drop_zero, passedAt]
      | succ position =>
          rw [Nat.succ_add_eq_add_succ, Nat.add_succ, passedAt, ih]
          rfl

theorem passedAt_of_joined (before : Nat) (link : Joined text left right) :
    passedAt before text right = passedAt before text left + 1 := by
  rcases link with ⟨⟨ch, here, isDigit⟩, ⟨next, there, nextDigit⟩, adjacent⟩
  rcases adjacent with rfl | ⟨rfl, other, between, separator⟩
  · rw [passedAt_add, drop_of_getElem? here, passedAt, if_pos isDigit, passedAt]
  · have other : ¬other.isDigit = true := by simp [not_isDigit_of_isSeparator separator]
    rw [passedAt_add, drop_of_getElem? here, drop_of_getElem? between, drop_of_getElem? there,
      passedAt, if_pos isDigit, passedAt, if_neg other, runRest_separator separator nextDigit,
      if_neg (List.cons_ne_nil _ _), passedAt]

theorem passedAt_of_ended (before : Nat) {ch : Char} (here : text[position]? = some ch)
    (ended : runRest (text.drop position) = []) : passedAt before text (position + 1) = 0 := by
  rw [drop_of_getElem? here] at ended
  rw [passedAt_add, drop_of_getElem? here, passedAt,
    if_neg (by simp [not_isDigit_of_ended ended]), if_pos ended, passedAt]

theorem passedAt_of_first (digit : DigitAt text position)
    (first : ∀ other, ¬Joined text other position) : passedAt 0 text position = 0 := by
  cases position with
  | zero => rw [passedAt]
  | succ position =>
      rcases exists_getElem?_of_lt (Nat.lt_of_succ_lt digit.lt_length) with ⟨ch, here⟩
      have other : ¬ch.isDigit = true := by
        intro isDigit
        exact first position ⟨⟨ch, here, isDigit⟩, digit, .inl rfl⟩
      by_cases ended : runRest (text.drop position) = []
      · exact passedAt_of_ended 0 here ended
      · -- A separator: then the digit in front of it would be a neighbour.
        have separator : isSeparator ch = true := by
          by_contra plain
          rw [drop_of_getElem? here] at ended
          exact ended (runRest_ended other fun isSep => absurd isSep plain)
        rw [drop_of_getElem? here] at ended
        rw [passedAt_add, drop_of_getElem? here, passedAt, if_neg other, if_neg ended, passedAt]
        cases position with
        | zero => rw [passedAt]
        | succ position =>
            rcases exists_getElem?_of_lt (Nat.lt_of_succ_lt (Nat.lt_of_succ_lt digit.lt_length))
              with ⟨previous, behind⟩
            apply passedAt_of_ended 0 behind
            rw [drop_of_getElem? behind, drop_of_getElem? here]
            apply runRest_ended
            · intro isDigit
              exact first position
                ⟨⟨previous, behind, isDigit⟩, digit, .inr ⟨rfl, ch, here, separator⟩⟩
            · intro _ next isNext
              cases isNext
              exact other

/-- Along a chain of neighbours the digits passed grow by one and those left shrink by one. -/
theorem counts_of_isChain {first : Nat} {rest : List Nat}
    (links : (first :: rest).IsChain (Joined text)) (digit : DigitAt text first)
    (stops : ∀ last ∈ (first :: rest).getLast?, ∀ other, ¬Joined text last other) (index : Nat)
    (here : (first :: rest)[index]? = some position) :
    passedAt 0 text position = passedAt 0 text first + index ∧
      digitCount (runRest (text.drop position)) + index = rest.length + 1 := by
  induction rest generalizing first index position with
  | nil =>
      cases index with
      | succ index => cases here
      | zero =>
          cases here
          have last := runRest_of_last digit (stops position rfl)
          rcases digit with ⟨ch, here, isDigit⟩
          rw [drop_of_getElem? here, runRest_digit isDigit, digitCount_digit isDigit, last]
          exact ⟨rfl, rfl⟩
  | cons next rest ih =>
      rw [List.isChain_cons_cons] at links
      rw [List.getLast?_cons_cons] at stops
      cases index with
      | zero =>
          cases here
          have count := (ih links.2 links.1.2.1 stops 0 rfl).2
          rw [digitCount_of_joined links.1, List.length_cons]
          exact ⟨rfl, by omega⟩
      | succ index =>
          have counts := ih links.2 links.1.2.1 stops index here
          rw [passedAt_of_joined 0 links.1] at counts
          rw [List.length_cons]
          omega

/-- What masking has counted at a digit of a run: its index, and what is left of the run. -/
theorem DigitRun.counts {run : List Nat} (isRun : DigitRun text run) {index : Nat}
    (here : run[index]? = some position) :
    passedAt 0 text position = index ∧
      digitCount (runRest (text.drop position)) + index = run.length := by
  rcases isRun with ⟨nonempty, digits, maximal⟩
  cases run with
  | nil => exact (nonempty rfl).elim
  | cons first rest =>
      have digit := digits first List.mem_cons_self
      have counts := counts_of_isChain maximal.links digit maximal.stops index here
      rw [passedAt_of_first digit (maximal.starts first rfl), Nat.zero_add] at counts
      exact counts

/-! ## Redaction -/

/-- For every text: redaction returns, every digit is in exactly one run, a digit of a run is
masked exactly when its index says so, and every other character is what it was. -/
theorem redactPan_exact (input : List Char) :
    ∃ output, redactPan input = some output ∧ output.length = input.length ∧
      (∀ position, DigitAt input position → ∃! run, DigitRun input run ∧ position ∈ run) ∧
      (∀ run index position, DigitRun input run → run[index]? = some position →
        output[position]? = if MaskedIndex run.length index then some '*' else input[position]?) ∧
      ∀ position, ¬DigitAt input position → output[position]? = input[position]? := by
  refine ⟨masked 0 input, redactPan_eq input, length_masked 0 input, ?_, ?_, ?_⟩
  · intro position digit
    exact existsUnique_digitRun digit
  · intro run index position isRun here
    rcases isRun.counts here with ⟨passed, left⟩
    rcases isRun.digits position (List.mem_of_getElem? here) with ⟨ch, inText, isDigit⟩
    have same : Hidden (passedAt 0 input position) (digitCount (runRest (input.drop position))) ↔
        MaskedIndex run.length index := by
      rw [passed, Hidden, MaskedIndex]
      omega
    simp only [getElem?_masked, inText, Option.map_some, isDigit, true_and, same]
    exact apply_ite some _ _ _
  · intro position other
    rw [getElem?_masked]
    cases inText : input[position]? with
    | none => rfl
    | some ch =>
        have plain : ¬ch.isDigit = true := fun isDigit => other ⟨ch, inText, isDigit⟩
        rw [Option.map_some, if_neg fun hidden => plain hidden.1]

end RefundEngine
