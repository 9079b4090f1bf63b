import RefundEngine.DigitRuns

/-!
# What redaction leaves visible

The scanner finds the digit runs, so the redacted text is the masked text.  From this
follows when a card number survives: a run of 32 digits is masked only at its end, and what
stays in front is long enough for a card number again.
-/

namespace RefundEngine

open Utf8 (bytes)

section Scan

variable {ch : Char} {rest text : List Char} {i : Nat} {digits : List Char}
variable {lastWasSep : Bool}

theorem isDigit_lt (digit : ch.isDigit = true) : ch.toNat < 128 := by
  simp only [Char.isDigit, Bool.and_eq_true, decide_eq_true_eq, ge_iff_le,
    UInt32.le_iff_toNat_le] at digit
  exact Nat.lt_of_le_of_lt digit.2 (by decide)

theorem isSeparator_lt (separator : isSeparator ch = true) : ch.toNat < 128 := by
  simp only [isSeparator, decide_eq_true_eq] at separator
  rcases separator with rfl | rfl <;> decide

theorem bytes_ascii (rest : List Char) (ascii : ch.toNat < 128) :
    ∃ first, bytes (ch :: rest) = first :: bytes rest ∧ Utf8.FirstByte ch first ∧
      Char.ofNat first.toNat = ch := by
  rcases Utf8.firstByte ch with ⟨first, tail, encoded, lead, _⟩
  have length := String.length_utf8EncodeChar ch
  cases lead with
  | ascii size small same =>
      rw [encoded, size, List.length_cons, Nat.add_eq_right, List.length_eq_zero_iff] at length
      refine ⟨first, ?_, .ascii size small same, ?_⟩
      · rw [Utf8.bytes_cons, encoded, length]
        rfl
      · rw [same, Char.ofNat_toNat]
  | two size large | three size large | four size large => omega

theorem length_bytes_ascii (rest : List Char) (ascii : ch.toNat < 128) :
    (bytes (ch :: rest)).length = (bytes rest).length + 1 := by
  rcases bytes_ascii rest ascii with ⟨first, encoded, _, _⟩
  rw [encoded, List.length_cons]

/-- One round of the scanner, over characters. -/
theorem scanLoop_cons :
    scanLoop (bytes (ch :: rest)) i digits lastWasSep =
      if ch.isDigit then scanLoop (bytes rest) (i + 1) (digits ++ [ch]) false
      else if isSeparator ch = true ∧ lastWasSep = false ∧ digits ≠ [] then
        scanLoop (bytes rest) (i + 1) digits true
      else (i, digits, lastWasSep) := by
  by_cases ascii : ch.toNat < 128
  · rcases bytes_ascii rest ascii with ⟨first, encoded, lead, same⟩
    rw [encoded, scanLoop, isAsciiDigit_eq lead, same]
    simp only [isSeparator_iff lead]
  · rcases Utf8.firstByte ch with ⟨first, tail, encoded, lead, _⟩
    have notDigit : ¬ch.isDigit = true := mt isDigit_lt ascii
    have notSeparator : ¬isSeparator ch = true := mt isSeparator_lt ascii
    rw [Utf8.bytes_cons, encoded, List.cons_append, scanLoop, isAsciiDigit_eq lead,
      if_neg notDigit, if_neg notDigit, if_neg, if_neg]
    · intro continues
      exact notSeparator continues.1
    · intro continues
      exact notSeparator ((isSeparator_iff lead).mp continues.1)

/-- Once it has a digit, the scanner stops behind the run, having backed out a separator
that no digit follows. -/
theorem scanLoop_run (text : List Char) (i : Nat) (some : digits ≠ []) :
    (if (scanLoop (bytes text) i digits false).2.2
      then (scanLoop (bytes text) i digits false).1 - 1
      else (scanLoop (bytes text) i digits false).1) = i + (runRest text).length ∧
    (scanLoop (bytes text) i digits false).2.1 =
      digits ++ (runRest text).filter Char.isDigit := by
  induction text using run_induction generalizing i digits with
  | digit ch rest digit ih =>
      rw [scanLoop_cons, if_pos digit, runRest_digit digit, List.filter_cons_of_pos digit]
      rcases ih (i + 1) (List.append_ne_nil_of_right_ne_nil digits (List.cons_ne_nil ch []))
        with ⟨stop, found⟩
      rw [stop, found, List.length_cons, List.append_assoc]
      exact ⟨by omega, rfl⟩
  | separator ch next after separator digit ih =>
      have other : ¬ch.isDigit = true := by simp [not_isDigit_of_isSeparator separator]
      have step : scanLoop (bytes (ch :: next :: after)) i digits false =
          scanLoop (bytes (next :: after)) (i + 1) digits false := by
        rw [scanLoop_cons, if_neg other, if_pos ⟨separator, rfl, some⟩, scanLoop_cons,
          if_pos digit, scanLoop_cons, if_pos digit]
      rcases ih (i + 1) some with ⟨stop, found⟩
      rw [step, runRest_separator separator digit, List.filter_cons_of_neg other, stop, found,
        List.length_cons]
      exact ⟨by omega, rfl⟩
  | ended text ended =>
      rw [ended, List.filter_nil, List.append_nil, List.length_nil, Nat.add_zero]
      cases text with
      | nil => exact ⟨rfl, rfl⟩
      | cons ch rest =>
          have other : ¬ch.isDigit = true := by simp [not_isDigit_of_ended ended]
          by_cases separator : isSeparator ch = true
          · have step : scanLoop (bytes (ch :: rest)) i digits false = (i + 1, digits, true) := by
              rw [scanLoop_cons, if_neg other, if_pos ⟨separator, rfl, some⟩]
              cases rest with
              | nil => rfl
              | cons next after =>
                  have otherNext : ¬next.isDigit = true := by
                    intro digit
                    rw [runRest_separator separator digit] at ended
                    cases ended
                  rw [scanLoop_cons, if_neg otherNext, if_neg (by simp)]
            rw [step]
            exact ⟨rfl, rfl⟩
          · have step : scanLoop (bytes (ch :: rest)) i digits false = (i, digits, false) := by
              rw [scanLoop_cons, if_neg other]
              exact if_neg fun continues => separator continues.1
            rw [step]
            exact ⟨rfl, rfl⟩

theorem runRest_append (text : List Char) :
    runRest text ++ text.drop (runRest text).length = text := by
  induction text using run_induction with
  | digit ch rest digit ih => rw [runRest_digit digit, List.cons_append, List.length_cons,
      List.drop_succ_cons, ih]
  | separator ch next after separator digit ih =>
      rw [runRest_separator separator digit, List.cons_append, List.length_cons,
        List.drop_succ_cons, ih]
  | ended text ended => rw [ended, List.nil_append, List.length_nil, List.drop_zero]

theorem length_bytes_runRest (text : List Char) :
    (bytes (runRest text)).length = (runRest text).length := by
  induction text using run_induction with
  | digit ch rest digit ih =>
      rw [runRest_digit digit, length_bytes_ascii _ (isDigit_lt digit), ih, List.length_cons]
  | separator ch next after separator digit ih =>
      rw [runRest_separator separator digit, length_bytes_ascii _ (isSeparator_lt separator), ih,
        List.length_cons]
  | ended text ended =>
      rw [ended]
      rfl

/-- What the scanner finds from a digit. -/
theorem scanPan_eq (before rest : List Char) (digit : ch.isDigit = true) :
    scanPan (bytes (before ++ ch :: rest)) (bytes before).length =
      if 13 ≤ digitCount (runRest (ch :: rest)) ∧ digitCount (runRest (ch :: rest)) ≤ 19 then
        some ((bytes before).length + (runRest (ch :: rest)).length,
          (runRest (ch :: rest)).filter Char.isDigit)
      else none := by
  have step : scanLoop (bytes (ch :: rest)) (bytes before).length [] false =
      scanLoop (bytes rest) ((bytes before).length + 1) [ch] false := by
    rw [scanLoop_cons, if_pos digit]
    rfl
  rcases scanLoop_run rest ((bytes before).length + 1) (List.cons_ne_nil ch []) with
    ⟨stop, found⟩
  have all : [ch] ++ (runRest rest).filter Char.isDigit =
      (runRest (ch :: rest)).filter Char.isDigit := by
    rw [runRest_digit digit, List.filter_cons_of_pos digit]
    rfl
  have count : digitCount (runRest (ch :: rest)) =
      ((runRest (ch :: rest)).filter Char.isDigit).length := List.countP_eq_length_filter
  rw [scanPan, Utf8.bytes_append, List.drop_left, step]
  simp only [stop, found, all, count]
  rw [runRest_digit digit, List.length_cons, Nat.add_assoc, Nat.add_comm 1]

end Scan

/-! ## Redaction masks the runs -/

section Loop

variable {ch : Char} {before rest : List Char} {passed : Nat}

/-- Why the scanner has nothing to hide in what has passed of the current run: nothing has
passed, more than a card number is still to come, or the run is too short for one. -/
def Safe (passed left : Nat) : Prop := passed = 0 ∨ 19 ≤ left ∨ passed + left < 13

theorem masked_of_unmatched (safe : Safe passed (digitCount (runRest (ch :: rest))))
    (unmatched : ¬(ch.isDigit = true ∧ 13 ≤ digitCount (runRest (ch :: rest)) ∧
      digitCount (runRest (ch :: rest)) ≤ 19)) :
    ∃ passed', masked passed (ch :: rest) = ch :: masked passed' rest ∧
      Safe passed' (digitCount (runRest rest)) := by
  generalize shape : ch :: rest = text at safe unmatched
  induction text using run_induction with
  | digit ch' rest' digit =>
      cases shape
      rw [runRest_digit digit, digitCount_digit digit] at safe unmatched
      simp only [digit, true_and] at unmatched
      rw [Safe] at safe
      have visible : ¬Hidden passed (digitCount (runRest rest) + 1) := by
        rw [Hidden]
        omega
      refine ⟨passed + 1, ?_, ?_⟩
      · rw [masked_digit digit, if_neg visible]
      · rw [Safe]
        omega
  | separator ch' next after separator digit =>
      cases shape
      rw [runRest_separator separator digit, digitCount_separator separator] at safe
      exact ⟨passed, masked_separator separator digit, safe⟩
  | ended text ended =>
      subst shape
      exact ⟨0, masked_ended ended, .inl rfl⟩

theorem byte_at (before rest : List Char) (ch : Char) :
    ∃ first, (bytes (before ++ ch :: rest))[(bytes before).length]? = some first ∧
      isPanStart (bytes (before ++ ch :: rest)) (bytes before).length = ch.isDigit ∧
      utf8Len first = (bytes [ch]).length := by
  rcases Utf8.firstByte ch with ⟨first, tail, encoded, lead, _⟩
  have here : (bytes (before ++ ch :: rest))[(bytes before).length]? = some first := by
    rw [Utf8.bytes_append, Utf8.bytes_cons, encoded]
    simp
  refine ⟨first, here, ?_, ?_⟩
  · rw [isPanStart, here]
    exact isAsciiDigit_eq lead
  · rw [utf8Len_eq lead, ← String.length_utf8EncodeChar, Utf8.bytes_cons, Utf8.bytes_nil,
      List.append_nil]

theorem redactLoop_matched (before rest : List Char) (fuel : Nat) (out : List Char)
    (digit : ch.isDigit = true) (long : 13 ≤ digitCount (runRest (ch :: rest)))
    (short : digitCount (runRest (ch :: rest)) ≤ 19) :
    redactLoop (before ++ ch :: rest) (fuel + 1) (bytes before).length out =
      redactLoop (before ++ ch :: rest) fuel (bytes (before ++ runRest (ch :: rest))).length
        (out ++ maskLoop (digitCount (runRest (ch :: rest)) - 4) 0 (runRest (ch :: rest))) := by
  rcases byte_at before rest ch with ⟨first, here, start, _⟩
  have scanned := scanPan_eq before rest digit
  rw [if_pos ⟨long, short⟩, ← length_bytes_runRest] at scanned
  have sliced : Utf8.slice (before ++ ch :: rest) (bytes before).length
      ((bytes before).length + (bytes (runRest (ch :: rest))).length) =
        some (runRest (ch :: rest)) := by
    have whole := Utf8.slice_append before (runRest (ch :: rest))
      ((ch :: rest).drop (runRest (ch :: rest)).length)
    rw [runRest_append] at whole
    exact whole
  have count : ((runRest (ch :: rest)).filter Char.isDigit).length =
      digitCount (runRest (ch :: rest)) := List.countP_eq_length_filter.symm
  rw [Utf8.bytes_append, List.length_append]
  simp only [redactLoop, here, start, digit, if_true, scanned, sliced, maskKeepingLast4, count]

theorem redactLoop_copied (before rest : List Char) (fuel : Nat) (out : List Char)
    (unmatched : ¬(ch.isDigit = true ∧ 13 ≤ digitCount (runRest (ch :: rest)) ∧
      digitCount (runRest (ch :: rest)) ≤ 19)) :
    redactLoop (before ++ ch :: rest) (fuel + 1) (bytes before).length out =
      redactLoop (before ++ ch :: rest) fuel (bytes (before ++ [ch])).length (out ++ [ch]) := by
  rcases byte_at before rest ch with ⟨first, here, start, size⟩
  have sliced := Utf8.slice_append before [ch] rest
  rw [List.singleton_append] at sliced
  have scanned : (if ch.isDigit = true then
      scanPan (bytes (before ++ ch :: rest)) (bytes before).length else none) = none := by
    by_cases digit : ch.isDigit = true
    · rw [if_pos digit, scanPan_eq before rest digit, if_neg]
      intro found
      exact unmatched ⟨digit, found⟩
    · exact if_neg digit
  rw [Utf8.bytes_append before, List.length_append]
  simp only [redactLoop, here, start, scanned, size, sliced]

/-- The loop goes on as if it masked the runs, by induction on the rounds left. -/
theorem redactLoop_eq (before rest : List Char) (passed fuel : Nat) (out : List Char)
    (enough : rest.length ≤ fuel) (safe : Safe passed (digitCount (runRest rest))) :
    redactLoop (before ++ rest) fuel (bytes before).length out =
      some (out ++ masked passed rest) := by
  induction fuel generalizing before rest passed out with
  | zero =>
      cases List.length_eq_zero_iff.mp (Nat.le_zero.mp enough)
      rw [List.append_nil, redactLoop, if_neg (Nat.lt_irrefl _), masked, List.append_nil]
  | succ fuel ih =>
      cases rest with
      | nil =>
          have ended : (bytes before)[(bytes before).length]? = none :=
            List.getElem?_eq_none (Nat.le_refl _)
          simp only [redactLoop, ended, masked, List.append_nil]
      | cons ch rest =>
          by_cases matched : ch.isDigit = true ∧ 13 ≤ digitCount (runRest (ch :: rest)) ∧
              digitCount (runRest (ch :: rest)) ≤ 19
          · rcases matched with ⟨digit, long, short⟩
            rw [redactLoop_matched before rest fuel out digit long short]
            have whole : before ++ ch :: rest = (before ++ runRest (ch :: rest)) ++
                (ch :: rest).drop (runRest (ch :: rest)).length := by
              rw [List.append_assoc, runRest_append]
            have shorter : ((ch :: rest).drop (runRest (ch :: rest)).length).length ≤ fuel := by
              rw [runRest_digit digit, List.length_cons, List.drop_succ_cons, List.length_drop]
              rw [List.length_cons] at enough
              omega
            rw [whole, ih _ _ 0 _ shorter (.inl rfl), List.append_assoc,
              masked_run (ch :: rest) passed (digitCount (runRest (ch :: rest)) - 4) 0
                (by omega) short (by omega)]
          · rcases masked_of_unmatched safe matched with ⟨passed', copied, safe'⟩
            rw [redactLoop_copied before rest fuel out matched, copied]
            have whole : before ++ ch :: rest = (before ++ [ch]) ++ rest := by simp
            rw [whole, ih _ _ passed' _ (Nat.le_of_succ_le_succ enough) safe']
            simp

/-- Redaction always returns, with the masked text. -/
theorem redactPan_eq (input : List Char) : redactPan input = some (masked 0 input) := by
  have loop := redactLoop_eq [] input 0 (bytes input).length []
    (Utf8.length_le_length_bytes input) (.inl rfl)
  exact loop

end Loop

end RefundEngine
