import RefundEngine.Redaction

/-!
# Redaction never slices inside a character

The loop walks bytes and slices the string.  Its index only ever stands between characters,
since a card number is ASCII and any other character is copied whole.
-/

namespace RefundEngine

open Utf8 (bytes Boundary)

/-- The card number a round of the loop finds at its index. -/
def panAt (input : List Char) (i : Nat) : Option (Nat × List Char) :=
  if isPanStart (bytes input) i then scanPan (bytes input) i else none

/-- The loop stands at a byte index, with what it has put out so far. -/
inductive Visits (input : List Char) : (i : Nat) → (out : List Char) → Prop where
  | start : Visits input 0 []
  | masked {i stop : Nat} {out digits span : List Char} {b : UInt8} (visits : Visits input i out)
      (here : (bytes input)[i]? = some b) (found : panAt input i = some (stop, digits))
      (sliced : Utf8.slice input i stop = some span) :
      Visits input stop (out ++ maskKeepingLast4 span digits)
  | copied {i : Nat} {out piece : List Char} {b : UInt8} (visits : Visits input i out)
      (here : (bytes input)[i]? = some b) (found : panAt input i = none)
      (sliced : Utf8.slice input i (i + utf8Len b) = some piece) :
      Visits input (i + utf8Len b) (out ++ piece)

/-- A slice that the code may take: not empty, in bounds and between characters. -/
structure SafeSlice (input : List Char) (start stop : Nat) : Prop where
  increases : start < stop
  inBounds : stop ≤ (bytes input).length
  startBoundary : Boundary input start
  stopBoundary : Boundary input stop
  defined : (Utf8.slice input start stop).isSome

variable {input before rest out : List Char} {ch : Char} {i stop : Nat} {b : UInt8}

theorem bytes_ne_nil {piece : List Char} (some : piece ≠ []) : bytes piece ≠ [] := by
  intro empty
  have bound := Utf8.length_le_length_bytes piece
  rw [empty, List.length_nil, Nat.le_zero, List.length_eq_zero_iff] at bound
  exact some bound

theorem safeSlice_piece {piece : List Char} (some : piece ≠ []) :
    SafeSlice (before ++ (piece ++ rest)) (bytes before).length
      ((bytes before).length + (bytes piece).length) where
  increases := Nat.lt_add_of_pos_right (List.length_pos_of_ne_nil (bytes_ne_nil some))
  inBounds := by
    rw [Utf8.bytes_append, Utf8.bytes_append, List.length_append, List.length_append]
    omega
  startBoundary := ⟨before, piece ++ rest, rfl, rfl⟩
  stopBoundary := by
    refine ⟨before ++ piece, rest, ?_, ?_⟩
    · rw [List.append_assoc]
    · rw [Utf8.bytes_append, List.length_append]
  defined := by rw [Utf8.slice_append, Option.isSome_some]

theorem panAt_eq (before rest : List Char) (ch : Char) :
    panAt (before ++ ch :: rest) (bytes before).length =
      if ch.isDigit = true ∧ 13 ≤ digitCount (runRest (ch :: rest)) ∧
        digitCount (runRest (ch :: rest)) ≤ 19
      then
        some ((bytes before).length + (runRest (ch :: rest)).length,
          (runRest (ch :: rest)).filter Char.isDigit)
      else none := by
  rcases byte_at before rest ch with ⟨first, here, start, _⟩
  rw [panAt, start]
  by_cases digit : ch.isDigit = true
  · rw [if_pos digit, scanPan_eq before rest digit]
    simp only [digit, true_and]
  · rw [if_neg digit, if_neg fun found => digit found.1]

theorem safeSlice_run (before rest : List Char) (digit : ch.isDigit = true) :
    SafeSlice (before ++ ch :: rest) (bytes before).length
      ((bytes before).length + (runRest (ch :: rest)).length) := by
  have run : runRest (ch :: rest) ≠ [] := by
    rw [runRest_digit digit]
    exact List.cons_ne_nil _ _
  have whole := runRest_append (ch :: rest)
  have safe : SafeSlice (before ++ (runRest (ch :: rest) ++
      (ch :: rest).drop (runRest (ch :: rest)).length)) (bytes before).length
      ((bytes before).length + (bytes (runRest (ch :: rest))).length) := safeSlice_piece run
  rw [whole, length_bytes_runRest] at safe
  exact safe

theorem safeSlice_char (here : (bytes (before ++ ch :: rest))[(bytes before).length]? = some b) :
    SafeSlice (before ++ ch :: rest) (bytes before).length
      ((bytes before).length + utf8Len b) := by
  rcases byte_at before rest ch with ⟨first, here', _, size⟩
  cases here.symm.trans here'
  rw [size]
  exact safeSlice_piece (List.cons_ne_nil ch [])

theorem safeSlice_round (here : (bytes (before ++ ch :: rest))[(bytes before).length]? = some b) :
    match panAt (before ++ ch :: rest) (bytes before).length with
    | some (stop, _) => SafeSlice (before ++ ch :: rest) (bytes before).length stop
    | none => SafeSlice (before ++ ch :: rest) (bytes before).length
        ((bytes before).length + utf8Len b) := by
  rw [panAt_eq]
  by_cases found : ch.isDigit = true ∧ 13 ≤ digitCount (runRest (ch :: rest)) ∧
      digitCount (runRest (ch :: rest)) ≤ 19
  · rw [if_pos found]
    exact safeSlice_run before rest found.1
  · rw [if_neg found]
    exact safeSlice_char here

/-- Neither an ASCII byte nor one that starts two or three: where `utf8Len` falls back. -/
def FallsBack (b : UInt8) : Prop := ¬b < 0x80 ∧ b >>> 5 ≠ 0b110 ∧ b >>> 4 ≠ 0b1110

/-- Only the first byte of a four-byte character falls back. -/
theorem four_of_fallsBack (lead : Utf8.FirstByte ch b) (fallsBack : FallsBack b) :
    ch.utf8Size = 4 ∧ 0xF0 ≤ b.toNat ∧ b.toNat < 0xF8 := by
  have size : utf8Len b = 4 := by
    rw [utf8Len, if_neg fallsBack.1, if_neg fallsBack.2.1, if_neg fallsBack.2.2]
  rw [utf8Len_eq lead] at size
  cases lead with
  | ascii ascii _ _ => omega
  | two two _ _ _ => omega
  | three three _ _ _ => omega
  | four _ _ low high => exact ⟨size, low, high⟩

/-- The scanner ends behind the digit it starts from, having backed out a separator. -/
theorem scanLoop_end (before rest : List Char) (digit : ch.isDigit = true) {digits : List Char}
    {lastWasSep : Bool} (scanned : scanLoop ((bytes (before ++ ch :: rest)).drop
      (bytes before).length) (bytes before).length [] false = (stop, digits, lastWasSep)) :
    (if lastWasSep then stop - 1 else stop) =
      (bytes before).length + (runRest (ch :: rest)).length := by
  have step : scanLoop (bytes (ch :: rest)) (bytes before).length [] false =
      scanLoop (bytes rest) ((bytes before).length + 1) [ch] false := by
    rw [scanLoop_cons, if_pos digit]
    rfl
  have run := (scanLoop_run rest ((bytes before).length + 1) (List.cons_ne_nil ch [])).1
  rw [Utf8.bytes_append, List.drop_left, step] at scanned
  rw [scanned] at run
  rw [run, runRest_digit digit, List.length_cons, Nat.add_assoc, Nat.add_comm 1]

/-! ## The loop -/

/-- The loop stands between characters. -/
theorem Visits.boundary (visits : Visits input i out) : Boundary input i := by
  induction visits with
  | start => exact ⟨[], input, rfl, rfl⟩
  | masked _ _ _ sliced _ => exact (Utf8.boundary_of_slice sliced).2.1
  | copied _ _ _ sliced _ => exact (Utf8.boundary_of_slice sliced).2.1

theorem Visits.exists_char (visits : Visits input i out) (here : (bytes input)[i]? = some b) :
    ∃ before ch rest, input = before ++ ch :: rest ∧ i = (bytes before).length :=
  visits.boundary.exists_char here

theorem Visits.safeSlice (visits : Visits input i out) (here : (bytes input)[i]? = some b) :
    match panAt input i with
    | some (stop, _) => SafeSlice input i stop
    | none => SafeSlice input i (i + utf8Len b) := by
  rcases visits.exists_char here with ⟨before, ch, rest, rfl, rfl⟩
  exact safeSlice_round here

/-- A round leads on, to a greater index. -/
theorem Visits.exists_next (visits : Visits input i out) (here : (bytes input)[i]? = some b) :
    ∃ next out', Visits input next out' ∧ i < next ∧ next ≤ (bytes input).length := by
  have safe := visits.safeSlice here
  cases found : panAt input i with
  | some match? =>
      rcases match? with ⟨stop, digits⟩
      rw [found] at safe
      rcases Option.isSome_iff_exists.mp safe.defined with ⟨span, sliced⟩
      exact ⟨stop, _, visits.masked here found sliced, safe.increases, safe.inBounds⟩
  | none =>
      rw [found] at safe
      rcases Option.isSome_iff_exists.mp safe.defined with ⟨piece, sliced⟩
      exact ⟨_, _, visits.copied here found sliced, safe.increases, safe.inBounds⟩

/-- The loop comes to the end of the bytes, since each round moves it on. -/
theorem Visits.exists_end (visits : Visits input i out) (bound : i ≤ (bytes input).length) :
    ∃ output, Visits input (bytes input).length output := by
  induction left : (bytes input).length - i using Nat.strongRecOn generalizing i out with
  | ind left ih =>
      rcases Nat.lt_or_eq_of_le bound with inside | rfl
      · have here := List.getElem?_eq_getElem inside
        rcases visits.exists_next here with ⟨next, out', visits', later, bound'⟩
        exact ih _ (by omega) visits' bound' rfl
      · exact ⟨out, visits⟩

theorem Visits.redactPan_eq_loop (visits : Visits input i out) :
    ∃ fuel, redactPan input = redactLoop input fuel i out ∧
      (bytes input).length ≤ i + fuel := by
  have goesOn : ∀ {i next : Nat} {b : UInt8} {fuel : Nat}, (bytes input)[i]? = some b →
      (bytes input).length ≤ i + fuel → i < next →
      ∃ fuel', fuel = fuel' + 1 ∧ (bytes input).length ≤ next + fuel' := by
    intro i next b fuel here enough later
    have inside := (List.getElem?_eq_some_iff.mp here).1
    exact ⟨fuel - 1, by omega, by omega⟩
  induction visits with
  | start => exact ⟨(bytes input).length, rfl, by omega⟩
  | masked visits here found sliced ih =>
      rcases ih with ⟨fuel, same, enough⟩
      have safe := visits.safeSlice here
      rw [found] at safe
      rcases goesOn here enough safe.increases with ⟨fuel, rfl, enough'⟩
      refine ⟨fuel, same.trans ?_, enough'⟩
      rw [panAt] at found
      simp only [redactLoop, here, found, sliced]
  | copied visits here found sliced ih =>
      rcases ih with ⟨fuel, same, enough⟩
      have safe := visits.safeSlice here
      rw [found] at safe
      rcases goesOn here enough safe.increases with ⟨fuel, rfl, enough'⟩
      refine ⟨fuel, same.trans ?_, enough'⟩
      rw [panAt] at found
      simp only [redactLoop, here, found, sliced]

/-- At the end of the bytes the output is what redaction returns. -/
theorem Visits.redactPan_of_end (visits : Visits input (bytes input).length out) :
    redactPan input = some out := by
  rcases visits.redactPan_eq_loop with ⟨fuel, same, _⟩
  rw [same]
  cases fuel with
  | zero => exact if_neg (Nat.lt_irrefl _)
  | succ fuel => simp only [redactLoop, List.getElem?_eq_none (Nat.le_refl _)]

theorem length_bytes_masked (before : Nat) (text : List Char) :
    (bytes (masked before text)).length = (bytes text).length := by
  induction text generalizing before with
  | nil => rfl
  | cons ch rest ih =>
      rw [masked]
      split
      · rename_i digit
        have ascii : (if Hidden before (digitCount (runRest (ch :: rest))) then '*' else
            ch).toNat < 128 := by
          split
          · decide
          · exact isDigit_lt digit
        rw [length_bytes_ascii _ ascii, length_bytes_ascii _ (isDigit_lt digit), ih]
      · rw [Utf8.bytes_cons, Utf8.bytes_cons, List.length_append, List.length_append, ih]

/-- For every string: redaction returns a text of as many bytes, having come to the end of the
bytes.  Wherever its loop stands it is the rest of redaction, at a boundary, and if the string
does not end there the slice it takes is safe and leads on, a byte is taken for the first of
four only if it is, and a separator is backed out only behind the digit scanned from. -/
theorem redactPan_slices_safely (input : List Char) :
    (∃ output, redactPan input = some output ∧ Visits input (bytes input).length output ∧
      (bytes output).length = (bytes input).length) ∧
    ∀ i out, Visits input i out →
      (∃ fuel, redactPan input = redactLoop input fuel i out) ∧
      Boundary input i ∧ i ≤ (bytes input).length ∧
      ∀ b, (bytes input)[i]? = some b →
        (match panAt input i with
          | some (stop, _) => SafeSlice input i stop
          | none => SafeSlice input i (i + utf8Len b)) ∧
        (FallsBack b → ∃ before ch rest, input = before ++ ch :: rest ∧
          i = (bytes before).length ∧ ch.utf8Size = 4 ∧ 0xF0 ≤ b.toNat ∧ b.toNat < 0xF8) ∧
        (isPanStart (bytes input) i = true → ∀ stop digits lastWasSep,
          scanLoop ((bytes input).drop i) i [] false = (stop, digits, lastWasSep) →
          i < (if lastWasSep then stop - 1 else stop) ∧
            (if lastWasSep then stop - 1 else stop) ≤ (bytes input).length) := by
  constructor
  · have first : Visits input 0 [] := .start
    rcases first.exists_end (Nat.zero_le _) with ⟨output, visits⟩
    have returned := visits.redactPan_of_end
    refine ⟨output, returned, visits, ?_⟩
    rw [redactPan_eq, Option.some.injEq] at returned
    rw [← returned, length_bytes_masked]
  · intro i out visits
    rcases visits.redactPan_eq_loop with ⟨fuel, same, _⟩
    refine ⟨⟨fuel, same⟩, visits.boundary, ?_, ?_⟩
    · rcases visits.boundary with ⟨before, rest, rfl, rfl⟩
      rw [Utf8.bytes_append, List.length_append]
      exact Nat.le_add_right _ _
    · intro b here
      refine ⟨visits.safeSlice here, ?_, ?_⟩
      · intro fallsBack
        rcases visits.exists_char here with ⟨before, ch, rest, rfl, rfl⟩
        exact ⟨before, ch, rest, rfl, rfl,
          four_of_fallsBack (Utf8.firstByte_of_getElem? here) fallsBack⟩
      · intro start stop digits lastWasSep scanned
        rcases visits.exists_char here with ⟨before, ch, rest, rfl, rfl⟩
        rcases byte_at before rest ch with ⟨_, _, isStart, _⟩
        have digit := isStart.symm.trans start
        rw [scanLoop_end before rest digit scanned]
        have safe := safeSlice_run before rest digit
        exact ⟨safe.increases, safe.inBounds⟩

end RefundEngine
