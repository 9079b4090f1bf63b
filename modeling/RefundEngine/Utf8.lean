import Mathlib.Data.List.Basic

/-!
# Strings and their bytes

A string is its list of characters; its bytes are their UTF-8 encodings.  Slicing by byte
offsets is defined only between characters.
-/

namespace Utf8

/-- The bytes of a string. -/
def bytes (text : List Char) : List UInt8 := text.flatMap String.utf8EncodeChar

/-- Split a string at a byte offset, if a character starts or the string ends there. -/
def splitAt? : List Char → Nat → Option (List Char × List Char)
  | text, 0 => some ([], text)
  | [], _ + 1 => none
  | ch :: rest, offset + 1 =>
      if ch.utf8Size ≤ offset + 1 then
        match splitAt? rest (offset + 1 - ch.utf8Size) with
        | some (left, right) => some (ch :: left, right)
        | none => none
      else none

/-- The part of a string between two byte offsets. -/
def slice (text : List Char) (start stop : Nat) : Option (List Char) :=
  if start ≤ stop then
    match splitAt? text start with
    | some (_, rest) =>
        match splitAt? rest (stop - start) with
        | some (piece, _) => some piece
        | none => none
    | none => none
  else none

variable {before piece rest text : List Char} {ch : Char}

@[simp] theorem bytes_nil : bytes [] = [] := rfl

@[simp] theorem bytes_cons (ch : Char) (rest : List Char) :
    bytes (ch :: rest) = String.utf8EncodeChar ch ++ bytes rest := rfl

@[simp] theorem bytes_append (left right : List Char) :
    bytes (left ++ right) = bytes left ++ bytes right :=
  List.flatMap_append

theorem length_le_length_bytes (text : List Char) : text.length ≤ (bytes text).length := by
  induction text with
  | nil => exact Nat.le_refl 0
  | cons ch rest ih =>
      have := ch.utf8Size_pos
      rw [bytes_cons, List.length_append, String.length_utf8EncodeChar, List.length_cons]
      omega

theorem splitAt?_append (left right : List Char) :
    splitAt? (left ++ right) (bytes left).length = some (left, right) := by
  induction left with
  | nil => cases right <;> rfl
  | cons ch left ih =>
      have positive := ch.utf8Size_pos
      rw [bytes_cons, List.length_append, String.length_utf8EncodeChar, List.cons_append]
      obtain ⟨offset, shape⟩ : ∃ offset, ch.utf8Size + (bytes left).length = offset + 1 :=
        ⟨ch.utf8Size + (bytes left).length - 1, by omega⟩
      have later : offset + 1 - ch.utf8Size = (bytes left).length := by omega
      have inside : ch.utf8Size ≤ offset + 1 := by omega
      rw [shape, splitAt?, if_pos inside, later, ih]

theorem slice_append (before piece rest : List Char) :
    slice (before ++ (piece ++ rest)) (bytes before).length
      ((bytes before).length + (bytes piece).length) = some piece := by
  rw [slice, if_pos (Nat.le_add_right ..), splitAt?_append]
  simp only [Nat.add_sub_cancel_left, splitAt?_append]

/-! ## Boundaries -/

/-- A byte offset at which a character starts or the string ends. -/
def Boundary (text : List Char) (offset : Nat) : Prop :=
  ∃ before rest, text = before ++ rest ∧ offset = (bytes before).length

theorem eq_append_of_splitAt? {left right : List Char} {offset : Nat}
    (split : splitAt? text offset = some (left, right)) :
    text = left ++ right ∧ offset = (bytes left).length := by
  induction text generalizing offset left with
  | nil =>
      cases offset with
      | zero =>
          cases split
          exact ⟨rfl, rfl⟩
      | succ offset => cases split
  | cons ch rest ih =>
      cases offset with
      | zero =>
          cases split
          exact ⟨rfl, rfl⟩
      | succ offset =>
          rw [splitAt?] at split
          split at split
          · rename_i inside
            split at split
            · rename_i left' right' later
              cases split
              rcases ih later with ⟨whole, size⟩
              rw [bytes_cons, List.length_append, String.length_utf8EncodeChar, ← size, whole]
              exact ⟨rfl, by omega⟩
            · cases split
          · cases split

/-- Slicing succeeds between boundaries only. -/
theorem boundary_of_slice {start stop : Nat} (sliced : slice text start stop = some piece) :
    Boundary text start ∧ Boundary text stop ∧ stop = start + (bytes piece).length := by
  rw [slice] at sliced
  split at sliced
  · rename_i ordered
    split at sliced
    · rename_i before rest first
      split at sliced
      · rename_i piece' after second
        cases sliced
        rcases eq_append_of_splitAt? first with ⟨rfl, size⟩
        rcases eq_append_of_splitAt? second with ⟨rfl, size'⟩
        have whole : stop = start + (bytes piece).length := by omega
        refine ⟨⟨before, _, rfl, size⟩, ⟨before ++ piece, after, ?_, ?_⟩, whole⟩
        · rw [List.append_assoc]
        · rw [bytes_append, List.length_append, whole, size]
      · cases sliced
    · cases sliced
  · cases sliced

/-- The first byte of a character: itself if it is ASCII, else a lead byte. -/
inductive FirstByte (ch : Char) (first : UInt8) : Prop where
  | ascii (size : ch.utf8Size = 1) (small : ch.toNat < 128) (same : first.toNat = ch.toNat)
  | two (size : ch.utf8Size = 2) (large : 128 ≤ ch.toNat) (low : 192 ≤ first.toNat)
      (high : first.toNat < 224)
  | three (size : ch.utf8Size = 3) (large : 128 ≤ ch.toNat) (low : 224 ≤ first.toNat)
      (high : first.toNat < 240)
  | four (size : ch.utf8Size = 4) (large : 128 ≤ ch.toNat) (low : 240 ≤ first.toNat)
      (high : first.toNat < 248)

theorem firstByte (ch : Char) :
    ∃ first tail, String.utf8EncodeChar ch = first :: tail ∧ FirstByte ch first ∧
      ∀ byte ∈ tail, 128 ≤ byte.toNat := by
  have length := String.length_utf8EncodeChar ch
  have continuation : ∀ value : Nat, 128 ≤ (UInt8.ofNat (value % 64 + 128)).toNat := by
    intro value
    rw [UInt8.toNat_ofNat']
    omega
  rw [String.utf8EncodeChar] at length ⊢
  split at length
  · rename_i small
    rw [if_pos small]
    refine ⟨_, _, rfl, .ascii length.symm ?_ ?_, nofun⟩
    · exact Nat.lt_succ_of_le small
    · rw [UInt8.toNat_ofNat']
      exact Nat.mod_eq_of_lt (by omega)
  · rename_i large
    rw [if_neg large]
    have large' : 128 ≤ ch.toNat := Nat.lt_of_not_le large
    split at length
    · rename_i two
      rw [if_pos two]
      refine ⟨_, _, rfl, .two length.symm large' ?_ ?_, ?_⟩
      · rw [UInt8.toNat_ofNat']
        omega
      · rw [UInt8.toNat_ofNat']
        omega
      · intro byte member
        rw [List.mem_singleton.mp member]
        exact continuation _
    · rename_i notTwo
      rw [if_neg notTwo]
      split at length
      · rename_i three
        rw [if_pos three]
        refine ⟨_, _, rfl, .three length.symm large' ?_ ?_, ?_⟩
        · rw [UInt8.toNat_ofNat']
          omega
        · rw [UInt8.toNat_ofNat']
          omega
        · intro byte member
          simp only [List.mem_cons, List.not_mem_nil, or_false] at member
          rcases member with rfl | rfl
          · exact continuation _
          · exact continuation _
      · rename_i four
        rw [if_neg four]
        refine ⟨_, _, rfl, .four length.symm large' ?_ ?_, ?_⟩
        · rw [UInt8.toNat_ofNat']
          omega
        · rw [UInt8.toNat_ofNat']
          omega
        · intro byte member
          simp only [List.mem_cons, List.not_mem_nil, or_false] at member
          rcases member with rfl | rfl | rfl
          · exact continuation _
          · exact continuation _
          · exact continuation _

theorem firstByte_of_getElem? {byte : UInt8}
    (here : (bytes (before ++ ch :: rest))[(bytes before).length]? = some byte) :
    FirstByte ch byte := by
  rcases firstByte ch with ⟨first, tail, encoded, lead, _⟩
  rw [bytes_append, List.getElem?_append_right (Nat.le_refl _), Nat.sub_self, bytes_cons,
    encoded, List.cons_append, List.getElem?_cons_zero] at here
  cases here
  exact lead

/-- At a boundary at which the string does not end a character starts. -/
theorem Boundary.exists_char {offset : Nat} {byte : UInt8} (boundary : Boundary text offset)
    (here : (bytes text)[offset]? = some byte) :
    ∃ before ch rest, text = before ++ ch :: rest ∧ offset = (bytes before).length := by
  rcases boundary with ⟨before, rest, rfl, rfl⟩
  cases rest with
  | nil =>
      rw [List.append_nil, List.getElem?_eq_none (Nat.le_refl _)] at here
      cases here
  | cons ch rest => exact ⟨before, ch, rest, rfl, rfl⟩

/-- An ASCII byte is at the start of a character. -/
theorem exists_char_of_ascii {byte : UInt8} {offset : Nat}
    (here : (bytes text)[offset]? = some byte) (ascii : byte.toNat < 128) :
    ∃ before ch rest, text = before ++ ch :: rest ∧ offset = (bytes before).length := by
  induction text generalizing offset with
  | nil => cases here
  | cons ch rest ih =>
      rcases firstByte ch with ⟨first, tail, encoded, _, continuations⟩
      have size : (bytes [ch]).length = tail.length + 1 := by
        rw [bytes_cons, bytes_nil, List.append_nil, encoded, List.length_cons]
      cases offset with
      | zero => exact ⟨[], ch, rest, rfl, rfl⟩
      | succ offset =>
          rw [bytes_cons, encoded, List.cons_append, List.getElem?_cons_succ] at here
          by_cases inside : offset < tail.length
          · rw [List.getElem?_append_left inside] at here
            have large := continuations byte (List.mem_of_getElem? here)
            omega
          · rw [List.getElem?_append_right (Nat.le_of_not_lt inside)] at here
            rcases ih here with ⟨before, other, after, split, same⟩
            refine ⟨ch :: before, other, after, congrArg (ch :: ·) split, ?_⟩
            have whole : bytes (ch :: before) = bytes [ch] ++ bytes before :=
              bytes_append [ch] before
            rw [whole, List.length_append, size, ← same]
            omega

end Utf8
