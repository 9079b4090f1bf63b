import RefundEngine.Webhook

/-!
# Which signatures are accepted

A signature is text, and the decoder takes hexadecimal digits of either case.  The texts that
verify are the one that `sign` gives and those that differ from it in the case of letters.
-/

namespace RefundEngine

variable {char : Char} {value : Nat}

theorem hexValue_lt (digit : hexValue char = some value) : char.toNat < 128 := by
  have bound : ∀ limit : Char, limit.toNat < 128 → char ≤ limit → char.toNat < 128 := by
    intro limit small below
    exact Nat.lt_of_le_of_lt (UInt32.le_iff_toNat_le.mp (Char.le_def.mp below)) small
  rw [hexValue] at digit
  split at digit
  · rename_i inRange
    exact bound '9' (by decide) inRange.2
  · split at digit
    · rename_i inRange
      exact bound 'f' (by decide) inRange.2
    · split at digit
      · rename_i inRange
        exact bound 'F' (by decide) inRange.2
      · cases digit

theorem toLower_of_le (large : 128 ≤ char.toNat) : char.toLower = char := by
  refine dif_neg ?_
  intro upper
  have small := UInt32.le_iff_toNat_le.mp upper.2
  exact absurd (Nat.lt_of_le_of_lt small (by decide : _ < 128)) (Nat.not_lt.mpr large)

/-- The characters of value `value` are its digit and the capital of that. -/
theorem hexValue_eq_some_iff :
    hexValue char = some value ↔ value < 16 ∧ char.toLower = Nat.digitChar value := by
  have small : ∀ value : Fin 16, (Nat.digitChar value.val).toNat < 128 := by decide
  have bounded : ∀ code : Fin 128, ∀ value ∈ hexValue (Char.ofNat code.val), value < 16 := by
    decide +kernel
  have table : ∀ code : Fin 128, ∀ value : Fin 16,
      hexValue (Char.ofNat code.val) = some value.val ↔
        (Char.ofNat code.val).toLower = Nat.digitChar value.val := by
    decide +kernel
  constructor
  · intro digit
    have code := hexValue_lt digit
    rw [← Char.ofNat_toNat char] at digit ⊢
    have bound := bounded ⟨char.toNat, code⟩ value digit
    exact ⟨bound, (table ⟨char.toNat, code⟩ ⟨value, bound⟩).mp digit⟩
  · intro found
    rcases found with ⟨bound, lower⟩
    have code : char.toNat < 128 := by
      by_contra large
      rw [toLower_of_le (Nat.not_lt.mp large)] at lower
      rw [lower] at large
      exact large (small ⟨value, bound⟩)
    rw [← Char.ofNat_toNat char] at lower ⊢
    exact (table ⟨char.toNat, code⟩ ⟨value, bound⟩).mpr lower

/-- What decodes to some bytes is, in lower case, their encoding. -/
theorem hexDecodeChars_eq_some_iff (chars : List Char) (bytes : Bytes) :
    hexDecodeChars chars = some bytes ↔
      chars.map Char.toLower = (hexEncode bytes).toList := by
  rw [hexEncode, String.toList_ofList]
  induction chars using hexDecodeChars.induct generalizing bytes with
  | case1 =>
      cases bytes with
      | nil => simp [hexDecodeChars]
      | cons byte bytes => simp [hexDecodeChars]
  | case2 char =>
      cases bytes with
      | nil => simp [hexDecodeChars]
      | cons byte bytes => simp [hexDecodeChars]
  | case3 high low rest ih =>
      cases bytes with
      | nil => simp [hexDecodeChars, Option.bind_eq_some_iff]
      | cons byte bytes =>
          have decoded : hexDecodeChars (high :: low :: rest) = some (byte :: bytes) ↔
              ∃ first second, hexValue high = some first ∧ hexValue low = some second ∧
                hexDecodeChars rest = some bytes ∧ UInt8.ofNat (16 * first + second) = byte := by
            simp [hexDecodeChars, Option.bind_eq_some_iff]
          have encoded : (high :: low :: rest).map Char.toLower =
              (byte :: bytes).flatMap (fun byte =>
                [Nat.digitChar (byte.toNat / 16), Nat.digitChar (byte.toNat % 16)]) ↔
              high.toLower = Nat.digitChar (byte.toNat / 16) ∧
                low.toLower = Nat.digitChar (byte.toNat % 16) ∧
                rest.map Char.toLower = bytes.flatMap (fun byte =>
                  [Nat.digitChar (byte.toNat / 16), Nat.digitChar (byte.toNat % 16)]) := by
            simp
          rw [decoded, encoded, ← ih]
          constructor
          · rintro ⟨first, second, atHigh, atLow, later, rfl⟩
            rcases hexValue_eq_some_iff.mp atHigh with ⟨bound, lower⟩
            rcases hexValue_eq_some_iff.mp atLow with ⟨bound', lower'⟩
            have whole : (UInt8.ofNat (16 * first + second)).toNat = 16 * first + second := by
              rw [UInt8.toNat_ofNat']
              omega
            have quotient : (16 * first + second) / 16 = first := by omega
            have remainder : (16 * first + second) % 16 = second := by omega
            rw [whole, quotient, remainder]
            exact ⟨lower, lower', later⟩
          · rintro ⟨lower, lower', later⟩
            have size := byte.toNat_lt
            refine ⟨byte.toNat / 16, byte.toNat % 16, ?_, ?_, later, ?_⟩
            · exact hexValue_eq_some_iff.mpr ⟨by omega, lower⟩
            · exact hexValue_eq_some_iff.mpr ⟨by omega, lower'⟩
            · rw [Nat.div_add_mod]
              exact UInt8.ofNat_toNat

/-- For every body, secret and text: the text verifies exactly when it is, in lower case, what
`sign` gives. -/
theorem verifySignature_iff (hmac : Hmac) (rawBody : Bytes) (sig : String) (secret : Bytes) :
    verifySignature hmac rawBody sig secret = true ↔ sig.toLower = sign hmac rawBody secret := by
  have lower : sig.toLower = sign hmac rawBody secret ↔
      sig.toList.map Char.toLower = (sign hmac rawBody secret).toList := by
    rw [← String.toList_inj]
    exact iff_of_eq (congrArg (· = _) String.toList_map)
  rw [lower, sign, ← hexDecodeChars_eq_some_iff, verifySignature, hexDecode]
  cases decoded : hexDecodeChars sig.toList with
  | none => simp
  | some expected => simp [eq_comm]

end RefundEngine
