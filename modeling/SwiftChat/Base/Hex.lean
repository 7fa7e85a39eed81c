import SwiftChat.Base.Decimal
import SwiftChat.Base.Json

/-! Hexadecimal numerals: the two digits of a byte, and reading a number from a stream. -/
namespace Base
variable {a b : UInt8} {n : Nat}

/-- The lowercase digit of a number below 16. -/
def hexDigit (n : Nat) : UInt8 := (str "0123456789abcdef").getD n 0

def isHexDigit (b : UInt8) : Bool := isDigit b || (65 ≤ b && b ≤ 70) || (97 ≤ b && b ≤ 102)

/-- The value of a hexadecimal digit of either case. -/
def hexDigitVal (b : UInt8) : Nat :=
  if isDigit b then b.toNat - 48 else if 97 ≤ b then b.toNat - 87 else b.toNat - 55

/-- The value of a list of hexadecimal digits, most significant first. -/
def hexVal (ds : Bytes) : Nat := ds.foldl (fun acc b => 16 * acc + hexDigitVal b) 0

/-- The number behind the sign: `0x` is passed over, then the longest run of digits counts. -/
def hexField (neg : Bool) (body : Bytes) : Option Int :=
  let mark := body.head? = some 48 ∧ (body.tail.head? = some 120 ∨ body.tail.head? = some 88)
  let ds := (if mark then body.drop 2 else body).takeWhile isHexDigit
  let v : Int := if neg then -(hexVal ds : Int) else hexVal ds
  if ds = [] then none else if Fits 32 v then some v else none

/-- `stream >> std::hex >> val` for an `int`: blanks, a sign, the number; no digits or a value
outside 32 bits is a failure. -/
def extractHex (s : Bytes) : Option Int :=
  let body := s.dropWhile isSpace
  if body.head? = some 45 then hexField true body.tail
  else if body.head? = some 43 then hexField false body.tail
  else hexField false body

/-- The two digits of a byte, high half first. -/
def byteHex (b : UInt8) : Bytes := [hexDigit (b.toNat / 16), hexDigit (b.toNat % 16)]

theorem hexDigit_spec (h : n < 16) :
    isHexDigit (hexDigit n) = true ∧ hexDigitVal (hexDigit n) = n := by
  have hall : ∀ m < 16, isHexDigit (hexDigit m) = true ∧ hexDigitVal (hexDigit m) = m := by
    decide +kernel
  exact hall n h

theorem isHexDigit_iff :
    isHexDigit b = true ↔ (48 ≤ b.toNat ∧ b.toNat ≤ 57) ∨ (65 ≤ b.toNat ∧ b.toNat ≤ 70) ∨
      (97 ≤ b.toNat ∧ b.toNat ≤ 102) := by
  simp [isHexDigit, isDigit, UInt8.le_iff_toNat_le, or_assoc]

theorem isSpace_iff : isSpace b = true ↔ b.toNat = 32 ∨ (9 ≤ b.toNat ∧ b.toNat ≤ 13) := by
  simp [isSpace, UInt8.le_iff_toNat_le, ← UInt8.toNat_inj]

theorem hexDigitVal_lt (h : isHexDigit b = true) : hexDigitVal b < 16 := by
  rw [isHexDigit_iff] at h
  simp only [hexDigitVal, isDigit, Bool.and_eq_true, decide_eq_true_eq, UInt8.le_iff_toNat_le]
  change (if 48 ≤ b.toNat ∧ b.toNat ≤ 57 then b.toNat - 48
    else if 97 ≤ b.toNat then b.toNat - 87 else b.toNat - 55) < 16
  split
  · omega
  · split <;> omega

/-- Two halves put together as `(high << 4) | low`. -/
theorem shiftLeft_or_eq {high low : Nat} (h : low < 16) : high <<< 4 ||| low = 16 * high + low := by
  rw [← Nat.shiftLeft_add_eq_or_of_lt (by omega : low < 2 ^ 4), Nat.shiftLeft_eq]
  omega

theorem hexField_nil (neg : Bool) : hexField neg [] = none := by
  simp [hexField]

theorem hexField_of_not_digit (neg : Bool) (s : Bytes) (h : isHexDigit b = false) :
    hexField neg (b :: s) = none := by
  have hb : b ≠ 48 := by
    rintro rfl
    exact absurd h (by decide)
  simp [hexField, hb, h]

theorem hexField_one (neg : Bool) (h : isHexDigit b = true) :
    hexField neg [b] = some (if neg then -(hexDigitVal b : Int) else hexDigitVal b) := by
  have hlt := hexDigitVal_lt h
  have hfits : Fits 32 (if neg then -(hexDigitVal b : Int) else hexDigitVal b) := by
    cases neg
    · exact ⟨by simp; omega, by simp; omega⟩
    · exact ⟨by simp; omega, by simp; omega⟩
  simp [hexField, h, hexVal, hfits]

/-- A digit before something else is a number by itself, unless the two are `0x`. -/
theorem hexField_digit (h : isHexDigit a = true) (hb : isHexDigit b = false) :
    hexField false [a, b] =
      if a = 48 ∧ (b = 120 ∨ b = 88) then none else some (hexDigitVal a : Int) := by
  have hlt := hexDigitVal_lt h
  have hfits : Fits 32 (hexDigitVal a : Int) := ⟨by simp; omega, by simp; omega⟩
  by_cases hmark : a = 48 ∧ (b = 120 ∨ b = 88)
  · simp [hexField, hmark]
  · simp [hexField, hmark, h, hb, hexVal, hfits]

theorem hexField_two (h : isHexDigit a = true) (hb : isHexDigit b = true) :
    hexField false [a, b] = some (16 * hexDigitVal a + hexDigitVal b : Int) := by
  have hlta := hexDigitVal_lt h
  have hltb := hexDigitVal_lt hb
  have hfits : Fits 32 (16 * hexDigitVal a + hexDigitVal b : Int) :=
    ⟨by simp; omega, by simp; omega⟩
  have hmark : ¬ (a = 48 ∧ (b = 120 ∨ b = 88)) := by
    rintro ⟨-, rfl | rfl⟩
    · exact absurd hb (by decide)
    · exact absurd hb (by decide)
  simp [hexField, hmark, h, hb, hexVal, hfits]

/-- Two characters that a stream reads as a number although they are not two digits: a digit
behind a blank or a sign, or a digit in front of something else (`0x` alone is no number). -/
def LooseHex (a b : UInt8) : Prop :=
  ((isSpace a = true ∨ a = 43 ∨ a = 45) ∧ isHexDigit b = true) ∨
    (isHexDigit a = true ∧ isHexDigit b = false ∧ ¬ (a = 48 ∧ (b = 120 ∨ b = 88)))

instance (a b : UInt8) : Decidable (LooseHex a b) := inferInstanceAs (Decidable (_ ∨ _))

/-- A character that is neither blank nor sign starts the number itself. -/
theorem extractHex_plain (hspace : isSpace a = false) (h43 : a ≠ 43) (h45 : a ≠ 45) (s : Bytes) :
    extractHex (a :: s) = hexField false (a :: s) := by
  simp [extractHex, hspace, h43, h45]

theorem plain_of_isHexDigit (h : isHexDigit a = true) :
    isSpace a = false ∧ a ≠ 43 ∧ a ≠ 45 := by
  rw [isHexDigit_iff] at h
  refine ⟨?_, ?_, ?_⟩
  · rw [Bool.eq_false_iff, ne_eq, isSpace_iff]
    omega
  · rintro rfl
    simp at h
  · rintro rfl
    simp at h

theorem extractHex_digits (h : isHexDigit a = true) (hb : isHexDigit b = true) :
    extractHex [a, b] = some (16 * hexDigitVal a + hexDigitVal b : Int) := by
  obtain ⟨hspace, h43, h45⟩ := plain_of_isHexDigit h
  rw [extractHex_plain hspace h43 h45, hexField_two h hb]

/-- A blank in front of a character that is no digit leaves nothing to read. -/
theorem extractHex_blank (hspace : isSpace a = true) :
    extractHex [a, b] = if isHexDigit b then some (hexDigitVal b : Int) else none := by
  cases hb : isHexDigit b with
  | true =>
    obtain ⟨hb0, h43, h45⟩ := plain_of_isHexDigit hb
    have hone := hexField_one false hb
    simp only [Bool.false_eq_true, if_false] at hone
    simp [extractHex, hspace, hb0, h43, h45, hone]
  | false =>
    cases hb0 : isSpace b with
    | true => simp [extractHex, hspace, hb0, hexField_nil]
    | false =>
      have hone := hexField_of_not_digit false [] hb
      by_cases h45 : b = 45
      · subst h45
        simp [extractHex, hspace, hb0, hexField_nil]
      · by_cases h43 : b = 43
        · subst h43
          simp [extractHex, hspace, hb0, hexField_nil]
        · simp [extractHex, hspace, hb0, h45, h43, hone]

theorem extractHex_sign (h : a = 43 ∨ a = 45) :
    extractHex [a, b] =
      if isHexDigit b then some (if a = 45 then -(hexDigitVal b : Int) else hexDigitVal b)
      else none := by
  have hfield (neg : Bool) : hexField neg [b] =
      if isHexDigit b then some (if neg then -(hexDigitVal b : Int) else hexDigitVal b)
      else none := by
    cases hb : isHexDigit b with
    | true => exact hexField_one neg hb
    | false => exact hexField_of_not_digit neg [] hb
  have hspace : isSpace a = false := by
    rcases h with rfl | rfl <;> decide
  rcases h with rfl | rfl
  · simpa [extractHex, hspace] using hfield false
  · simpa [extractHex, hspace] using hfield true

/-- What the stream makes of two characters, by their kind. -/
theorem extractHex_loose (h : LooseHex a b) :
    ∃ v, extractHex [a, b] = some v ∧ -15 ≤ v ∧ v ≤ 15 := by
  obtain ⟨hspace | hsign, hb⟩ | ⟨ha, hb, hmark⟩ := h
  · have hlt := hexDigitVal_lt hb
    exact ⟨hexDigitVal b, by rw [extractHex_blank hspace, if_pos hb], by omega, by omega⟩
  · have hlt := hexDigitVal_lt hb
    refine ⟨_, by rw [extractHex_sign hsign, if_pos hb], ?_, ?_⟩ <;> split <;> omega
  · have hlt := hexDigitVal_lt ha
    obtain ⟨hspace, h43, h45⟩ := plain_of_isHexDigit ha
    refine ⟨hexDigitVal a, ?_, by omega, by omega⟩
    rw [extractHex_plain hspace h43 h45, hexField_digit ha hb, if_neg hmark]

theorem extractHex_eq_none (h : ¬ (isHexDigit a = true ∧ isHexDigit b = true))
    (hloose : ¬ LooseHex a b) : extractHex [a, b] = none := by
  obtain ⟨hlead, hpair⟩ := not_or.mp hloose
  by_cases hspace : isSpace a = true
  · rw [extractHex_blank hspace, if_neg (fun hb => hlead ⟨Or.inl hspace, hb⟩)]
  · by_cases hsign : a = 43 ∨ a = 45
    · rw [extractHex_sign hsign, if_neg (fun hb => hlead ⟨Or.inr hsign, hb⟩)]
    · rw [extractHex_plain (by simpa using hspace) (fun h => hsign (Or.inl h))
        (fun h => hsign (Or.inr h))]
      by_cases ha : isHexDigit a = true
      · have hb : isHexDigit b = false := by
          cases hb : isHexDigit b with
          | false => rfl
          | true => exact absurd ⟨ha, hb⟩ h
        rw [hexField_digit ha hb, if_pos (not_not.mp (fun hmark => hpair ⟨ha, hb, hmark⟩))]
      · exact hexField_of_not_digit false [b] (by simpa using ha)

end Base
