import SwiftChat.Common
import SwiftChat.Base.Hex

/-! URL and hexadecimal encodings of byte strings. -/
namespace SwiftChat.Utils
open Base
variable {a b c : UInt8} {s r : Bytes} {h l n : Nat}

def bytesToHex (data : Bytes) : Bytes :=
  data.flatMap fun (b : UInt8) =>
    [hexDigit ((b >>> 4) &&& 0x0F).toNat, hexDigit (b &&& 0x0F).toNat]

def hexEncode (input : Bytes) : Bytes := bytesToHex input

/-- `std::tolower` on a `char`; negative ones stay as they are. -/
def toLower (c : UInt8) : UInt8 := if 65 ≤ c && c ≤ 90 then c + 32 else c

/-- The `int` that `HexDecode` gives a signed `char`; one that is no digit gets a number too. -/
def hexCharVal (c : UInt8) : BitVec 32 :=
  if isDigit c then c.toBitVec.signExtend 32 - 48
  else (toLower c).toBitVec.signExtend 32 - 97 + 10

def hexDecode : Bytes → Bytes
  | [] => []
  | [_] => []
  | high :: low :: rest =>
    UInt8.ofBitVec (((hexCharVal high <<< 4) ||| hexCharVal low).truncate 8) :: hexDecode rest

/-- `<< std::hex` of a number. -/
def putHex (n : Nat) : Bytes :=
  if n < 16 then [hexDigit n] else putHex (n / 16) ++ [hexDigit (n % 16)]

/-- `std::setw` with `std::setfill`: the text filled up on the left. -/
def setw (width : Nat) (fill : UInt8) (text : Bytes) : Bytes :=
  List.replicate (width - text.length) fill ++ text

/-- Letters, digits and `-_.~` are not encoded. -/
def isUnreserved (c : UInt8) : Bool := isAlphaNum c || c == 45 || c == 95 || c == 46 || c == 126

def urlEncode (input : Bytes) : Bytes :=
  input.flatMap fun c => if isUnreserved c then [c] else 37 :: setw 2 48 (putHex c.toNat)

/-- A character outside the escapes: `+` stands for a blank. -/
def plusToSpace (c : UInt8) : UInt8 := if c = 43 then 32 else c

/-- `UrlDecode`: behind a `%` two more characters are read from a stream as a hexadecimal `int`;
when that fails, or fewer than two are left, the `%` is copied. -/
def urlDecode : Bytes → Bytes
  | [] => []
  | [c] => [plusToSpace c]
  | [c, d] => [plusToSpace c, plusToSpace d]
  | c :: a :: b :: rest =>
    if c = 37 then
      match extractHex [a, b] with
      | some val => UInt8.ofInt val :: urlDecode rest
      | none => c :: urlDecode (a :: b :: rest)
    else plusToSpace c :: urlDecode (a :: b :: rest)

/-- A `%` and two hexadecimal digits become their byte, `+` becomes a blank, the rest is copied. -/
def replaceEscapes : Bytes → Bytes
  | [] => []
  | [c] => [plusToSpace c]
  | [c, d] => [plusToSpace c, plusToSpace d]
  | c :: a :: b :: rest =>
    if c = 37 ∧ isHexDigit a ∧ isHexDigit b then
      UInt8.ofNat (16 * hexDigitVal a + hexDigitVal b) :: replaceEscapes rest
    else plusToSpace c :: replaceEscapes (a :: b :: rest)

theorem hexCharVal_hexDigit (h : n < 16) : hexCharVal (hexDigit n) = BitVec.ofNat 32 n := by
  have hall : ∀ m < 16, hexCharVal (hexDigit m) = BitVec.ofNat 32 m := by decide
  exact hall n h

theorem high_half (b : UInt8) : ((b >>> 4) &&& 0x0F).toNat = b.toNat / 16 := by
  have hb := b.toNat_lt
  rw [UInt8.toNat_and, UInt8.toNat_shiftRight]
  change (b.toNat >>> 4) &&& (2 ^ 4 - 1) = _
  rw [Nat.and_two_pow_sub_one_eq_mod, Nat.shiftRight_eq_div_pow]
  omega

theorem low_half (b : UInt8) : (b &&& 0x0F).toNat = b.toNat % 16 := by
  rw [UInt8.toNat_and]
  exact Nat.and_two_pow_sub_one_eq_mod b.toNat 4

/-- Two values below 16, put together as `(high << 4) | low` and cut to a byte. -/
theorem join_halves (hh : h < 16) (hl : l < 16) :
    UInt8.ofBitVec (((BitVec.ofNat 32 h <<< 4) ||| BitVec.ofNat 32 l).truncate 8) =
      UInt8.ofNat (16 * h + l) := by
  apply UInt8.toNat_inj.mp
  have hshift : h <<< 4 < 2 ^ 32 := by
    rw [Nat.shiftLeft_eq]
    omega
  simp only [UInt8.toNat_ofBitVec, BitVec.truncate_eq_setWidth, BitVec.toNat_setWidth,
    BitVec.toNat_or, BitVec.toNat_shiftLeft, BitVec.toNat_ofNat, UInt8.toNat_ofNat']
  rw [Nat.mod_eq_of_lt (by omega : h < 2 ^ 32), Nat.mod_eq_of_lt (by omega : l < 2 ^ 32),
    Nat.mod_eq_of_lt hshift, shiftLeft_or_eq hl]

theorem ofNat_halves (b : UInt8) : UInt8.ofNat (16 * (b.toNat / 16) + b.toNat % 16) = b := by
  rw [Nat.div_add_mod]
  exact UInt8.ofNat_toNat

theorem hexDecode_hexEncode (s : Bytes) : hexDecode (hexEncode s) = s := by
  induction s with
  | nil => rfl
  | cons b s ih =>
    have hb := b.toNat_lt
    have hhigh : b.toNat / 16 < 16 := by omega
    have hlow : b.toNat % 16 < 16 := by omega
    change hexDecode (hexDigit _ :: hexDigit _ :: hexEncode s) = b :: s
    rw [hexDecode, ih, high_half, low_half, hexCharVal_hexDigit hhigh, hexCharVal_hexDigit hlow,
      join_halves hhigh hlow, ofNat_halves]

theorem setw_putHex (c : UInt8) : setw 2 48 (putHex c.toNat) = byteHex c := by
  have hc := c.toNat_lt
  by_cases h : c.toNat < 16
  · rw [putHex, if_pos h, byteHex, Nat.div_eq_of_lt h, Nat.mod_eq_of_lt h]
    rfl
  · rw [putHex, if_neg h, putHex, if_pos (by omega)]
    rfl

theorem urlDecode_plain (h : c ≠ 37) (s : Bytes) :
    urlDecode (c :: s) = plusToSpace c :: urlDecode s := by
  cases s with
  | nil => rfl
  | cons a s =>
    cases s with
    | nil => rfl
    | cons b s => rw [urlDecode, if_neg h]

theorem urlDecode_escape (ha : isHexDigit a = true) (hb : isHexDigit b = true) (s : Bytes) :
    urlDecode (37 :: a :: b :: s) =
      UInt8.ofNat (16 * hexDigitVal a + hexDigitVal b) :: urlDecode s := by
  have hlta := hexDigitVal_lt ha
  have hltb := hexDigitVal_lt hb
  rw [urlDecode, if_pos rfl, extractHex_digits ha hb]
  have hval : ((16 * hexDigitVal a + hexDigitVal b : Int) % 2 ^ 8).toNat =
      16 * hexDigitVal a + hexDigitVal b := by omega
  simp only [UInt8.ofInt, hval]

/-- A character that is kept opens no escape and is no `+`. -/
theorem isUnreserved_ne (h : isUnreserved c = true) : c ≠ 37 ∧ c ≠ 43 := by
  constructor
  · rintro rfl
    exact absurd h (by decide)
  · rintro rfl
    exact absurd h (by decide)

theorem urlDecode_urlEncode (s : Bytes) : urlDecode (urlEncode s) = s := by
  induction s with
  | nil => rfl
  | cons c s ih =>
    have hc := c.toNat_lt
    change urlDecode ((if isUnreserved c then [c] else 37 :: setw 2 48 (putHex c.toNat)) ++
      urlEncode s) = c :: s
    by_cases hkeep : isUnreserved c = true
    · obtain ⟨h37, h43⟩ := isUnreserved_ne hkeep
      rw [if_pos hkeep, List.singleton_append, urlDecode_plain h37, ih, plusToSpace, if_neg h43]
    · obtain ⟨hhigh, hhighVal⟩ := hexDigit_spec (n := c.toNat / 16) (by omega)
      obtain ⟨hlow, hlowVal⟩ := hexDigit_spec (n := c.toNat % 16) (by omega)
      rw [if_neg hkeep, setw_putHex]
      change urlDecode (37 :: hexDigit _ :: hexDigit _ :: urlEncode s) = c :: s
      rw [urlDecode_escape hhigh hlow, hhighVal, hlowVal, ofNat_halves, ih]

/-- Both decoders undo their encoders on every byte string. -/
theorem decode_encode (s : Bytes) :
    urlDecode (urlEncode s) = s ∧ hexDecode (hexEncode s) = s :=
  ⟨urlDecode_urlEncode s, hexDecode_hexEncode s⟩

/-! Escapes that are not well formed. -/

/-- No `%` stands in front of two characters that a stream reads loosely as a number. -/
def NoLooseEscape (s : Bytes) : Prop :=
  ∀ p a b r, s = p ++ 37 :: a :: b :: r → ¬ LooseHex a b

theorem noLooseEscape_cons :
    NoLooseEscape (c :: s) ↔
      (∀ a b r, c = 37 → s = a :: b :: r → ¬ LooseHex a b) ∧ NoLooseEscape s := by
  constructor
  · intro h
    constructor
    · rintro a b r rfl rfl
      exact h [] a b r rfl
    · rintro p a b r rfl
      exact h (c :: p) a b r rfl
  · rintro ⟨hhead, htail⟩ p a b r heq
    cases p with
    | nil =>
      obtain ⟨rfl, rfl⟩ := List.cons.inj heq
      exact hhead a b r rfl rfl
    | cons d p =>
      obtain ⟨rfl, rfl⟩ := List.cons.inj heq
      exact htail p a b r rfl

theorem noLooseEscape_cons_of_ne (h : c ≠ 37) : NoLooseEscape (c :: s) ↔ NoLooseEscape s := by
  rw [noLooseEscape_cons, and_iff_right]
  intro a b r hc
  exact absurd hc h

theorem noLooseEscape_of_short (h : s.length < 3) : NoLooseEscape s := by
  rintro p a b r rfl
  simp only [List.length_append, List.length_cons] at h
  omega

/-- No hexadecimal digit is a `%`, so every `%` of the text is met by the scan. -/
theorem noLooseEscape_escape (ha : isHexDigit a = true) (hb : isHexDigit b = true) :
    NoLooseEscape (37 :: a :: b :: s) ↔ NoLooseEscape s := by
  have hne (d : UInt8) (hd : isHexDigit d = true) : d ≠ 37 := by
    rintro rfl
    exact absurd hd (by decide)
  have hpair : ¬ LooseHex a b := by
    obtain ⟨hspace, h43, h45⟩ := plain_of_isHexDigit ha
    simp [LooseHex, hspace, h43, h45, hb]
  rw [noLooseEscape_cons, noLooseEscape_cons_of_ne (hne a ha), noLooseEscape_cons_of_ne (hne b hb),
    and_iff_right]
  rintro a' b' r - heq
  obtain ⟨rfl, hrest⟩ := List.cons.inj heq
  obtain ⟨rfl, -⟩ := List.cons.inj hrest
  exact hpair

theorem ofInt_ne_percent {v : Int} (hlo : -15 ≤ v) (hhi : v ≤ 15) : UInt8.ofInt v ≠ 37 := by
  intro h
  have := congrArg UInt8.toNat h
  simp only [UInt8.ofInt, UInt8.toNat_ofNat'] at this
  change (v % 2 ^ 8).toNat % 256 = 37 at this
  omega

/-- The decoder replaces exactly the well-formed escapes, and loses nothing, on the texts without a
loosely read escape and on no others. -/
theorem urlDecode_eq_iff (s : Bytes) : urlDecode s = replaceEscapes s ↔ NoLooseEscape s := by
  induction s using urlDecode.induct with
  | case1 => exact iff_of_true rfl (noLooseEscape_of_short (by decide))
  | case2 c => exact iff_of_true rfl (noLooseEscape_of_short (by simp))
  | case3 c d => exact iff_of_true rfl (noLooseEscape_of_short (by simp))
  | case4 a b rest val hval ih =>
    by_cases hhex : isHexDigit a = true ∧ isHexDigit b = true
    · rw [urlDecode_escape hhex.1 hhex.2, replaceEscapes, if_pos ⟨rfl, hhex⟩, List.cons.injEq,
        and_iff_right rfl, ih, noLooseEscape_escape hhex.1 hhex.2]
    · have hloose : LooseHex a b := by
        by_contra hloose
        rw [extractHex_eq_none hhex hloose] at hval
        cases hval
      obtain ⟨v, hv, hlo, hhi⟩ := extractHex_loose hloose
      apply iff_of_false
      · rw [urlDecode, if_pos rfl, hv, replaceEscapes, if_neg (fun h => hhex h.2)]
        intro heq
        exact ofInt_ne_percent hlo hhi (List.cons.inj heq).1
      · intro hclean
        exact hclean [] a b rest rfl hloose
  | case5 a b rest hnone ih =>
    have hhex : ¬ (isHexDigit a = true ∧ isHexDigit b = true) := by
      rintro ⟨ha, hb⟩
      rw [extractHex_digits ha hb] at hnone
      cases hnone
    have hloose : ¬ LooseHex a b := by
      intro hloose
      obtain ⟨v, hv, -⟩ := extractHex_loose hloose
      rw [hv] at hnone
      cases hnone
    have hhead : ∀ a' b' r, (37 : UInt8) = 37 → a :: b :: rest = a' :: b' :: r →
        ¬ LooseHex a' b' := by
      intro a' b' r _ heq
      obtain ⟨rfl, hrest⟩ := List.cons.inj heq
      obtain ⟨rfl, -⟩ := List.cons.inj hrest
      exact hloose
    rw [urlDecode, if_pos rfl, hnone, replaceEscapes, if_neg (fun h => hhex h.2),
      noLooseEscape_cons, and_iff_right hhead, ← ih, List.cons.injEq]
    exact and_iff_right rfl
  | case6 c a b rest hc ih =>
    rw [urlDecode_plain hc, replaceEscapes, if_neg (fun h => hc h.1), List.cons.injEq,
      and_iff_right rfl, ih, noLooseEscape_cons_of_ne hc]

/-- Half an escape in front of a letter becomes one byte, and the letter is lost. -/
theorem urlDecode_half_escape :
    urlDecode (str "a%5g") = [97, 5] ∧ replaceEscapes (str "a%5g") = str "a%5g" ∧
      urlDecode (str "a%5g") ≠ replaceEscapes (str "a%5g") := by decide +kernel

end SwiftChat.Utils
