import SwiftChat.Base.Bytes
import Mathlib.Algebra.Group.Int.Defs
import Mathlib.Algebra.Group.Nat.Defs
import Mathlib.Data.List.TakeWhile

/-! Zero-padded decimal numerals and the reading of a leading integer. -/
namespace Base
variable {w n m : Nat}

/-- The byte of one decimal digit. -/
def digit (d : Nat) : UInt8 := UInt8.ofNat (48 + d % 10)

/-- The last `w` decimal digits of `n`, padded with zeros on the left. -/
def padDec : Nat → Nat → Bytes
  | 0, _ => []
  | w + 1, n => padDec w (n / 10) ++ [digit n]

def isDigit (b : UInt8) : Bool := 48 ≤ b && b ≤ 57

/-- The value of a list of digit bytes, most significant first. -/
def decVal (ds : Bytes) : Nat := ds.foldl (fun acc b => 10 * acc + (b.toNat - 48)) 0

def isSpace (b : UInt8) : Bool := b == 32 || (9 ≤ b && b ≤ 13)

/-- The number of decimal digits; a number has at most as many digits as it is large. -/
def digitCount : Nat → Nat → Nat
  | 0, _ => 1
  | fuel + 1, n => if n < 10 then 1 else digitCount fuel (n / 10) + 1

/-- What `%d` and `%lld` print. -/
def formatInt (z : Int) : Bytes :=
  let ds := padDec (digitCount z.natAbs z.natAbs) z.natAbs
  if z < 0 then 45 :: ds else ds

/-- What `%0<w>d` prints: zeros fill up to the width `w`, behind the sign. -/
def formatPadded (w : Nat) (z : Int) : Bytes :=
  let ds := padDec (digitCount z.natAbs z.natAbs) z.natAbs
  if z < 0 then 45 :: (List.replicate (w - 1 - ds.length) 48 ++ ds)
  else List.replicate (w - ds.length) 48 ++ ds

/-- `std::stoll`: blanks, a sign, the longest run of digits; no digits or a value outside
64 bits is an exception. -/
def stoll (s : Bytes) : Option Int :=
  let body := s.dropWhile isSpace
  let neg := body.head? = some 45
  let ds := (if body.head? = some 45 ∨ body.head? = some 43 then body.tail else body).takeWhile isDigit
  let v : Int := if neg then -(decVal ds : Int) else decVal ds
  if ds = [] then none else if -(2 ^ 63) ≤ v ∧ v < 2 ^ 63 then some v else none

/-- `std::stoi`: the same reading, an exception outside 32 bits. -/
def stoi (s : Bytes) : Option Int := (stoll s).filter fun v => -(2 ^ 31) ≤ v ∧ v < 2 ^ 31

@[simp] theorem length_padDec : (padDec w n).length = w := by
  induction w generalizing n with
  | zero => rfl
  | succ w ih => simp [padDec, ih]

theorem digit_toNat (n : Nat) : (digit n).toNat = 48 + n % 10 := by
  simp only [digit, UInt8.toNat_ofNat']
  omega

theorem isDigit_digit (n : Nat) : isDigit (digit n) = true := by
  simp only [isDigit, Bool.and_eq_true, decide_eq_true_eq, UInt8.le_iff_toNat_le, digit_toNat]
  have := Nat.mod_lt n (by omega : 0 < 10)
  constructor
  · change 48 ≤ 48 + n % 10
    omega
  · change 48 + n % 10 ≤ 57
    omega

theorem isDigit_of_mem_padDec {b : UInt8} (h : b ∈ padDec w n) : isDigit b = true := by
  induction w generalizing n with
  | zero => simp [padDec] at h
  | succ w ih =>
    rcases List.mem_append.mp h with h | h
    · exact ih h
    · rw [List.mem_singleton.mp h]
      exact isDigit_digit n

theorem digit_lt_iff : digit n < digit m ↔ n % 10 < m % 10 := by
  rw [UInt8.lt_iff_toNat_lt, digit_toNat, digit_toNat]
  omega

theorem padDec_lt_iff (hn : n < 10 ^ w) (hm : m < 10 ^ w) :
    padDec w n < padDec w m ↔ n < m := by
  induction w generalizing n m with
  | zero =>
    have hn0 : n = 0 := by simpa using hn
    have hm0 : m = 0 := by simpa using hm
    simp [hn0, hm0]
  | succ w ih =>
    have hn' : n / 10 < 10 ^ w := by rw [Nat.pow_succ] at hn; omega
    have hm' : m / 10 < 10 ^ w := by rw [Nat.pow_succ] at hm; omega
    have hd : [digit n] < [digit m] ↔ n % 10 < m % 10 := by
      rw [← digit_lt_iff]
      change List.Lex (· < ·) [digit n] [digit m] ↔ _
      rw [List.cons_lex_cons_iff]
      simp
    rw [padDec, padDec, append_lt_append_iff (by simp), ih hn' hm', hd]
    constructor
    · rintro (h | ⟨h, hlt⟩)
      · omega
      · have := (ih hn' hm').not.mp (by rw [h]; exact lt_irrefl _)
        have := (ih hm' hn').not.mp (by rw [h]; exact lt_irrefl _)
        omega
    · intro h
      rcases Nat.lt_or_ge (n / 10) (m / 10) with hlt | hge
      · exact Or.inl hlt
      · have he : n / 10 = m / 10 := by omega
        exact Or.inr ⟨by rw [he], by omega⟩

theorem padDec_inj (hn : n < 10 ^ w) (hm : m < 10 ^ w) : padDec w n = padDec w m ↔ n = m := by
  constructor
  · intro h
    have h1 := (padDec_lt_iff hn hm).not.mp (by rw [h]; exact lt_irrefl _)
    have h2 := (padDec_lt_iff hm hn).not.mp (by rw [h]; exact lt_irrefl _)
    omega
  · rintro rfl
    rfl

theorem decVal_append_digit (ds : Bytes) : decVal (ds ++ [digit n]) = 10 * decVal ds + n % 10 := by
  simp [decVal, digit_toNat]

theorem decVal_padDec : decVal (padDec w n) = n % 10 ^ w := by
  induction w generalizing n with
  | zero => simp [padDec, decVal, Nat.mod_one]
  | succ w ih =>
    rw [padDec, decVal_append_digit, ih, Nat.pow_succ, Nat.mul_comm (10 ^ w) 10, Nat.mod_mul]
    omega

theorem padDec_ne_nil (hw : w ≠ 0) : padDec w n ≠ [] := by
  intro h
  have := congrArg List.length h
  simp [hw] at this

theorem takeWhile_padDec : (padDec w n).takeWhile isDigit = padDec w n :=
  List.takeWhile_eq_self_iff.mpr fun _ hb => isDigit_of_mem_padDec hb

/-- Reading back a padded numeral. -/
theorem stoll_padDec (hw : w ≠ 0) (hn : n < 10 ^ w) (hb : n < 2 ^ 63) :
    stoll (padDec w n) = some (n : Int) := by
  have hne := padDec_ne_nil (n := n) hw
  obtain ⟨b, bs, hbs⟩ := List.exists_cons_of_ne_nil hne
  have hbd : isDigit b = true := isDigit_of_mem_padDec (w := w) (n := n) (by simp [hbs])
  have hlo : 48 ≤ b.toNat ∧ b.toNat ≤ 57 := by
    simpa [isDigit, UInt8.le_iff_toNat_le] using hbd
  have hsp : isSpace b = false := by
    have h32 : b ≠ 32 := by rintro rfl; simp at hlo
    have h13 : ¬ b.toNat ≤ 13 := by omega
    simp [isSpace, h32, UInt8.le_iff_toNat_le, h13]
  have h45 : b ≠ 45 := by rintro rfl; simp at hlo
  have h43 : b ≠ 43 := by rintro rfl; simp at hlo
  have hdrop : (padDec w n).dropWhile isSpace = padDec w n := by simp [hbs, hsp]
  have hhead : (padDec w n).head? = some b := by simp [hbs]
  have hval : decVal (padDec w n) = n := by rw [decVal_padDec, Nat.mod_eq_of_lt hn]
  simp only [stoll, hdrop, hhead, Option.some.injEq, h45, h43, or_self, if_false, takeWhile_padDec,
    hne, hval]
  rw [if_pos]
  omega

/-- Reading back a numeral with a minus sign. -/
theorem stoll_neg_padDec (hw : w ≠ 0) (hn : n < 10 ^ w) (hb : n ≤ 2 ^ 63) :
    stoll (45 :: padDec w n) = some (-(n : Int)) := by
  have hdrop : (45 :: padDec w n).dropWhile isSpace = 45 :: padDec w n := rfl
  have hval : decVal (padDec w n) = n := by rw [decVal_padDec, Nat.mod_eq_of_lt hn]
  simp only [stoll, hdrop, List.head?_cons, List.tail_cons, true_or, if_true, takeWhile_padDec,
    padDec_ne_nil hw, if_false, hval]
  rw [if_pos]
  omega

theorem digitCount_ne_zero (fuel n : Nat) : digitCount fuel n ≠ 0 := by
  cases fuel with
  | zero => exact Nat.one_ne_zero
  | succ fuel =>
    simp only [digitCount]
    split
    · exact Nat.one_ne_zero
    · exact Nat.succ_ne_zero _

theorem lt_pow_digitCount (fuel n : Nat) (h : n ≤ fuel) : n < 10 ^ digitCount fuel n := by
  induction fuel generalizing n with
  | zero =>
    have : n = 0 := by omega
    subst this
    exact Nat.pow_pos (by omega)
  | succ fuel ih =>
    simp only [digitCount]
    split
    · simpa using ‹n < 10›
    · have := ih (n / 10) (by omega)
      rw [Nat.pow_succ]
      omega

/-- No numeral of a number has fewer digits. -/
theorem digitCount_le {fuel : Nat} (hw : w ≠ 0) (hn : n < 10 ^ w) (hfuel : n ≤ fuel) :
    digitCount fuel n ≤ w := by
  induction fuel generalizing n w with
  | zero => exact Nat.one_le_iff_ne_zero.mpr hw
  | succ fuel ih =>
    rw [digitCount]
    split
    · omega
    · rename_i hten
      obtain ⟨w, rfl⟩ := Nat.exists_eq_succ_of_ne_zero hw
      have hrest : n / 10 < 10 ^ w := by
        rw [Nat.pow_succ] at hn
        omega
      have hw' : w ≠ 0 := by
        rintro rfl
        omega
      have hle := ih hw' hrest (by omega)
      omega

theorem padDec_zero (w : Nat) : padDec w 0 = List.replicate w 48 := by
  induction w with
  | zero => rfl
  | succ w ih =>
    rw [padDec, Nat.zero_div, ih, List.replicate_succ']
    rfl

/-- Wider numerals begin with zeros. -/
theorem padDec_add (k : Nat) (hn : n < 10 ^ w) :
    padDec (k + w) n = List.replicate k 48 ++ padDec w n := by
  induction w generalizing n with
  | zero =>
    have hzero : n = 0 := by simpa using hn
    rw [hzero, padDec_zero, padDec, List.append_nil]
    rfl
  | succ w ih =>
    have hrest : n / 10 < 10 ^ w := by
      rw [Nat.pow_succ] at hn
      omega
    rw [← Nat.add_assoc, padDec, ih hrest, padDec, List.append_assoc]

/-- What is printed with a width that is enough. -/
theorem formatPadded_natCast (hw : w ≠ 0) (hn : n < 10 ^ w) : formatPadded w n = padDec w n := by
  have hle := digitCount_le hw hn (Nat.le_refl n)
  have hpad := padDec_add (w - digitCount n n) (lt_pow_digitCount n n (Nat.le_refl n))
  rw [Nat.sub_add_cancel hle] at hpad
  rw [formatPadded, if_neg (by omega), Int.natAbs_natCast, length_padDec, hpad]

/-- A printed 64-bit number is read back. -/
theorem stoll_formatInt {z : Int} (hz : -(2 ^ 63) ≤ z ∧ z < 2 ^ 63) :
    stoll (formatInt z) = some z := by
  have hw := digitCount_ne_zero z.natAbs z.natAbs
  have hn := lt_pow_digitCount z.natAbs z.natAbs (Nat.le_refl _)
  simp only [formatInt]
  split
  · rw [stoll_neg_padDec hw hn (by omega)]
    congr 1
    omega
  · rw [stoll_padDec hw hn (by omega)]
    congr 1
    omega

theorem decVal_digits (n : Nat) : decVal (padDec (digitCount n n) n) = n := by
  rw [decVal_padDec, Nat.mod_eq_of_lt (lt_pow_digitCount n n (Nat.le_refl n))]

theorem not_digit_minus {fuel : Nat} : (45 : UInt8) ∉ padDec fuel n := by
  intro h
  have hdigit := isDigit_of_mem_padDec h
  revert hdigit
  decide

/-- What is printed is a minus sign at most, and digits. -/
theorem mem_formatInt {z : Int} {b : UInt8} (h : b ∈ formatInt z) : b = 45 ∨ isDigit b = true := by
  unfold formatInt at h
  split at h
  · rcases List.mem_cons.mp h with rfl | h
    · exact Or.inl rfl
    · exact Or.inr (isDigit_of_mem_padDec h)
  · exact Or.inr (isDigit_of_mem_padDec h)

theorem not_mem_formatInt {z : Int} {b : UInt8} (hminus : b ≠ 45) (hdigit : isDigit b = false) :
    b ∉ formatInt z := by
  intro hmem
  rcases mem_formatInt hmem with h | h
  · exact hminus h
  · rw [hdigit] at h
    cases h

theorem formatInt_inj {a b : Int} (h : formatInt a = formatInt b) : a = b := by
  have habs : ∀ {n m : Nat}, padDec (digitCount n n) n = padDec (digitCount m m) m → n = m := by
    intro n m heq
    rw [← decVal_digits n, heq, decVal_digits]
  unfold formatInt at h
  split at h
  · split at h
    · have hsame := habs (List.cons_inj_right (45 : UInt8) |>.mp h)
      omega
    · exact absurd (h ▸ List.mem_cons_self) not_digit_minus
  · split at h
    · exact absurd (h.symm ▸ List.mem_cons_self) not_digit_minus
    · have hsame := habs h
      omega

/-- A printed 32-bit number is read back. -/
theorem stoi_formatInt {z : Int} (hz : -(2 ^ 31) ≤ z ∧ z < 2 ^ 31) :
    stoi (formatInt z) = some z := by
  rw [stoi, stoll_formatInt (by omega)]
  simpa using hz

end Base
