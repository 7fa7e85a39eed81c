import Mathlib.Data.Nat.Log
import Mathlib.Algebra.Order.Ring.Int

/-! What a double holds of an integer: 53 bits, rounded to the nearest, ties to even. -/
namespace Base
variable {n m d : Nat}

/-- `n / d` rounded to the nearest integer, ties to even. -/
def roundHalfEven (n d : Nat) : Nat :=
  if 2 * (n % d) < d then n / d
  else if d < 2 * (n % d) then n / d + 1
  else n / d + n / d % 2

/-- The weight of the last bit that is kept. -/
def lastPlace (n : Nat) : Nat := 2 ^ (n.log2 - 52)

def natToDouble (n : Nat) : Nat := roundHalfEven n (lastPlace n) * lastPlace n

def toDouble (z : Int) : Int := z.sign * natToDouble z.natAbs

theorem lastPlace_pos (n : Nat) : 0 < lastPlace n := Nat.pow_pos (by decide)

theorem roundHalfEven_bounds (n d : Nat) :
    n / d ≤ roundHalfEven n d ∧ roundHalfEven n d ≤ n / d + 1 := by
  unfold roundHalfEven
  have hbit := Nat.mod_lt (n / d) (show 0 < 2 by decide)
  split
  · omega
  · split
    · omega
    · omega

theorem roundHalfEven_mono (h : n ≤ m) : roundHalfEven n d ≤ roundHalfEven m d := by
  have hq : n / d ≤ m / d := Nat.div_le_div_right h
  rcases Nat.lt_or_eq_of_le hq with hlt | heq
  · exact (roundHalfEven_bounds n d).2.trans (le_trans hlt (roundHalfEven_bounds m d).1)
  · have hn := Nat.div_add_mod n d
    have hm := Nat.div_add_mod m d
    rw [heq] at hn
    have hr : n % d ≤ m % d := by omega
    unfold roundHalfEven
    rw [heq]
    have hbit := Nat.mod_lt (m / d) (show 0 < 2 by decide)
    split
    · exact (roundHalfEven_bounds m d).1
    · split
      · rw [if_neg (by omega), if_pos (by omega)]
      · rw [if_neg (by omega)]
        split
        · omega
        · exact le_rfl

theorem roundHalfEven_of_dvd (hd : 0 < d) (h : d ∣ n) : roundHalfEven n d = n / d := by
  rw [roundHalfEven, if_pos (by rw [Nat.mod_eq_zero_of_dvd h]; omega)]

theorem natToDouble_of_dvd (h : lastPlace n ∣ n) : natToDouble n = n := by
  rw [natToDouble, roundHalfEven_of_dvd (lastPlace_pos n) h, Nat.div_mul_cancel h]

theorem lastPlace_dvd_pow {k : Nat} (h : n.log2 ≤ k) : lastPlace n ∣ 2 ^ k :=
  Nat.pow_dvd_pow 2 (by omega)

/-- Rounding stays between the powers of two around the number. -/
theorem natToDouble_bounds (hn : n ≠ 0) :
    2 ^ n.log2 ≤ natToDouble n ∧ natToDouble n ≤ 2 ^ (n.log2 + 1) := by
  have hround : ∀ {k}, n.log2 ≤ k → roundHalfEven (2 ^ k) (lastPlace n) * lastPlace n = 2 ^ k := by
    intro k hk
    rw [roundHalfEven_of_dvd (lastPlace_pos n) (lastPlace_dvd_pow hk),
      Nat.div_mul_cancel (lastPlace_dvd_pow hk)]
  constructor
  · rw [← hround le_rfl]
    exact Nat.mul_le_mul_right _ (roundHalfEven_mono (Nat.log2_self_le hn))
  · rw [← hround (Nat.le_succ n.log2)]
    exact Nat.mul_le_mul_right _ (roundHalfEven_mono (le_of_lt Nat.lt_log2_self))

/-- What a double holds is a multiple of the last place it has there. -/
theorem natToDouble_idem (n : Nat) : natToDouble (natToDouble n) = natToDouble n := by
  by_cases hn : n = 0
  · subst hn
    rw [natToDouble_of_dvd (n := 0) (Nat.dvd_zero _), natToDouble_of_dvd (Nat.dvd_zero _)]
  · obtain ⟨hlo, hhi⟩ := natToDouble_bounds hn
    apply natToDouble_of_dvd
    rcases Nat.lt_or_eq_of_le hhi with hlt | heq
    · have hlog : (natToDouble n).log2 = n.log2 :=
        (Nat.log2_eq_iff (by omega)).mpr ⟨hlo, hlt⟩
      rw [lastPlace, hlog]
      exact dvd_mul_left _ _
    · rw [heq, lastPlace, Nat.log2_two_pow]
      exact Nat.pow_dvd_pow 2 (by omega)

theorem toDouble_idem (a : Int) : toDouble (toDouble a) = toDouble a := by
  have habs : (toDouble a).natAbs = natToDouble a.natAbs := by
    rcases lt_trichotomy a 0 with ha | ha | ha
    · rw [toDouble, Int.sign_eq_neg_one_of_neg ha]
      omega
    · subst ha
      rfl
    · rw [toDouble, Int.sign_eq_one_of_pos ha]
      omega
  rw [toDouble, habs, natToDouble_idem]
  rcases eq_or_ne (natToDouble a.natAbs) 0 with hzero | hne
  · rw [toDouble, hzero]
    simp
  · congr 1
    rw [toDouble, Int.sign_mul, Int.sign_sign, Int.sign_natCast_of_ne_zero hne, mul_one]

end Base
