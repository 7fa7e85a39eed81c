import Mathlib.Algebra.Group.Nat.Defs
import Mathlib.Data.List.Basic

/-! Numbers as fixed-width bit strings, and the bits left in a wrapping accumulator. -/
namespace Base
variable {w j k m n : Nat} {xs ys : List Nat} {p q : List Bool}

/-- The last `k` bits of a number, most significant first. -/
def bits : Nat → Nat → List Bool
  | 0, _ => []
  | k + 1, n => bits k (n / 2) ++ [decide (n % 2 = 1)]

/-- The bits of a list of `w`-bit numbers. -/
def bitStream (w : Nat) (xs : List Nat) : List Bool := xs.flatMap (bits w)

@[simp] theorem length_bits : (bits k n).length = k := by
  induction k generalizing n with
  | zero => rfl
  | succ k ih => simp [bits, ih]

theorem bits_add : bits (j + k) n = bits j (n / 2 ^ k) ++ bits k n := by
  induction k generalizing n with
  | zero => simp [bits]
  | succ k ih =>
    rw [← Nat.add_assoc, bits, ih, bits, List.append_assoc, Nat.div_div_eq_div_mul, ← Nat.pow_succ']

theorem bits_mod (h : k ≤ j) : bits k (n % 2 ^ j) = bits k n := by
  induction k generalizing n j with
  | zero => rfl
  | succ k ih =>
    obtain ⟨j, rfl⟩ : ∃ i, j = i + 1 := ⟨j - 1, by omega⟩
    have hdiv : n % 2 ^ (j + 1) / 2 = n / 2 % 2 ^ j := by
      rw [Nat.pow_succ', Nat.mod_mul_right_div_self]
    have hlow : n % 2 ^ (j + 1) % 2 = n % 2 := Nat.mod_mod_of_dvd n ⟨2 ^ j, Nat.pow_succ'⟩
    rw [bits, bits, hdiv, hlow, ih (by omega)]

/-- The bits of a number below a shifted one are the low bits. -/
theorem bits_shift_add (h : m < 2 ^ k) : bits (j + k) (n * 2 ^ k + m) = bits j n ++ bits k m := by
  have hpos : 0 < 2 ^ k := Nat.two_pow_pos k
  have hhigh : (n * 2 ^ k + m) / 2 ^ k = n := by
    rw [Nat.mul_comm, Nat.mul_add_div hpos, Nat.div_eq_of_lt h, Nat.add_zero]
  have hlow : bits k (n * 2 ^ k + m) = bits k m := by
    rw [← bits_mod (Nat.le_refl k), Nat.mul_comm, Nat.mul_add_mod, bits_mod (Nat.le_refl k)]
  rw [bits_add, hhigh, hlow]

theorem bits_inj (hm : m < 2 ^ k) (hn : n < 2 ^ k) (h : bits k m = bits k n) : m = n := by
  induction k generalizing m n with
  | zero => omega
  | succ k ih =>
    rw [Nat.pow_succ] at hm hn
    obtain ⟨hhigh, hlow⟩ := List.append_inj' h rfl
    have hhalf := ih (by omega) (by omega) hhigh
    have hparity : (m % 2 = 1) ↔ (n % 2 = 1) := by simpa using hlow
    omega

@[simp] theorem bits_zero : bits k 0 = List.replicate k false := by
  induction k with
  | zero => rfl
  | succ k ih => simp [bits, ih, List.replicate_succ']

theorem bitStream_cons (n : Nat) (xs : List Nat) :
    bitStream w (n :: xs) = bits w n ++ bitStream w xs := rfl

theorem bitStream_append (xs ys : List Nat) :
    bitStream w (xs ++ ys) = bitStream w xs ++ bitStream w ys := List.flatMap_append

@[simp] theorem length_bitStream : (bitStream w xs).length = w * xs.length := by
  induction xs with
  | nil => rfl
  | cons n xs ih =>
    rw [bitStream_cons, List.length_append, length_bits, ih, List.length_cons, Nat.mul_succ,
      Nat.add_comm]

/-- A bit string is cut into `w`-bit numbers in one way only. -/
theorem bitStream_inj (hxs : ∀ n ∈ xs, n < 2 ^ w) (hys : ∀ n ∈ ys, n < 2 ^ w)
    (hlen : xs.length = ys.length) (h : bitStream w xs ++ p = bitStream w ys ++ q) : xs = ys := by
  induction xs generalizing ys with
  | nil => exact (List.length_eq_zero_iff.mp hlen.symm).symm
  | cons m xs ih =>
    cases ys with
    | nil => simp at hlen
    | cons n ys =>
      rw [bitStream_cons, bitStream_cons, List.append_assoc, List.append_assoc] at h
      obtain ⟨hhead, htail⟩ := List.append_inj h (by simp)
      have hmn := bits_inj (hxs m List.mem_cons_self) (hys n List.mem_cons_self) hhead
      rw [hmn, ih (fun x hx => hxs x (List.mem_cons_of_mem m hx))
        (fun x hx => hys x (List.mem_cons_of_mem n hx)) (by simpa using hlen) htail]

/-- The same when what is left on either side is shorter than one number. -/
theorem bitStream_inj_of_lt (hxs : ∀ n ∈ xs, n < 2 ^ w) (hys : ∀ n ∈ ys, n < 2 ^ w)
    (hp : p.length < w) (hq : q.length < w) (h : bitStream w xs ++ p = bitStream w ys ++ q) :
    xs = ys := by
  apply bitStream_inj hxs hys _ h
  have hlen := congrArg List.length h
  simp only [List.length_append, length_bitStream] at hlen
  have hw : 0 < w := by omega
  have hx : (w * xs.length + p.length) / w = xs.length := by
    rw [Nat.mul_add_div hw, Nat.div_eq_of_lt hp, Nat.add_zero]
  have hy : (w * ys.length + q.length) / w = ys.length := by
    rw [Nat.mul_add_div hw, Nat.div_eq_of_lt hq, Nat.add_zero]
  rw [← hx, hlen, hy]

/-- What a shift and a mask read from a signed word that may have wrapped. -/
theorem toNat_sshiftRight_and {v : BitVec 32} (h : j + w ≤ 32) :
    ((v.sshiftRight j) &&& BitVec.ofNat 32 (2 ^ w - 1)).toNat = v.toNat / 2 ^ j % 2 ^ w := by
  apply Nat.eq_of_testBit_eq
  intro i
  rw [BitVec.toNat_and, Nat.testBit_and, BitVec.testBit_toNat, BitVec.getLsbD_sshiftRight,
    BitVec.toNat_ofNat, Nat.testBit_mod_two_pow, Nat.testBit_mod_two_pow, Nat.testBit_div_two_pow,
    Nat.testBit_two_pow_sub_one, BitVec.getLsbD]
  by_cases hi : i < w
  · have hlow : j + i < 32 := by omega
    have hin : ¬ 32 ≤ i := by omega
    have hin' : i < 32 := by omega
    simp [hi, hlow, hin, hin']
    rw [Nat.add_comm]
  · simp [hi]

end Base
