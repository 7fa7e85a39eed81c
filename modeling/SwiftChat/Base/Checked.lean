import SwiftChat.Base.Json
import Mathlib.Data.List.Basic

/-! Signed arithmetic that may not overflow, and the slices of a list that offsets cut. -/
namespace Base
variable {α : Type*} {xs : List α} {w size i k n : Nat} {z first last : Int}

/-- The result of an operation on a signed type of `w` bits; an overflow has no result. -/
def checked (w : Nat) (z : Int) : Option Int := if Fits w z then some z else none

theorem checked_of_fits (h : Fits w z) : checked w z = some z := if_pos h

theorem checked_of_not_fits (h : ¬ Fits w z) : checked w z = none := if_neg h

theorem fits_iff_of_nonneg (h : 0 ≤ z) : Fits w z ↔ z * 2 < 2 ^ w := by
  have hpow : (0 : Int) < 2 ^ w := Int.pow_pos (by decide)
  constructor
  · exact fun hfits => hfits.2
  · intro hlt
    exact ⟨by omega, hlt⟩

theorem wrap_natCast_le (n : Nat) : wrap 32 n ≤ n := by
  rw [wrap, Int.bmod_def]
  split <;> omega

/-- A number that does not lie above the range is not made smaller. -/
theorem le_wrap_of_lt (h : z < 2 ^ 31) : z ≤ wrap 32 z := by
  rw [wrap, Int.bmod_def]
  split <;> omega

theorem wrap_le_of_ge (h : 2 ^ 31 ≤ z) : wrap 32 z ≤ z - 2 ^ 32 := by
  rw [wrap, Int.bmod_def]
  split <;> omega

/-- The items between two iterators, which must stand in order within the list. -/
def between (xs : List α) (first last : Int) : Option (List α) :=
  if 0 ≤ first ∧ first ≤ last ∧ last ≤ xs.length then
    some ((xs.drop first.toNat).take (last - first).toNat)
  else none

/-- The page of `size` items with number `i`, counted from zero. -/
def offsetPage (xs : List α) (size i : Nat) : List α := (xs.drop (i * size)).take size

/-- How many pages have an item. -/
def pageCount (n size : Nat) : Nat := (n + size - 1) / size

theorem offsetPage_ne_nil (hsize : 0 < size) (h : i * size < xs.length) :
    offsetPage xs size i ≠ [] := by
  intro hnil
  have hlen := congrArg List.length hnil
  simp only [offsetPage, List.length_take, List.length_drop, List.length_nil] at hlen
  omega

/-- The pages one after the other are the list, up to where they end. -/
theorem flatMap_offsetPage (xs : List α) (size k : Nat) :
    (List.range k).flatMap (offsetPage xs size) = xs.take (k * size) := by
  induction k with
  | zero => simp
  | succ k ih =>
    simp [List.range_succ, List.flatMap_append, ih, offsetPage, Nat.succ_mul, List.take_add]

theorem le_pageCount_mul (hsize : 0 < size) : n ≤ pageCount n size * size := by
  have hdiv := Nat.div_add_mod (n + size - 1) size
  have hmod := Nat.mod_lt (n + size - 1) hsize
  rw [pageCount, Nat.mul_comm]
  omega

theorem mul_lt_of_lt_pageCount (hsize : 0 < size) (h : i < pageCount n size) : i * size < n := by
  have hle : (i + 1) * size ≤ n + size - 1 := (Nat.le_div_iff_mul_le hsize).mp h
  rw [Nat.succ_mul] at hle
  omega

/-- The first page without an item has the number of the pages that have one. -/
theorem eq_pageCount (hsize : 0 < size) (hlast : n ≤ k * size) (hbefore : ∀ i < k, i * size < n) :
    k = pageCount n size := by
  apply Nat.le_antisymm
  · by_contra hlt
    have hpos := hbefore (pageCount n size) (by omega)
    have hle := le_pageCount_mul (n := n) hsize
    omega
  · by_contra hlt
    have hpos := mul_lt_of_lt_pageCount (n := n) (i := k) hsize (by omega)
    omega

/-- A page cut at the end of the list is the same page. -/
theorem take_min_eq_offsetPage (xs : List α) (size i : Nat) :
    (xs.drop (i * size)).take (min (i * size + size) xs.length - i * size) =
      offsetPage xs size i := by
  rw [offsetPage]
  rcases Nat.le_total (i * size + size) xs.length with h | h
  · rw [Nat.min_eq_left h, Nat.add_sub_cancel_left]
  · rw [Nat.min_eq_right h, List.take_of_length_le (by simp),
      List.take_of_length_le (by simp; omega)]

theorem length_flatten_le {pages : List (List α)} (h : ∀ page ∈ pages, page.length ≤ size) :
    pages.flatten.length ≤ pages.length * size := by
  induction pages with
  | nil => simp
  | cons page pages ih =>
    have hpage := h page List.mem_cons_self
    have hrest := ih (fun page hp => h page (List.mem_cons_of_mem _ hp))
    rw [List.flatten_cons, List.length_append, List.length_cons, Nat.succ_mul]
    omega

end Base
