import Mathlib.Data.List.Sort
import Mathlib.Data.Prod.Lex

/-! What a sort with a comparison promises. The order of elements that neither comparison separates
is left open. -/
namespace Base
variable {α : Type*} {lt : α → α → Prop} {xs ys : List α}

/-- A sort by the comparison `lt`. -/
structure Sorter (lt : α → α → Prop) where
  sort : List α → List α
  perm : ∀ xs, (sort xs).Perm xs
  sorted : ∀ xs, (sort xs).Pairwise (fun a b => ¬ lt b a)

/-- Of two different elements of the list one is less than the other. -/
def Separated (lt : α → α → Prop) (xs : List α) : Prop :=
  ∀ a ∈ xs, ∀ b ∈ xs, ¬ lt a b → ¬ lt b a → a = b

theorem Separated.perm (h : Separated lt xs) (hp : xs.Perm ys) : Separated lt ys :=
  fun a ha b hb => h a (hp.mem_iff.mpr ha) b (hp.mem_iff.mpr hb)

/-- Sorted lists of the same elements are the same list. -/
theorem Separated.eq (h : Separated lt xs) (hp : xs.Perm ys)
    (hx : xs.Pairwise (fun a b => ¬ lt b a)) (hy : ys.Pairwise (fun a b => ¬ lt b a)) : xs = ys :=
  hp.eq_of_pairwise (fun a b ha hb hab hba => h a ha b (hp.mem_iff.mpr hb) hba hab) hx hy

namespace Sorter
variable (s : Sorter lt)

theorem mem_sort {a : α} : a ∈ s.sort xs ↔ a ∈ xs := (s.perm xs).mem_iff

theorem length_sort : (s.sort xs).length = xs.length := (s.perm xs).length_eq

/-- A sort by a finer comparison. -/
def ofFiner {lt' : α → α → Prop} (s : Sorter lt') (h : ∀ a b, lt a b → lt' a b) : Sorter lt where
  sort := s.sort
  perm := s.perm
  sorted xs := (s.sorted xs).imp (fun hab hba => hab (h _ _ hba))

theorem sort_eq_self (h : Separated lt xs) (hs : xs.Pairwise (fun a b => ¬ lt b a)) :
    s.sort xs = xs :=
  (h.perm (s.perm xs).symm).eq (s.perm xs) (s.sorted xs) hs

/-- Where elements are separated, their order before the sort does not matter. -/
theorem sort_eq_of_perm (h : Separated lt xs) (hp : xs.Perm ys) : s.sort xs = s.sort ys :=
  (h.perm (s.perm xs).symm).eq ((s.perm xs).trans (hp.trans (s.perm ys).symm)) (s.sorted xs)
    (s.sorted ys)

end Sorter

section Key
variable {β : Type*} [LinearOrder β]

/-- Sorting by insertion, for a comparison of keys. -/
def insertionSorter (key : α → β) (hlt : ∀ a b, lt a b ↔ key a < key b) : Sorter lt where
  sort xs := xs.insertionSort (fun a b => key a ≤ key b)
  perm xs := List.perm_insertionSort _ xs
  sorted xs := by
    have : Std.Total (fun a b => key a ≤ key b) := ⟨fun a b => le_total (key a) (key b)⟩
    have : IsTrans α (fun a b => key a ≤ key b) := ⟨fun _ _ _ => le_trans⟩
    have hsorted := List.pairwise_insertionSort (fun a b => key a ≤ key b) xs
    exact hsorted.imp (fun hab hba => not_lt_of_ge hab ((hlt _ _).mp hba))

/-- Sorting so that one element comes after the others with its key. -/
def lastSorter [DecidableEq α] (key : α → β) (hlt : ∀ a b, lt a b ↔ key a < key b) (x : α) :
    Sorter lt :=
  (insertionSorter (fun a => toLex (key a, decide (a = x))) (fun _ _ => Iff.rfl) :
    Sorter (fun a b => toLex (key a, decide (a = x)) < toLex (key b, decide (b = x)))).ofFiner
    (fun a b hab => Prod.Lex.toLex_lt_toLex.mpr (Or.inl ((hlt a b).mp hab)))

variable (key : α → β) {x y : α} {n : Nat} {c : β}

theorem lastSorter_sorted [DecidableEq α] {hlt : ∀ a b, lt a b ↔ key a < key b} (h : xs.Nodup) :
    ((lastSorter key hlt x).sort xs).Pairwise
      (fun a b => key a ≤ key b ∧ (a = x → key a < key b)) := by
  have hsorted := (insertionSorter (fun a => toLex (key a, decide (a = x))) (fun _ _ => Iff.rfl) :
    Sorter (fun a b => toLex (key a, decide (a = x)) < toLex (key b, decide (b = x)))).sorted xs
  have hnodup : ((lastSorter key hlt x).sort xs).Nodup :=
    ((lastSorter key hlt x).perm xs).nodup_iff.mpr h
  refine (hsorted.and hnodup).imp ?_
  rintro a b ⟨hab, hne⟩
  rcases Prod.Lex.toLex_le_toLex.mp (not_lt.mp hab) with hlt' | ⟨heq, hle⟩
  · exact ⟨le_of_lt hlt', fun _ => hlt'⟩
  · refine ⟨le_of_eq heq, ?_⟩
    rintro rfl
    -- of two elements with one key only `x` has the greater mark
    have hb : decide (b = a) = false := decide_eq_false (fun hba => hne hba.symm)
    have hmark : decide (a = a) = true := decide_eq_true rfl
    rw [hb, hmark] at hle
    exact absurd (show true ≤ false from hle) (by decide)

/-! The last `n` of a sorted list. -/

theorem le_of_not_mem_last (hs : xs.Pairwise (fun a b => key a ≤ key b)) (hx : x ∈ xs)
    (hout : x ∉ xs.drop (xs.length - n)) (hy : y ∈ xs.drop (xs.length - n)) : key x ≤ key y := by
  have hsplit := List.take_append_drop (xs.length - n) xs
  rw [← hsplit, List.pairwise_append] at hs
  rw [← hsplit] at hx
  rcases List.mem_append.mp hx with hx | hx
  · exact hs.2.2 x hx y hy
  · exact absurd hx hout

/-- What is not counted among the first is counted among the last. -/
theorem countP_le_last {p : α → Bool} (h : ∀ a ∈ xs.take (xs.length - n), p a = false) :
    xs.countP p ≤ (xs.drop (xs.length - n)).countP p := by
  have hnone : (xs.take (xs.length - n)).countP p = 0 := by
    rw [List.countP_eq_zero]
    intro a ha
    simp [h a ha]
  calc xs.countP p = (xs.take (xs.length - n) ++ xs.drop (xs.length - n)).countP p := by
        rw [List.take_append_drop]
    _ = (xs.drop (xs.length - n)).countP p := by rw [List.countP_append, hnone, Nat.zero_add]
    _ ≤ _ := le_rfl

theorem countP_lt_of_mem_last {p : α → Bool} (h : ∀ a ∈ xs.take (xs.length - n), p a = false)
    (hx : x ∈ xs.drop (xs.length - n)) (hp : p x = false) : xs.countP p < n := by
  have hlt : (xs.drop (xs.length - n)).countP p < (xs.drop (xs.length - n)).length := by
    refine lt_of_le_of_ne List.countP_le_length ?_
    intro heq
    have := List.countP_eq_length.mp heq x hx
    rw [hp] at this
    cases this
  have hle := countP_le_last h
  rw [List.length_drop] at hlt
  omega

/-- Less than `n` come after an element among the last. -/
theorem newer_lt_of_mem_last (hs : xs.Pairwise (fun a b => key a ≤ key b))
    (hx : x ∈ xs.drop (xs.length - n)) : xs.countP (fun a => key x < key a) < n := by
  refine countP_lt_of_mem_last ?_ hx (by simp)
  rw [← List.take_append_drop (xs.length - n) xs, List.pairwise_append] at hs
  intro a ha
  simpa using hs.2.2 a ha x hx

/-- The last of a list that has `n` from `c` on are all from `c` on. -/
theorem le_of_mem_last (hs : xs.Pairwise (fun a b => key a ≤ key b))
    (hn : n ≤ xs.countP (fun a => c ≤ key a)) (hx : x ∈ xs.drop (xs.length - n)) : c ≤ key x := by
  by_contra hlt
  refine absurd hn (not_le.mpr (countP_lt_of_mem_last ?_ hx (by simpa using hlt)))
  rw [← List.take_append_drop (xs.length - n) xs, List.pairwise_append] at hs
  intro a ha
  have hle := hs.2.2 a ha x hx
  simpa using hle.trans_lt (not_le.mp hlt)

/-- An element that comes after the others with its key is among the last when less than `n` have
a greater one. -/
theorem mem_last_of_newer_lt (hs : xs.Pairwise (fun a b => key a ≤ key b ∧ (a = x → key a < key b)))
    (hx : x ∈ xs) (hn : xs.countP (fun a => key x < key a) < n) : x ∈ xs.drop (xs.length - n) := by
  have hsplit := List.take_append_drop (xs.length - n) xs
  rw [← hsplit, List.pairwise_append] at hs
  rw [← hsplit] at hx
  rcases List.mem_append.mp hx with hfirst | hlast
  · have hall : (xs.drop (xs.length - n)).countP (fun a => key x < key a) =
        (xs.drop (xs.length - n)).length := by
      rw [List.countP_eq_length]
      intro a ha
      exact decide_eq_true ((hs.2.2 x hfirst a ha).2 rfl)
    have hle : (xs.drop (xs.length - n)).countP (fun a => key x < key a) ≤
        xs.countP (fun a => key x < key a) := (List.drop_sublist _ _).countP_le
    have hpos : 0 < (xs.take (xs.length - n)).length := List.length_pos_of_mem hfirst
    rw [List.length_take] at hpos
    rw [List.length_drop] at hall
    omega
  · exact hlast

end Key
end Base
