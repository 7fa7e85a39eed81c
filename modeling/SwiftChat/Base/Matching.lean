import Mathlib.Data.List.Infix
import Mathlib.Data.List.Basic

/-! Occurrences of one text in another, and the pieces that its leftmost matches cut. -/
namespace Base
variable {α : Type*} {d s p r : List α} {i : Nat}

/-- The first occurrence of `d` in `p ++ d ++ r` stands right behind `p`. -/
def FirstBehind (d p r : List α) : Prop := ∀ i < p.length, ¬ d <+: (p ++ d ++ r).drop i

/-- The pieces of a text between the leftmost matches of `d`, each match sought behind the one
before it. -/
inductive Pieces (d : List α) : List α → List (List α) → Prop where
  | last {s : List α} (h : ¬ d <:+: s) : Pieces d s [s]
  | cut {p r : List α} {ps : List (List α)} (h : FirstBehind d p r) (tail : Pieces d r ps) :
      Pieces d (p ++ d ++ r) (p :: ps)

/-- A piece in front of a first occurrence contains none. -/
theorem FirstBehind.free (hd : d ≠ []) (h : FirstBehind d p r) : ¬ d <:+: p := by
  rintro ⟨a, b, rfl⟩
  have hlen : 0 < d.length := List.length_pos_iff.mpr hd
  apply h a.length
  · simp only [List.length_append]
    omega
  · refine ⟨b ++ d ++ r, ?_⟩
    simp only [List.append_assoc, List.drop_left]

/-- One item stands first behind whatever does not contain it. -/
theorem firstBehind_singleton {c : α} (h : c ∉ p) : FirstBehind [c] p r := by
  intro i hi hstart
  have hhead : (p ++ [c] ++ r).drop i = p[i] :: (p ++ [c] ++ r).drop (i + 1) := by
    rw [List.drop_eq_getElem_cons (by simp; omega), List.getElem_append_left (by simp; omega),
      List.getElem_append_left hi]
  rw [hhead, List.cons_prefix_cons] at hstart
  exact h (hstart.1 ▸ List.getElem_mem hi)

namespace Pieces
variable {ps : List (List α)}

theorem ne_nil (h : Pieces d s ps) : ps ≠ [] := by
  cases h <;> simp

/-- Joining the pieces gives the text back. -/
theorem intercalate_eq (h : Pieces d s ps) : d.intercalate ps = s := by
  induction h with
  | last => exact List.intercalate_singleton
  | cut _ tail ih => rw [List.intercalate_cons_of_ne_nil tail.ne_nil, ih]

theorem free (hd : d ≠ []) (h : Pieces d s ps) : ∀ p ∈ ps, ¬ d <:+: p := by
  induction h with
  | last h =>
    intro p hp
    rwa [List.mem_singleton.mp hp]
  | cut h _ ih =>
    intro p hp
    rcases List.mem_cons.mp hp with rfl | hp
    · exact h.free hd
    · exact ih p hp

/-- Every match but the last piece takes at least one item of the text. -/
theorem length_le (hd : d ≠ []) (h : Pieces d s ps) : ps.length ≤ s.length + 1 := by
  have hlen : 0 < d.length := List.length_pos_iff.mpr hd
  induction h with
  | last => simp
  | cut _ _ ih =>
    simp only [List.length_cons, List.length_append]
    omega

end Pieces

section Search
variable [DecidableEq α]

/-- The position of the first occurrence. -/
def firstIn (d : List α) : List α → Option Nat
  | [] => if d = [] then some 0 else none
  | a :: s => if d <+: a :: s then some 0 else (firstIn d s).map (· + 1)

/-- The position of the last occurrence. -/
def lastIn (d : List α) : List α → Option Nat
  | [] => if d = [] then some 0 else none
  | a :: s =>
    match lastIn d s with
    | some i => some (i + 1)
    | none => if d <+: a :: s then some 0 else none

/-- The position of the first occurrence at or behind `pos`. -/
def findFrom (s d : List α) (pos : Nat) : Option Nat :=
  if pos ≤ s.length then (firstIn d (s.drop pos)).map (pos + ·) else none

theorem firstIn_eq_none : firstIn d s = none ↔ ¬ d <:+: s := by
  induction s with
  | nil =>
    rw [firstIn, List.infix_nil]
    by_cases hd : d = [] <;> simp [hd]
  | cons a s ih =>
    rw [firstIn, List.infix_cons_iff]
    by_cases h : d <+: a :: s
    · simp [h]
    · simp [h, ih]

theorem firstIn_eq_some (h : firstIn d s = some i) :
    ∃ p r, s = p ++ d ++ r ∧ p.length = i ∧ FirstBehind d p r := by
  induction s generalizing i with
  | nil =>
    rw [firstIn] at h
    split at h
    · rename_i hd
      cases h
      exact ⟨[], [], by simp [hd], rfl, by simp [FirstBehind]⟩
    · cases h
  | cons a s ih =>
    rw [firstIn] at h
    split at h
    · rename_i hd
      cases h
      obtain ⟨r, hr⟩ := hd
      exact ⟨[], r, hr.symm, rfl, by simp [FirstBehind]⟩
    · rename_i hd
      obtain ⟨j, hj, rfl⟩ := Option.map_eq_some_iff.mp h
      obtain ⟨p, r, hs, hp, hfirst⟩ := ih hj
      refine ⟨a :: p, r, by simp [hs], by simp [hp], ?_⟩
      intro k hk
      cases k with
      | zero => simpa [hs] using hd
      | succ k =>
        apply hfirst k
        simpa using hk

theorem firstIn_eq_zero : firstIn d s = some 0 ↔ d <+: s := by
  cases s with
  | nil => simp [firstIn]
  | cons a s =>
    rw [firstIn]
    split
    · rename_i h
      exact iff_of_true rfl h
    · rename_i h
      refine iff_of_false ?_ h
      intro hzero
      obtain ⟨i, _, hi⟩ := Option.map_eq_some_iff.mp hzero
      exact Nat.succ_ne_zero i hi

theorem lastIn_eq_some (h : lastIn d s = some i) : d <+: s.drop i := by
  induction s generalizing i with
  | nil =>
    rw [lastIn] at h
    split at h
    · rename_i hd
      rw [hd]
      exact List.nil_prefix
    · cases h
  | cons a s ih =>
    rw [lastIn] at h
    split at h
    · rename_i j hj
      cases h
      exact ih hj
    · split at h
      · rename_i hd
        cases h
        exact hd
      · cases h

/-- An occurrence at the end is the last one. -/
theorem lastIn_of_suffix (p : List α) (hd : d ≠ []) : lastIn d (p ++ d) = some p.length := by
  induction p with
  | nil =>
    have hnone : ∀ s : List α, s.length < d.length → lastIn d s = none := by
      intro s hs
      cases h : lastIn d s with
      | none => rfl
      | some i =>
        have hlen := (lastIn_eq_some h).length_le
        rw [List.length_drop] at hlen
        omega
    obtain ⟨a, s, rfl⟩ := List.exists_cons_of_ne_nil hd
    rw [List.nil_append, lastIn, hnone s (by simp)]
    simp
  | cons a p ih => rw [List.cons_append, lastIn, ih, List.length_cons]

/-- Every text has its pieces: the text behind a match is shorter. -/
theorem exists_pieces (hd : d ≠ []) (s : List α) : ∃ ps, Pieces d s ps := by
  have hlen : 0 < d.length := List.length_pos_iff.mpr hd
  induction hn : s.length using Nat.strongRecOn generalizing s with
  | ind n ih =>
    cases h : firstIn d s with
    | none => exact ⟨[s], .last (firstIn_eq_none.mp h)⟩
    | some i =>
      obtain ⟨p, r, rfl, -, hfirst⟩ := firstIn_eq_some h
      simp only [List.length_append] at hn
      obtain ⟨ps, hps⟩ := ih r.length (by omega) r rfl
      exact ⟨p :: ps, .cut hfirst hps⟩

theorem FirstBehind.firstIn_eq (h : FirstBehind d p r) :
    firstIn d (p ++ d ++ r) = some p.length := by
  induction p with
  | nil =>
    cases d with
    | nil => cases r <;> simp [firstIn]
    | cons a d => simp [firstIn]
  | cons a p ih =>
    have hhead : ¬ d <+: a :: (p ++ d ++ r) := h 0 (by simp)
    have htail : FirstBehind d p r := by
      intro k hk
      exact h (k + 1) (by simpa using hk)
    simp only [List.cons_append, firstIn, hhead, if_false, ih htail, Option.map_some,
      List.length_cons]

/-- What a search from behind a part that is done with finds. -/
theorem findFrom_append (done : List α) :
    findFrom (done ++ s) d done.length = (firstIn d s).map (done.length + ·) := by
  simp [findFrom]

theorem FirstBehind.findFrom_eq (h : FirstBehind d p r) (done : List α) :
    findFrom (done ++ (p ++ d ++ r)) d done.length = some (done.length + p.length) := by
  rw [findFrom_append, h.firstIn_eq]
  rfl

theorem findFrom_singleton {c : α} (done : List α) (h : c ∉ p) :
    findFrom (done ++ (p ++ c :: r)) [c] done.length = some (done.length + p.length) := by
  have hfind := (firstBehind_singleton (r := r) h).findFrom_eq done
  rwa [List.append_assoc p, List.singleton_append] at hfind

end Search
end Base
