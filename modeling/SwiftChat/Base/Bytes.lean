import Mathlib.Data.List.Lex
import Mathlib.Data.List.Infix
import Mathlib.Order.Lattice

/-! Byte strings, their lexicographic order, and the order facts behind prefix scans. -/

/-- The unsigned order of bytes. -/
instance UInt8.instLinearOrderByte : LinearOrder UInt8 where
  le_refl := UInt8.le_refl
  le_trans _ _ _ := UInt8.le_trans
  le_antisymm _ _ := UInt8.le_antisymm
  le_total := UInt8.le_total
  lt_iff_le_not_ge a b := by simp [UInt8.lt_iff_toNat_lt, UInt8.le_iff_toNat_le]; omega
  toDecidableLE := inferInstance
  toDecidableEq := inferInstance
  toDecidableLT := inferInstance

namespace Base

/-- A string as the store sees it: the list of its bytes. -/
abbrev Bytes := List UInt8

/-- Found at once wherever a decidable membership of texts needs it. -/
instance : LawfulBEq Bytes := inferInstance

/-- The bytes of a literal. -/
def str (s : String) : Bytes := s.toUTF8.data.toList

section Order
variable {α : Type*} [LinearOrder α] {p k b c : List α}

theorem le_append (p x : List α) : p ≤ p ++ x := by
  induction p with
  | nil =>
    cases x with
    | nil => exact le_rfl
    | cons a x => exact le_of_lt (List.Lex.nil : List.Lex (· < ·) [] (a :: x))
  | cons a p ih => exact List.cons_le_cons a ih

theorem le_of_isPrefix (h : p <+: k) : p ≤ k := by
  obtain ⟨x, rfl⟩ := h
  exact le_append p x

theorem cons_le_cons_iff {x y : α} {l m : List α} :
    x :: l ≤ y :: m ↔ x < y ∨ (x = y ∧ l ≤ m) := by
  rw [← not_lt, ← not_lt (a := m)]
  change ¬ List.Lex (· < ·) (y :: m) (x :: l) ↔ x < y ∨ (x = y ∧ ¬ List.Lex (· < ·) m l)
  rw [List.cons_lex_cons_iff]
  rcases lt_trichotomy x y with h | h | h
  · simp [h, h.ne', not_lt_of_gt h]
  · subst h; simp
  · simp [h, h.ne', not_lt_of_gt h]

/-- Keys that share a prefix are contiguous: nothing between the prefix and one of its
extensions lies outside it. -/
theorem prefix_of_between (hc : p <+: c) (hpb : p ≤ b) (hbc : b ≤ c) : p <+: b := by
  obtain ⟨x, rfl⟩ := hc
  induction p generalizing b with
  | nil => exact List.nil_prefix
  | cons a p ih =>
    cases b with
    | nil => exact absurd hpb (not_le_of_gt (List.Lex.nil : List.Lex (· < ·) [] (a :: p)))
    | cons d b =>
      rw [cons_le_cons_iff] at hpb
      rw [List.cons_append, cons_le_cons_iff] at hbc
      obtain hlt | ⟨rfl, hpb⟩ := hpb
      · obtain h | ⟨h, _⟩ := hbc
        · exact absurd h (not_lt_of_gt hlt)
        · exact absurd h.symm hlt.ne
      · obtain h | ⟨_, hbc⟩ := hbc
        · exact absurd h (lt_irrefl _)
        · exact List.cons_prefix_cons.mpr ⟨rfl, ih hpb hbc⟩

theorem append_lt_append_left (p : List α) : p ++ b < p ++ c ↔ b < c := by
  induction p with
  | nil => rfl
  | cons a p ih =>
    change List.Lex (· < ·) (a :: (p ++ b)) (a :: (p ++ c)) ↔ _
    rw [List.cons_lex_cons_iff, ← ih]
    simp only [lt_irrefl, true_and, false_or]
    rfl

/-- Blocks of one length are compared before what follows them. -/
theorem append_lt_append_iff {x y : List α} (h : b.length = c.length) :
    b ++ x < c ++ y ↔ b < c ∨ (b = c ∧ x < y) := by
  induction b generalizing c with
  | nil =>
    cases c with
    | nil => simp
    | cons d c => simp at h
  | cons a b ih =>
    cases c with
    | nil => simp at h
    | cons d c =>
      have hl := ih (c := c) (by simpa using h)
      change List.Lex (· < ·) (a :: (b ++ x)) (d :: (c ++ y)) ↔
        List.Lex (· < ·) (a :: b) (d :: c) ∨ _
      rw [List.cons_lex_cons_iff, List.cons_lex_cons_iff, List.cons.injEq]
      change a < d ∨ (a = d ∧ b ++ x < c ++ y) ↔ (a < d ∨ (a = d ∧ b < c)) ∨ _
      rw [hl]
      tauto

end Order

section Separator
variable {α : Type*} {sep : α} {a b x y : List α}

/-- A field free of the separator is delimited by the separator's first occurrence. -/
theorem append_sep_inj (ha : sep ∉ a) (hb : sep ∉ b) (h : a ++ sep :: x = b ++ sep :: y) :
    a = b ∧ x = y := by
  induction a generalizing b with
  | nil =>
    cases b with
    | nil => exact ⟨rfl, List.tail_eq_of_cons_eq h⟩
    | cons d b => exact absurd (List.head_eq_of_cons_eq h) (fun he => hb (by simp [he]))
  | cons d a ih =>
    cases b with
    | nil => exact absurd (List.head_eq_of_cons_eq h) (fun he => ha (by simp [he]))
    | cons e b =>
      obtain ⟨rfl, htail⟩ : d = e ∧ a ++ sep :: x = b ++ sep :: y := by simpa using h
      obtain ⟨rfl, rfl⟩ := ih (fun hm => ha (by simp [hm])) (fun hm => hb (by simp [hm])) htail
      exact ⟨rfl, rfl⟩

/-- The same from the other end: a last field free of the separator. -/
theorem append_sep_inj_right (hx : sep ∉ x) (hy : sep ∉ y) (h : a ++ sep :: x = b ++ sep :: y) :
    a = b ∧ x = y := by
  have hrev : x.reverse ++ sep :: a.reverse = y.reverse ++ sep :: b.reverse := by
    simpa [List.append_assoc] using congrArg List.reverse h
  obtain ⟨hxy, hab⟩ := append_sep_inj (by simpa using hx) (by simpa using hy) hrev
  exact ⟨List.reverse_injective hab, List.reverse_injective hxy⟩

/-- Two fields free of the separator can be read in no other way. -/
theorem append_sep_inj_of_free (hb : sep ∉ b) (hy : sep ∉ y) (h : a ++ sep :: x = b ++ sep :: y) :
    a = b ∧ x = y := by
  have ha : sep ∉ a := by
    intro ha
    obtain ⟨p, q, rfl, hp⟩ := List.eq_append_cons_of_mem ha
    have hcut : p ++ sep :: (q ++ sep :: x) = b ++ sep :: y := by simpa using h
    have htail := (append_sep_inj hp hb hcut).2
    exact hy (htail ▸ List.mem_append_right _ List.mem_cons_self)
  exact append_sep_inj ha hb h

/-- The ways two joined pairs can agree: the same two fields, or one text cut at two different
separators. -/
theorem append_sep_eq_iff :
    a ++ sep :: x = b ++ sep :: y ↔
      (a = b ∧ x = y) ∨ (∃ m, b = a ++ sep :: m ∧ x = m ++ sep :: y) ∨
        ∃ m, a = b ++ sep :: m ∧ y = m ++ sep :: x := by
  constructor
  · intro h
    rcases List.append_eq_append_iff.mp h with ⟨m, hb, hx⟩ | ⟨m, ha, hy⟩
    · cases m with
      | nil => exact Or.inl ⟨by simpa using hb.symm, by simpa using hx⟩
      | cons e m =>
        obtain ⟨rfl, rfl⟩ := List.cons.inj hx
        exact Or.inr (Or.inl ⟨m, hb, rfl⟩)
    · cases m with
      | nil => exact Or.inl ⟨by simpa using ha, by simpa using hy.symm⟩
      | cons e m =>
        obtain ⟨rfl, rfl⟩ := List.cons.inj hy
        exact Or.inr (Or.inr ⟨m, ha, rfl⟩)
  · rintro (⟨rfl, rfl⟩ | ⟨m, rfl, rfl⟩ | ⟨m, rfl, rfl⟩)
    · rfl
    · simp
    · simp

theorem sep_prefix_iff (ha : sep ∉ a) (hb : sep ∉ b) : a ++ [sep] <+: b ++ sep :: y ↔ a = b := by
  constructor
  · rintro ⟨x, hx⟩
    rw [List.append_assoc] at hx
    exact (append_sep_inj ha hb hx).1
  · rintro rfl
    exact ⟨y, List.append_assoc a [sep] y⟩

/-- What stands before the first separator is decided by any prefix that contains one. -/
theorem sep_head_unique {p : List α} (ha : sep ∉ a) (hb : sep ∉ b)
    (hp : p ++ [sep] <+: a ++ sep :: x) (hp' : p ++ [sep] <+: b ++ sep :: y) : a = b := by
  obtain ⟨q, rest, hq, hfree⟩ :=
    List.eq_append_cons_of_mem (show sep ∈ p ++ [sep] from List.mem_append_right p List.mem_cons_self)
  have hhead : q ++ [sep] <+: p ++ [sep] := ⟨rest, by simp [hq]⟩
  have hqa := (sep_prefix_iff hfree ha).mp (hhead.trans hp)
  have hqb := (sep_prefix_iff hfree hb).mp (hhead.trans hp')
  exact hqa.symm.trans hqb

end Separator

end Base
