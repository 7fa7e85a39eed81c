import SwiftChat.Base.OrderedMap

/-! A text in pieces: each piece stands under a key, and a piece with a larger key is later text. -/
namespace Base
namespace OrderedMap
variable {K α : Type} [LinearOrder K] {m : OrderedMap K (List α)} {P : K → Prop} [DecidablePred P]
  {k : K} {xs piece : List α}

/-- The pieces whose keys have `P`, in the order of the keys. -/
def pieces (P : K → Prop) [DecidablePred P] (m : OrderedMap K (List α)) : List (K × List α) :=
  m.entries.filter (fun e => P e.1)

/-- These pieces as one text. -/
def text (P : K → Prop) [DecidablePred P] (m : OrderedMap K (List α)) : List α :=
  ((m.pieces P).map Prod.snd).flatten

theorem mem_pieces : (k, piece) ∈ m.pieces P ↔ m.get k = some piece ∧ P k := by
  rw [pieces, List.mem_filter, mem_entries, decide_eq_true_eq]

theorem pieces_sorted : (m.pieces P).Pairwise (fun a b => a.1 < b.1) := m.sorted.filter _

/-- Which pieces there are decides the list of them. -/
theorem pieces_eq {es : List (K × List α)} (hes : es.Pairwise (fun a b => a.1 < b.1))
    (h : ∀ k piece, (k, piece) ∈ es ↔ m.get k = some piece ∧ P k) : m.pieces P = es := by
  apply eq_of_mem_iff pieces_sorted hes
  rintro ⟨k, piece⟩
  rw [mem_pieces, h]

theorem pieces_congr {m' : OrderedMap K (List α)} (h : ∀ k, P k → m.get k = m'.get k) :
    m.pieces P = m'.pieces P := by
  apply pieces_eq pieces_sorted
  intro k piece
  rw [mem_pieces]
  constructor
  · rintro ⟨hget, hk⟩
    exact ⟨(h k hk).trans hget, hk⟩
  · rintro ⟨hget, hk⟩
    exact ⟨(h k hk).symm.trans hget, hk⟩

theorem text_congr {m' : OrderedMap K (List α)} (h : ∀ k, P k → m.get k = m'.get k) :
    m.text P = m'.text P := by
  rw [text, text, pieces_congr h]

/-- No key of `P` is larger. -/
def Last (P : K → Prop) (m : OrderedMap K (List α)) (k : K) : Prop :=
  ∀ k', P k' → (m.get k').isSome → k' ≤ k

/-- The pieces before the last key, and the piece under it. -/
theorem pieces_put_last (hk : P k) (hlast : m.Last P k) :
    (m.put k piece).pieces P = (m.delete k).pieces P ++ [(k, piece)] := by
  apply pieces_eq
  · refine List.pairwise_append.mpr ⟨pieces_sorted, List.pairwise_singleton _ _, ?_⟩
    rintro ⟨k', piece'⟩ hmem e he
    obtain rfl := List.mem_singleton.mp he
    obtain ⟨hget, hk'⟩ := mem_pieces.mp hmem
    obtain ⟨hne, hget⟩ := get_delete_some hget
    exact lt_of_le_of_ne (hlast k' hk' (Option.isSome_of_eq_some hget)) hne
  · intro k' piece'
    rw [List.mem_append, List.mem_singleton, mem_pieces, get_put, get_delete]
    by_cases h : k' = k
    · subst h
      simp [hk, eq_comm]
    · simp [h]

/-- Text that is added to the last piece is added to the whole. -/
theorem text_put_last (hk : P k) (hlast : m.Last P k) (xs : List α) :
    (m.put k ((m.get k).getD [] ++ xs)).text P = m.text P ++ xs := by
  have hbefore : (m.delete k).text P ++ (m.get k).getD [] = m.text P := by
    cases hget : m.get k with
    | none =>
      rw [delete_absent hget, Option.getD_none, List.append_nil]
    | some piece =>
      have hsame : m.pieces P = (m.delete k).pieces P ++ [(k, piece)] := by
        rw [← pieces_put_last hk hlast, put_same hget]
      simp [text, hsame]
  rw [← hbefore, text, pieces_put_last hk hlast]
  simp [text]

/-- Pieces that are all earlier than those that stay are taken off the front of the text. -/
theorem text_delete_first {ks : List K}
    (hfirst : ∀ k k', P k → P k' → (m.get k).isSome → (m.get k').isSome → k ∈ ks → k' ∉ ks → k < k') :
    ∃ gone, m.pieces P = gone ++ (m.write (ks.map .delete)).pieces P ∧ ∀ e ∈ gone, e.1 ∈ ks := by
  refine ⟨m.entries.filter (fun e => P e.1 ∧ e.1 ∈ ks), ?_, ?_⟩
  · apply pieces_eq
    · refine List.pairwise_append.mpr ⟨m.sorted.filter _, pieces_sorted, ?_⟩
      rintro ⟨k, piece⟩ hmem ⟨k', piece'⟩ hmem'
      simp only [List.mem_filter, mem_entries, decide_eq_true_eq] at hmem
      simp only [mem_pieces, get_write_deletes] at hmem'
      obtain ⟨hget', hk'⟩ := hmem'
      split at hget'
      · cases hget'
      · rename_i hstays
        exact hfirst k k' hmem.2.1 hk' (Option.isSome_of_eq_some hmem.1)
          (Option.isSome_of_eq_some hget') hmem.2.2 hstays
    · intro k piece
      simp only [List.mem_append, List.mem_filter, mem_entries, decide_eq_true_eq, mem_pieces,
        get_write_deletes]
      by_cases h : k ∈ ks
      · simp [h]
      · simp [h]
  · intro e he
    simp only [List.mem_filter, decide_eq_true_eq] at he
    exact he.2.2

/-- When the keys that go are the first ones, the pieces that stay are the rest. -/
theorem pieces_delete_take {ks : List K} {n : Nat}
    (h : ∀ k, P k → (k ∈ ks ↔ k ∈ ((m.pieces P).map Prod.fst).take n)) :
    (m.write (ks.map .delete)).pieces P = (m.pieces P).drop n := by
  have hnodup : (((m.pieces P).map Prod.fst).take n ++ ((m.pieces P).map Prod.fst).drop n).Nodup := by
    rw [List.take_append_drop]
    exact List.pairwise_map.mpr (pieces_sorted.imp ne_of_lt)
  apply pieces_eq (pieces_sorted.sublist (List.drop_sublist n _))
  intro k piece
  rw [get_write_deletes]
  constructor
  · intro hmem
    obtain ⟨hget, hk⟩ := mem_pieces.mp (List.mem_of_mem_drop hmem)
    have hlate : k ∈ ((m.pieces P).map Prod.fst).drop n := by
      rw [← List.map_drop]
      exact List.mem_map_of_mem hmem
    have hstays : k ∉ ks := fun hgone =>
      List.disjoint_of_nodup_append hnodup ((h k hk).mp hgone) hlate
    rw [if_neg hstays]
    exact ⟨hget, hk⟩
  · rintro ⟨hget, hk⟩
    split at hget
    · cases hget
    · rename_i hstays
      have hmem : (k, piece) ∈ m.pieces P := mem_pieces.mpr ⟨hget, hk⟩
      rw [← List.take_append_drop n (m.pieces P)] at hmem
      refine (List.mem_append.mp hmem).resolve_left fun hearly => hstays ((h k hk).mpr ?_)
      rw [← List.map_take]
      exact List.mem_map_of_mem hearly

theorem length_pieces_congr {m' : OrderedMap K (List α)}
    (h : ∀ k, P k → (m.get k).isSome = (m'.get k).isSome) :
    (m.pieces P).length = (m'.pieces P).length := by
  have hblank : ∀ l : OrderedMap K (List α),
      ((l.mapValues fun _ => ([] : List α)).pieces P).length = (l.pieces P).length := by
    intro l
    rw [pieces, mapValues, List.filter_map, List.length_map]
    rfl
  rw [← hblank m, ← hblank m']
  congr 1
  apply pieces_congr
  intro k hk
  have hsome := h k hk
  rw [get_mapValues, get_mapValues]
  cases hm : m.get k <;> cases hm' : m'.get k <;> simp_all

theorem length_pieces_put (k : K) (piece : List α) :
    ((m.put k piece).pieces P).length ≤ (m.pieces P).length + 1 := by
  have hkeys : (m.put k piece).pieces P ⊆ (k, piece) :: m.pieces P := by
    rintro ⟨k', piece'⟩ hmem
    obtain ⟨hget, hk'⟩ := mem_pieces.mp hmem
    rcases get_put_some hget with ⟨rfl, rfl⟩ | ⟨_, hold⟩
    · exact List.mem_cons_self
    · exact List.mem_cons_of_mem _ (mem_pieces.mpr ⟨hold, hk'⟩)
  exact (List.subperm_of_subset (nodup_of_keys pieces_sorted) hkeys).length_le

/-- Pieces of some size make a text of as many times this size. -/
theorem length_text_ge {n : Nat} (h : ∀ e ∈ m.pieces P, n ≤ e.2.length) :
    (m.pieces P).length * n ≤ (m.text P).length := by
  unfold text
  generalize m.pieces P = es at h ⊢
  induction es with
  | nil => simp
  | cons e es ih =>
    have hfirst := h e List.mem_cons_self
    have hrest := ih fun e' he' => h e' (List.mem_cons_of_mem _ he')
    rw [List.length_cons, List.map_cons, List.flatten_cons, List.length_append, Nat.succ_mul]
    omega

end OrderedMap
end Base
