import Mathlib.Data.List.Basic
import Mathlib.Data.List.Forall2
import Mathlib.Data.List.Nodup
import Mathlib.Order.Lattice

/-! Paging through a sorted list with a cursor that names only the key of the last item. -/
namespace Base
variable {α β : Type*} [LinearOrder β] {key : α → β} {limit : Nat} {xs : List α} {c : β}

/-- What a page may still contain: the items behind the first one with the cursor's key. -/
def afterCursor (key : α → β) (xs : List α) : Option β → List α
  | none => xs
  | some c => (xs.dropWhile (fun x => key x ≠ c)).tail

/-- The key of the last item of a page, when the page is full and items remain. -/
def nextCursor (key : α → β) (limit : Nat) (ys : List α) : Option β :=
  if limit < ys.length then ys[limit - 1]?.map key else none

/-- All pages, fetched until no cursor comes back; `none` when the fuel runs out. -/
def pages (key : α → β) (limit : Nat) (xs : List α) : Nat → Option β → Option (List (List α))
  | 0, _ => none
  | n + 1, c =>
    let ys := afterCursor key xs c
    match nextCursor key limit ys with
    | none => some [ys.take limit]
    | some c' => (pages key limit xs n (some c')).map (ys.take limit :: ·)

/-- A cut behind the first `b` items is clean when the last of them is the first with its key. -/
def CleanCut (key : α → β) (xs : List α) (b : Nat) : Prop :=
  ∀ (_ : 2 ≤ b) (_ : b ≤ xs.length), key xs[b - 2] ≠ key xs[b - 1]

theorem afterCursor_eq_drop :
    afterCursor key xs (some c) = xs.drop (xs.findIdx (fun x => key x = c) + 1) := by
  simp only [afterCursor, ← List.drop_drop, List.drop_one]
  congr 1
  rw [List.dropWhile_eq_drop_findIdx_not]
  simp

/-- The cursor finds the cut again exactly when the cut is clean. -/
theorem findIdx_eq_iff_clean {b : Nat} (hs : xs.Pairwise (fun x y => key x ≤ key y))
    (hb : 1 ≤ b) (hlen : b ≤ xs.length) :
    xs.findIdx (fun x => key x = key xs[b - 1]) = b - 1 ↔ CleanCut key xs b := by
  rw [List.findIdx_eq (by omega)]
  constructor
  · rintro ⟨_, hlt⟩ h2 _
    simpa using hlt (b - 2) (by omega)
  · intro hc
    refine ⟨by simp, ?_⟩
    intro j hj
    have hstep : key xs[j] ≤ key xs[b - 2] := by
      rcases Nat.lt_or_ge j (b - 2) with hlt | hge
      · exact List.pairwise_iff_getElem.mp hs j (b - 2) (by omega) (by omega) hlt
      · exact le_of_eq (by congr 2; omega)
    have hlast : key xs[b - 2] ≤ key xs[b - 1] :=
      List.pairwise_iff_getElem.mp hs (b - 2) (b - 1) (by omega) (by omega) (by omega)
    have hne := hc (by omega) hlen
    simpa using (lt_of_le_of_lt hstep (lt_of_le_of_ne hlast hne)).ne

theorem findIdx_le_cut {b : Nat} (hb : 1 ≤ b) (hlen : b ≤ xs.length) :
    xs.findIdx (fun x => key x = key xs[b - 1]) ≤ b - 1 := by
  by_contra h
  have hlt : b - 1 < xs.findIdx (fun x => decide (key x = key xs[b - 1])) := by omega
  simpa using List.not_of_lt_findIdx hlt

omit [LinearOrder β] in
theorem nextCursor_drop {s : Nat} (hl : 1 ≤ limit) (hs : s + limit < xs.length) :
    nextCursor key limit (xs.drop s) = some (key xs[s + limit - 1]) := by
  have hlt : limit < (xs.drop s).length := by simp; omega
  simp only [nextCursor, hlt, if_true, List.getElem?_drop]
  rw [show s + (limit - 1) = s + limit - 1 by omega, List.getElem?_eq_getElem (by omega)]
  rfl

omit [LinearOrder β] in
theorem nextCursor_none {s : Nat} (hs : xs.length ≤ s + limit) :
    nextCursor key limit (xs.drop s) = none := by
  have hlt : ¬ limit < (xs.drop s).length := by simp; omega
  exact if_neg hlt

/-- The pages fetched from a place start with the item at that place. -/
theorem pages_head {c : Option β} {s n : Nat} {ps : List (List α)} (hl : 1 ≤ limit)
    (hc : afterCursor key xs c = xs.drop s) (hs : s < xs.length)
    (h : pages key limit xs n c = some ps) : ps.flatten.head? = some xs[s] := by
  have hhead : ∀ qs : List (List α), (((xs.drop s).take limit) :: qs).flatten.head? = some xs[s] := by
    intro qs
    obtain ⟨k, rfl⟩ : ∃ k, limit = k + 1 := ⟨limit - 1, by omega⟩
    rw [List.drop_eq_getElem_cons hs]
    simp only [List.take_succ_cons, List.flatten_cons, List.cons_append, List.head?_cons]
  cases n with
  | zero => simp [pages] at h
  | succ n =>
    simp only [pages, hc] at h
    split at h
    · rw [← Option.some.inj h]
      exact hhead []
    · obtain ⟨qs, _, rfl⟩ := Option.map_eq_some_iff.mp h
      exact hhead qs

/-- The last page: nothing is left to cut. -/
theorem pages_last_iff {j : Nat} {c : Option β} (hdone : xs.length ≤ j * limit + limit)
    (hc : afterCursor key xs c = xs.drop (j * limit)) :
    (∃ n ps, pages key limit xs n c = some ps ∧ ps.flatten = xs.drop (j * limit)) ↔
      ∀ k, j < k → k * limit < xs.length → CleanCut key xs (k * limit) := by
  have hnone : nextCursor key limit (xs.drop (j * limit)) = none := nextCursor_none hdone
  constructor
  · intro _ k hk hlt
    have := Nat.mul_le_mul_right limit hk
    rw [Nat.succ_mul] at this
    omega
  · intro _
    refine ⟨1, [(xs.drop (j * limit)).take limit], by simp [pages, hc, hnone], ?_⟩
    rw [List.take_of_length_le (by rw [List.length_drop]; omega), List.flatten_singleton]

/-- A page that hands out a cursor reproduces the rest exactly when the following pages do. -/
theorem pages_more_iff {j : Nat} {c : Option β} {c' : β}
    (hc : afterCursor key xs c = xs.drop (j * limit))
    (hnext : nextCursor key limit (xs.drop (j * limit)) = some c') :
    (∃ n ps, pages key limit xs n c = some ps ∧ ps.flatten = xs.drop (j * limit)) ↔
      ∃ n ps, pages key limit xs n (some c') = some ps ∧
        ps.flatten = xs.drop ((j + 1) * limit) := by
  have hsplit : xs.drop (j * limit) =
      (xs.drop (j * limit)).take limit ++ xs.drop ((j + 1) * limit) := by
    rw [Nat.succ_mul, ← List.drop_drop, List.take_append_drop]
  constructor
  · rintro ⟨n, ps, hps, hflat⟩
    cases n with
    | zero => simp [pages] at hps
    | succ n =>
      simp only [pages, hc, hnext] at hps
      obtain ⟨qs, hqs, rfl⟩ := Option.map_eq_some_iff.mp hps
      exact ⟨n, qs, hqs, List.append_cancel_left (hflat.trans hsplit)⟩
  · rintro ⟨n, qs, hqs, hflat⟩
    refine ⟨n + 1, (xs.drop (j * limit)).take limit :: qs, ?_, ?_⟩
    · simp [pages, hc, hnext, hqs]
    · rw [List.flatten_cons, hflat, ← hsplit]

omit [LinearOrder β] in
/-- The later cuts are the next one and those behind it. -/
theorem cuts_succ_iff {j : Nat} (hmore : (j + 1) * limit < xs.length) :
    (∀ k, j < k → k * limit < xs.length → CleanCut key xs (k * limit)) ↔
      CleanCut key xs ((j + 1) * limit) ∧
        ∀ k, j + 1 < k → k * limit < xs.length → CleanCut key xs (k * limit) := by
  constructor
  · intro h
    exact ⟨h (j + 1) (by omega) hmore, fun k hk => h k (by omega)⟩
  · rintro ⟨hclean, h⟩ k hk hlt
    rcases Nat.lt_or_ge (j + 1) k with hlt' | hge
    · exact h k hlt' hlt
    · obtain rfl : k = j + 1 := by omega
      exact hclean

/-- From a place that is a multiple of the page size, the pages reproduce the rest of the list
exactly when every later cut between full pages is clean. -/
theorem pages_from_iff (hl : 1 ≤ limit) (hn : xs.Nodup)
    (hs : xs.Pairwise (fun x y => key x ≤ key y)) (d : Nat) :
    ∀ j (c : Option β), xs.length - j * limit ≤ d → afterCursor key xs c = xs.drop (j * limit) →
      ((∃ n ps, pages key limit xs n c = some ps ∧ ps.flatten = xs.drop (j * limit)) ↔
        ∀ k, j < k → k * limit < xs.length → CleanCut key xs (k * limit)) := by
  induction d with
  | zero =>
    intro j c hd hc
    exact pages_last_iff (by omega) hc
  | succ d ih =>
    intro j c hd hc
    have hsucc : (j + 1) * limit = j * limit + limit := Nat.succ_mul j limit
    rcases Nat.lt_or_ge (j * limit + limit) xs.length with hmore | hdone
    · have hcut := findIdx_eq_iff_clean (b := j * limit + limit) hs (by omega) (Nat.le_of_lt hmore)
      have hle : xs.findIdx (fun x => key x = key xs[j * limit + limit - 1]) ≤ _ :=
        findIdx_le_cut (by omega) (Nat.le_of_lt hmore)
      have hafter : afterCursor key xs (some (key xs[j * limit + limit - 1])) = _ :=
        afterCursor_eq_drop
      rw [pages_more_iff hc (nextCursor_drop hl hmore), cuts_succ_iff (hsucc ▸ hmore)]
      by_cases hclean : CleanCut key xs (j * limit + limit)
      · rw [hcut.mpr hclean, show j * limit + limit - 1 + 1 = (j + 1) * limit by omega] at hafter
        rw [ih (j + 1) _ (by omega) hafter]
        exact ⟨fun h => ⟨hsucc ▸ hclean, h⟩, fun h => h.2⟩
      · -- the cursor stops too early: an item comes twice
        refine iff_of_false ?_ (fun h => hclean (hsucc ▸ h.1))
        rintro ⟨n, qs, hqs, hflat⟩
        have hne := hcut.not.mpr hclean
        have hhead := pages_head hl hafter (by omega) hqs
        rw [hflat, hsucc, List.head?_drop, List.getElem?_eq_getElem (by omega)] at hhead
        have := (hn.getElem_inj_iff).mp (Option.some.inj hhead)
        omega
    · exact pages_last_iff hdone hc

/-- Paging with a last-key cursor ends and returns the list exactly when every cut between full
pages is clean. -/
theorem pages_iff (hl : 1 ≤ limit) (hn : xs.Nodup)
    (hs : xs.Pairwise (fun x y => key x ≤ key y)) :
    (∃ n ps, pages key limit xs n none = some ps ∧ ps.flatten = xs) ↔
      ∀ k, 0 < k → k * limit < xs.length → CleanCut key xs (k * limit) := by
  simpa using pages_from_iff hl hn hs xs.length 0 none (by omega) (by simp [afterCursor])

theorem afterCursor_sublist (c : Option β) : (afterCursor key xs c).Sublist xs := by
  cases c with
  | none => exact List.Sublist.refl xs
  | some c => exact (List.tail_sublist _).trans (List.dropWhile_sublist _)

omit [LinearOrder β] in
/-- Either everything left fits on the page, or the cursor is the key of its last item. -/
theorem nextCursor_cases (key : α → β) (hl : 1 ≤ limit) (ys : List α) :
    nextCursor key limit ys = none ∧ ys.length ≤ limit ∨
      ∃ x, ys[limit - 1]? = some x ∧ nextCursor key limit ys = some (key x) := by
  unfold nextCursor
  split
  · rename_i hlt
    have hget := List.getElem?_eq_getElem (l := ys) (i := limit - 1) (by omega)
    exact Or.inr ⟨_, hget, by rw [hget]; rfl⟩
  · rename_i hle
    exact Or.inl ⟨rfl, by omega⟩

/-- An item behind another is behind the first one with the other's key. -/
theorem mem_afterCursor_of_lt {γ : Type*} [Preorder γ] {f : α → γ} {x y : α}
    (hs : xs.Pairwise (fun a b => f a < f b)) (hx : x ∈ xs) (hy : y ∈ xs) (hlt : f x < f y) :
    y ∈ afterCursor key xs (some (key x)) := by
  rw [afterCursor]
  induction xs with
  | nil => cases hx
  | cons a as ih =>
    obtain ⟨ha, has⟩ := List.pairwise_cons.mp hs
    have hya : y ∈ as := by
      rcases List.mem_cons.mp hy with rfl | hy
      · -- nothing stands before the head of the list
        rcases List.mem_cons.mp hx with rfl | hx
        · exact absurd hlt (lt_irrefl _)
        · exact absurd hlt (lt_asymm (ha x hx))
      · exact hy
    by_cases hk : key a = key x
    · simpa [hk] using hya
    · have hxa : x ∈ as := by
        rcases List.mem_cons.mp hx with rfl | hx
        · exact absurd rfl hk
        · exact hx
      simpa [hk] using ih has hxa hya

/-! Paging with a strict cut-off: a page holds only items behind the key of the last one. -/

/-- The items behind a cut-off. -/
def behind (key : α → β) (xs : List α) : Option β → List α
  | none => xs
  | some c => xs.filter (fun x => c < key x)

/-- All pages, each behind the last key of the one before, until one is not full. -/
def cutPages (key : α → β) (limit : Nat) (xs : List α) : Nat → Option β → Option (List (List α))
  | 0, _ => none
  | n + 1, c =>
    let page := (behind key xs c).take limit
    if page.length < limit then some [page]
    else (cutPages key limit xs n (page.getLast?.map key)).map (page :: ·)

/-- No page of size `limit` ends between two items of one key. -/
def CutsApart (key : α → β) (limit : Nat) (xs : List α) : Prop :=
  ∀ k x y, 0 < k → xs[k * limit - 1]? = some x → xs[k * limit]? = some y → key x ≠ key y

/-- A later cut-off can be applied to what an earlier one left. -/
theorem behind_behind {c : Option β} {x : α} (hx : x ∈ behind key xs c) :
    behind key xs (some (key x)) = behind key (behind key xs c) (some (key x)) := by
  cases c with
  | none => rfl
  | some c =>
    have hc : c < key x := by simpa using (List.mem_filter.mp hx).2
    simp only [behind, List.filter_filter]
    apply List.filter_congr
    intro y _
    by_cases hy : key x < key y
    · simp [hy, hc.trans hy]
    · simp [hy]

theorem behind_pairwise {c : Option β} (hs : xs.Pairwise (fun x y => key x ≤ key y)) :
    (behind key xs c).Pairwise (fun x y => key x ≤ key y) := by
  cases c with
  | none => exact hs
  | some c => exact hs.filter _

/-- Behind the last item of a full page nothing of that page is left. -/
theorem behind_last {x : α} (hs : xs.Pairwise (fun x y => key x ≤ key y))
    (hx : (xs.take limit).getLast? = some x) :
    behind key xs (some (key x)) = behind key (xs.drop limit) (some (key x)) := by
  conv_lhs => rw [← List.take_append_drop limit xs]
  simp only [behind, List.filter_append]
  have hnone : (xs.take limit).filter (fun y => key x < key y) = [] := by
    rw [List.filter_eq_nil_iff]
    intro y hy
    have hpair := hs.sublist (List.take_sublist limit xs)
    obtain ⟨ys, hys⟩ := List.getLast?_eq_some_iff.mp hx
    rw [hys, List.mem_append, List.mem_singleton] at hy
    rw [hys] at hpair
    rcases hy with hy | rfl
    · simpa using (List.pairwise_append.mp hpair).2.2 y hy x List.mem_cons_self
    · simp
  rw [hnone, List.nil_append]

/-- Nothing is lost behind the last item of a page when the next item has another key. -/
theorem behind_drop_iff {x : α} (hs : xs.Pairwise (fun x y => key x ≤ key y))
    (hx : xs[limit - 1]? = some x) (hl : 1 ≤ limit) :
    behind key (xs.drop limit) (some (key x)) = xs.drop limit ↔
      ∀ y, xs[limit]? = some y → key x ≠ key y := by
  simp only [behind, List.filter_eq_self]
  constructor
  · intro h y hy he
    have hmem : y ∈ xs.drop limit := by
      refine List.mem_of_getElem? (i := 0) ?_
      rw [List.getElem?_drop]
      exact hy
    have hlt := h y hmem
    simp [he] at hlt
  · intro h y hy
    obtain ⟨i, hi⟩ := List.mem_iff_getElem?.mp hy
    rw [List.getElem?_drop] at hi
    obtain ⟨hlen, rfl⟩ := List.getElem?_eq_some_iff.mp hi
    obtain ⟨hlen', rfl⟩ := List.getElem?_eq_some_iff.mp hx
    have hpair := List.pairwise_iff_getElem.mp hs
    have hnext : key xs[limit - 1] ≤ key (xs[limit]) := hpair _ _ hlen' (by omega) (by omega)
    have hne := h (xs[limit]) (List.getElem?_eq_getElem (by omega))
    have hlast : key (xs[limit]) ≤ key (xs[limit + i]) := by
      rcases Nat.eq_zero_or_pos i with rfl | hpos
      · exact le_rfl
      · exact hpair _ _ (by omega) hlen (by omega)
    simpa using lt_of_lt_of_le (lt_of_le_of_ne hnext hne) hlast

omit [LinearOrder β] in
/-- The cuts of a list are the first one and those of what lies behind it. -/
theorem cutsApart_drop_iff (hl : 1 ≤ limit) {x : α} (hx : xs[limit - 1]? = some x) :
    CutsApart key limit xs ↔
      (∀ y, xs[limit]? = some y → key x ≠ key y) ∧ CutsApart key limit (xs.drop limit) := by
  have hshift : ∀ k, 0 < k → limit + (k * limit - 1) = (k + 1) * limit - 1 := by
    intro k hk
    have := Nat.le_mul_of_pos_left limit hk
    rw [Nat.succ_mul]
    omega
  constructor
  · intro h
    refine ⟨?_, ?_⟩
    · intro y hy
      exact h 1 x y Nat.one_pos (by rwa [Nat.one_mul]) (by rwa [Nat.one_mul])
    · intro k a b hk ha hb
      rw [List.getElem?_drop] at ha hb
      refine h (k + 1) a b (Nat.succ_pos k) ?_ ?_
      · rwa [← hshift k hk]
      · rwa [Nat.succ_mul, Nat.add_comm]
  · rintro ⟨hfirst, hrest⟩ k a b hk ha hb
    rcases Nat.lt_or_ge 1 k with hk1 | hk1
    · obtain ⟨j, rfl⟩ : ∃ j, k = j + 1 := ⟨k - 1, by omega⟩
      refine hrest j a b (by omega) ?_ ?_
      · rwa [List.getElem?_drop, hshift j (by omega)]
      · rwa [List.getElem?_drop, Nat.add_comm, ← Nat.succ_mul]
    · obtain rfl : k = 1 := by omega
      rw [Nat.one_mul] at ha hb
      rw [hx] at ha
      rw [← Option.some.inj ha]
      exact hfirst b hb

/-- What the pages from a cut-off on amount to: they come to an end, keep the order, and reproduce
the rest of the list exactly when no page ends between two items of one key. -/
def PagesRight (key : α → β) (limit : Nat) (xs : List α) (c : Option β) : Prop :=
  (∃ n ps, cutPages key limit xs n c = some ps) ∧
    ∀ n ps, cutPages key limit xs n c = some ps → ps.flatten.Sublist (behind key xs c) ∧
      (ps.flatten = behind key xs c ↔ CutsApart key limit (behind key xs c))

/-- A page that is not full is the last one, and nothing is left to cut. -/
theorem pagesRight_short {c : Option β} (hshort : (behind key xs c).length < limit) :
    PagesRight key limit xs c := by
  have hone : ∀ n, cutPages key limit xs (n + 1) c = some [behind key xs c] := by
    intro n
    simp only [cutPages, List.take_of_length_le hshort.le, hshort, if_true]
  have hcuts : CutsApart key limit (behind key xs c) := by
    intro k x y hk _ hy
    have := Nat.le_mul_of_pos_left limit hk
    rw [List.getElem?_eq_none (by omega)] at hy
    cases hy
  refine ⟨⟨1, _, hone 0⟩, ?_⟩
  intro n ps hps
  cases n with
  | zero => cases hps
  | succ n =>
    obtain rfl := Option.some.inj ((hone n).symm.trans hps)
    simp [hcuts]

/-- Behind a full page the search goes on in the rest of the list. -/
theorem cutPages_full {c : Option β} (hl : 1 ≤ limit)
    (hs : xs.Pairwise (fun x y => key x ≤ key y)) (hfull : limit ≤ (behind key xs c).length) :
    ∃ x, (behind key xs c)[limit - 1]? = some x ∧
      behind key xs (some (key x)) = behind key ((behind key xs c).drop limit) (some (key x)) ∧
      ∀ n, cutPages key limit xs (n + 1) c =
        (cutPages key limit xs n (some (key x))).map ((behind key xs c).take limit :: ·) := by
  have hlen : ((behind key xs c).take limit).length = limit := by simp [hfull]
  have hget : (behind key xs c)[limit - 1]? = some ((behind key xs c)[limit - 1]) :=
    List.getElem?_eq_getElem (by omega)
  have hlast : ((behind key xs c).take limit).getLast? = some ((behind key xs c)[limit - 1]) := by
    rw [List.getLast?_eq_getElem?, hlen, List.getElem?_take_of_lt (by omega), hget]
  refine ⟨_, hget, ?_, ?_⟩
  · rw [behind_behind (List.mem_of_getElem? hget), behind_last (behind_pairwise hs) hlast]
  · intro n
    simp only [cutPages, hlen, lt_irrefl, if_false, hlast, Option.map_some]

/-- A full page is right when the pages behind it are. -/
theorem pagesRight_full {c : Option β} {x : α} (hl : 1 ≤ limit)
    (hs : xs.Pairwise (fun x y => key x ≤ key y)) (hx : (behind key xs c)[limit - 1]? = some x)
    (hnext : behind key xs (some (key x)) =
      behind key ((behind key xs c).drop limit) (some (key x)))
    (hstep : ∀ n, cutPages key limit xs (n + 1) c =
      (cutPages key limit xs n (some (key x))).map ((behind key xs c).take limit :: ·))
    (h : PagesRight key limit xs (some (key x))) : PagesRight key limit xs c := by
  obtain ⟨⟨n, qs, hqs⟩, hall⟩ := h
  refine ⟨⟨n + 1, _, by rw [hstep, hqs]; rfl⟩, ?_⟩
  intro n ps hps
  cases n with
  | zero => cases hps
  | succ n =>
    rw [hstep] at hps
    obtain ⟨qs, hqs, rfl⟩ := Option.map_eq_some_iff.mp hps
    obtain ⟨hqsub, hqiff⟩ := hall n qs hqs
    have hsub : (behind key xs (some (key x))).Sublist ((behind key xs c).drop limit) := by
      rw [hnext]
      exact List.filter_sublist
    have hsplit := List.take_append_drop limit (behind key xs c)
    have hcut := behind_drop_iff (behind_pairwise hs) hx hl
    rw [List.flatten_cons, cutsApart_drop_iff hl hx, ← hcut, ← hnext]
    refine ⟨?_, ?_⟩
    · have happ := (List.Sublist.refl ((behind key xs c).take limit)).append (hqsub.trans hsub)
      rwa [hsplit] at happ
    · constructor
      · intro heq
        have hrest : qs.flatten = (behind key xs c).drop limit :=
          List.append_cancel_left (heq.trans hsplit.symm)
        have hsame : behind key xs (some (key x)) = (behind key xs c).drop limit :=
          hsub.antisymm (hrest ▸ hqsub)
        exact ⟨hsame, hsame ▸ hqiff.mp (hrest.trans hsame.symm)⟩
      · rintro ⟨hsame, hcuts⟩
        rw [hqiff.mpr (hsame ▸ hcuts), hsame, hsplit]

theorem pagesRight_from (hl : 1 ≤ limit) (hs : xs.Pairwise (fun x y => key x ≤ key y)) (d : Nat) :
    ∀ c : Option β, (behind key xs c).length ≤ d → PagesRight key limit xs c := by
  induction d with
  | zero =>
    intro c hd
    exact pagesRight_short (by omega)
  | succ d ih =>
    intro c hd
    rcases Nat.lt_or_ge (behind key xs c).length limit with hshort | hfull
    · exact pagesRight_short hshort
    · obtain ⟨x, hx, hnext, hstep⟩ := cutPages_full hl hs hfull
      refine pagesRight_full hl hs hx hnext hstep (ih _ ?_)
      have hle : (behind key xs (some (key x))).length ≤ ((behind key xs c).drop limit).length := by
        rw [hnext]
        exact List.length_filter_le _ _
      rw [List.length_drop] at hle
      omega

/-- Paging with a strict cut-off at the last key always ends with a sublist, which is the whole
list exactly when no page ends between two items of one key. -/
theorem pagesRight (hl : 1 ≤ limit) (hs : xs.Pairwise (fun x y => key x ≤ key y)) :
    PagesRight key limit xs none :=
  pagesRight_from hl hs xs.length none le_rfl

omit [LinearOrder β] in
/-- Where every element has a partner that a lookup finds, the lookups give the partners. -/
theorem forall₂_filterMap {R : α → β → Prop} {f : α → Option β} {l : List α}
    (hf : ∀ a b, R a b → f a = some b) (h : ∀ a ∈ l, ∃ b, R a b) :
    List.Forall₂ R l (l.filterMap f) := by
  induction l with
  | nil => exact List.Forall₂.nil
  | cons a l ih =>
    obtain ⟨b, hb⟩ := h a List.mem_cons_self
    rw [List.filterMap_cons_some (hf a b hb)]
    exact List.Forall₂.cons hb (ih (fun a' h' => h a' (List.mem_cons_of_mem _ h')))

end Base
