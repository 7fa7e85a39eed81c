import SwiftChat.Base.Bytes
import Mathlib.Data.List.Pairwise
import Mathlib.Data.List.Sort

/-! An ordered key-value map: lookups, writes, batches, and iterators over key ranges. -/
namespace Base

/-- Entries in strictly increasing key order. -/
structure OrderedMap (K V : Type) [LinearOrder K] where
  entries : List (K × V)
  sorted : entries.Pairwise (fun a b => a.1 < b.1)

namespace OrderedMap
variable {K V : Type} [LinearOrder K] {m m' : OrderedMap K V} {k k' : K} {v v' : V}

def empty : OrderedMap K V := ⟨[], List.Pairwise.nil⟩

def get (m : OrderedMap K V) (k : K) : Option V :=
  (m.entries.find? (fun e => e.1 = k)).map Prod.snd

def insertEntry (k : K) (v : V) : List (K × V) → List (K × V)
  | [] => [(k, v)]
  | e :: es =>
    if k < e.1 then (k, v) :: e :: es
    else if e.1 < k then e :: insertEntry k v es
    else (k, v) :: es

theorem mem_insertEntry {es : List (K × V)} {e : K × V}
    (h : es.Pairwise (fun a b => a.1 < b.1)) :
    e ∈ insertEntry k v es ↔ e = (k, v) ∨ (e ∈ es ∧ e.1 ≠ k) := by
  induction es with
  | nil => simp [insertEntry]
  | cons a es ih =>
    have hes := (List.pairwise_cons.mp h).2
    have ha := (List.pairwise_cons.mp h).1
    simp only [insertEntry]
    split
    · rename_i hk
      have hne : ∀ e ∈ a :: es, e.1 ≠ k := by
        intro e he
        rcases List.mem_cons.mp he with rfl | he
        · exact hk.ne'
        · exact (hk.trans (ha e he)).ne'
      constructor
      · intro he
        rcases List.mem_cons.mp he with rfl | he
        · exact Or.inl rfl
        · exact Or.inr ⟨he, hne e he⟩
      · rintro (rfl | ⟨he, _⟩)
        · exact List.mem_cons_self
        · exact List.mem_cons_of_mem _ he
    · split
      · rename_i hk hlt
        rw [List.mem_cons, ih hes, List.mem_cons]
        constructor
        · rintro (rfl | h | ⟨h, hne⟩)
          · exact Or.inr ⟨Or.inl rfl, hlt.ne⟩
          · exact Or.inl h
          · exact Or.inr ⟨Or.inr h, hne⟩
        · rintro (h | ⟨rfl | h, hne⟩)
          · exact Or.inr (Or.inl h)
          · exact Or.inl rfl
          · exact Or.inr (Or.inr ⟨h, hne⟩)
      · rename_i hk hlt
        have hak : a.1 = k := le_antisymm (not_lt.mp hk) (not_lt.mp hlt)
        rw [List.mem_cons, List.mem_cons]
        constructor
        · rintro (h | h)
          · exact Or.inl h
          · exact Or.inr ⟨Or.inr h, (hak ▸ ha e h).ne'⟩
        · rintro (h | ⟨rfl | h, hne⟩)
          · exact Or.inl h
          · exact absurd hak hne
          · exact Or.inr h

theorem pairwise_insertEntry {es : List (K × V)} (h : es.Pairwise (fun a b => a.1 < b.1)) :
    (insertEntry k v es).Pairwise (fun a b => a.1 < b.1) := by
  induction es with
  | nil => simp [insertEntry]
  | cons a es ih =>
    have hes := (List.pairwise_cons.mp h).2
    have ha := (List.pairwise_cons.mp h).1
    simp only [insertEntry]
    split
    · rename_i hk
      refine List.pairwise_cons.mpr ⟨?_, h⟩
      intro e he
      rcases List.mem_cons.mp he with rfl | he
      · exact hk
      · exact hk.trans (ha e he)
    · split
      · rename_i hk hlt
        refine List.pairwise_cons.mpr ⟨?_, ih hes⟩
        intro e he
        rcases (mem_insertEntry hes).mp he with rfl | ⟨he, _⟩
        · exact hlt
        · exact ha e he
      · rename_i hk hlt
        have hak : a.1 = k := le_antisymm (not_lt.mp hk) (not_lt.mp hlt)
        exact List.pairwise_cons.mpr ⟨fun e he => hak ▸ ha e he, hes⟩

def put (m : OrderedMap K V) (k : K) (v : V) : OrderedMap K V :=
  ⟨insertEntry k v m.entries, pairwise_insertEntry m.sorted⟩

def delete (m : OrderedMap K V) (k : K) : OrderedMap K V :=
  ⟨m.entries.filter (fun e => e.1 ≠ k), m.sorted.filter _⟩

/-- One operation of an atomic batch. -/
inductive BatchOp (K V : Type) where
  | put (k : K) (v : V)
  | delete (k : K)

def BatchOp.key : BatchOp K V → K
  | .put k _ => k
  | .delete k => k

/-- What the key holds afterwards. -/
def BatchOp.value : BatchOp K V → Option V
  | .put _ v => some v
  | .delete _ => none

def apply (m : OrderedMap K V) : BatchOp K V → OrderedMap K V
  | .put k v => m.put k v
  | .delete k => m.delete k

/-- The effect of a batch, in the order its operations were added. -/
def write (m : OrderedMap K V) (ops : List (BatchOp K V)) : OrderedMap K V :=
  ops.foldl apply m

/-- What an iterator placed by `Seek` still has to visit. -/
def seek (m : OrderedMap K V) (k : K) : List (K × V) :=
  m.entries.dropWhile (fun e => e.1 < k)

theorem dropWhile_of_not_lt {es : List (K × V)} (h : ∀ e ∈ es, ¬ e.1 < k) :
    es.dropWhile (fun e => e.1 < k) = es := by
  cases es with
  | nil => rfl
  | cons e es => simp [h e List.mem_cons_self]

theorem eq_of_key_eq {e e' : K × V} (he : e ∈ m.entries) (he' : e' ∈ m.entries)
    (h : e.1 = e'.1) : e = e' := by
  have hsym : Std.Symm fun a b : K × V => a.1 = b.1 → a = b := ⟨fun _ _ h he => (h he.symm).symm⟩
  have hp := m.sorted.imp (S := fun a b => a.1 = b.1 → a = b) (fun h he => absurd he h.ne)
  exact hp.forall_of_forall (fun _ _ _ => rfl) he he' h

theorem mem_entries : (k, v) ∈ m.entries ↔ m.get k = some v := by
  constructor
  · intro h
    unfold get
    cases hf : m.entries.find? (fun e => e.1 = k) with
    | none => simpa using List.find?_eq_none.mp hf _ h
    | some e =>
      have hk : e.1 = k := by simpa using List.find?_some hf
      simp [eq_of_key_eq (List.mem_of_find?_eq_some hf) h hk]
  · intro h
    obtain ⟨e, hf, rfl⟩ := Option.map_eq_some_iff.mp h
    have hk : e.1 = k := by simpa using List.find?_some hf
    exact hk ▸ List.mem_of_find?_eq_some hf

section
variable {X : Type*} {key : X → K} {xs ys : List X}

theorem nodup_of_keys (h : xs.Pairwise (fun a b => key a < key b)) : xs.Nodup := by
  refine h.imp ?_
  intro a b hlt he
  exact hlt.ne (congrArg key he)

/-- A list in key order is determined by its members. -/
theorem eq_of_mem_iff (hx : xs.Pairwise (fun a b => key a < key b))
    (hy : ys.Pairwise (fun a b => key a < key b)) (h : ∀ e, e ∈ xs ↔ e ∈ ys) : xs = ys := by
  have hperm := (List.perm_ext_iff_of_nodup (nodup_of_keys hx) (nodup_of_keys hy)).mpr h
  exact hperm.eq_of_pairwise (fun a b _ _ hab hba => absurd hab (not_lt_of_gt hba)) hx hy

end

/-- Two maps with the same lookups are equal. -/
theorem ext_get (h : ∀ k, m.get k = m'.get k) : m = m' := by
  have hlist : m.entries = m'.entries := by
    apply eq_of_mem_iff m.sorted m'.sorted
    rintro ⟨k, v⟩
    rw [mem_entries, mem_entries, h k]
  cases m
  cases m'
  simpa using hlist

/-- Maps with the same keys list them in the same order. -/
theorem keys_eq {V' : Type} {n : OrderedMap K V'} (h : ∀ k, (m.get k).isSome = (n.get k).isSome) :
    m.entries.map Prod.fst = n.entries.map Prod.fst := by
  have hkeys : ∀ {W : Type} (l : OrderedMap K W),
      (l.entries.map (fun e => (e.1, ()))).Pairwise (fun a b => a.1 < b.1) := by
    intro W l
    exact List.pairwise_map.mpr l.sorted
  have hmem : ∀ {W : Type} (l : OrderedMap K W) (k : K),
      (k, ()) ∈ l.entries.map (fun e => (e.1, ())) ↔ (l.get k).isSome := by
    intro W l k
    rw [Option.isSome_iff_exists]
    constructor
    · intro hk
      obtain ⟨e, he, hek⟩ := List.mem_map.mp hk
      obtain ⟨rfl, _⟩ := Prod.mk.inj hek
      exact ⟨e.2, mem_entries.mp he⟩
    · rintro ⟨v, hv⟩
      exact List.mem_map.mpr ⟨(k, v), mem_entries.mpr hv, rfl⟩
  have hsame : m.entries.map (fun e => (e.1, ())) = n.entries.map (fun e => (e.1, ())) := by
    apply eq_of_mem_iff (hkeys m) (hkeys n)
    rintro ⟨k, _⟩
    rw [hmem m, hmem n, h k]
  have hfst := congrArg (List.map Prod.fst) hsame
  rwa [List.map_map, List.map_map] at hfst

/-- So their iterators stand before the same keys. -/
theorem seek_keys {V' : Type} {n : OrderedMap K V'} (h : ∀ k, (m.get k).isSome = (n.get k).isSome)
    (k : K) : (m.seek k).map Prod.fst = (n.seek k).map Prod.fst := by
  have hseek : ∀ {W : Type} (l : OrderedMap K W),
      (l.seek k).map Prod.fst = (l.entries.map Prod.fst).dropWhile (· < k) := by
    intro W l
    rw [List.dropWhile_map]
    rfl
  rw [hseek m, hseek n, keys_eq h]

/-- Every value is replaced, and the keys stay. -/
def mapValues {V' : Type} (f : V → V') (m : OrderedMap K V) : OrderedMap K V' :=
  ⟨m.entries.map fun e => (e.1, f e.2), List.pairwise_map.mpr m.sorted⟩

theorem get_mapValues {V' : Type} {f : V → V'} : (m.mapValues f).get k = (m.get k).map f := by
  simp only [get, mapValues, List.find?_map, Option.map_map]
  rfl

@[simp] theorem get_empty : (empty : OrderedMap K V).get k = none := rfl

theorem get_put : (m.put k v).get k' = if k' = k then some v else m.get k' := by
  ext w
  rw [← mem_entries]
  change (k', w) ∈ insertEntry k v m.entries ↔ _
  rw [mem_insertEntry m.sorted]
  by_cases h : k' = k
  · subst h; simp [eq_comm]
  · simp [h, mem_entries]

@[simp] theorem get_put_self : (m.put k v).get k = some v := by simp [get_put]

theorem get_put_ne (h : k' ≠ k) : (m.put k v).get k' = m.get k' := by simp [get_put, h]

theorem get_delete : (m.delete k).get k' = if k' = k then none else m.get k' := by
  ext w
  rw [← mem_entries]
  by_cases h : k' = k
  · simp [delete, h]
  · simp [delete, h, mem_entries]

theorem put_same (h : m.get k = some v) : m.put k v = m := by
  apply ext_get
  intro i
  rw [get_put]
  split
  · rename_i hi
    rw [hi, h]
  · rfl

theorem mapValues_put {V' : Type} {f : V → V'} :
    (m.put k v).mapValues f = (m.mapValues f).put k (f v) := by
  apply ext_get
  intro i
  rw [get_mapValues, get_put, get_put, get_mapValues]
  split <;> rfl

@[simp] theorem get_delete_self : (m.delete k).get k = none := by simp [get_delete]

/-- What is found after a put is the new entry or an old one under another key. -/
theorem get_put_some (h : (m.put k v).get k' = some v') :
    (k' = k ∧ v = v') ∨ (k' ≠ k ∧ m.get k' = some v') := by
  rw [get_put] at h
  split at h
  · exact Or.inl ⟨‹_›, Option.some.inj h⟩
  · exact Or.inr ⟨‹_›, h⟩

theorem get_delete_some (h : (m.delete k).get k' = some v) : k' ≠ k ∧ m.get k' = some v := by
  rw [get_delete] at h
  split at h
  · cases h
  · exact ⟨‹_›, h⟩

theorem get_delete_ne (h : k' ≠ k) : (m.delete k).get k' = m.get k' := by
  simp [get_delete, h]

theorem mapValues_delete {V' : Type} {f : V → V'} :
    (m.delete k).mapValues f = (m.mapValues f).delete k := by
  apply ext_get
  intro i
  rw [get_mapValues, get_delete, get_delete, get_mapValues]
  split <;> rfl

theorem delete_absent (h : m.get k = none) : m.delete k = m := by
  apply ext_get
  intro i
  rw [get_delete]
  split
  · rename_i hi
    rw [hi, h]
  · rfl

section
variable {σ α : Type*} {visit : σ → K × V → σ}

/-- A loop over the entries sets the part of its state that one key decides to what the map
holds under that key. -/
theorem foldl_entries (part : σ → α) (f : α → V → α)
    (hpart : ∀ s e, part (visit s e) = if e.1 = k then f (part s) e.2 else part s) (s : σ) :
    part (m.entries.foldl visit s) = (m.get k).elim (part s) (f (part s)) := by
  have hskip : ∀ (es : List (K × V)) (s : σ), (∀ e ∈ es, e.1 ≠ k) →
      part (es.foldl visit s) = part s := by
    intro es s h
    induction es generalizing s with
    | nil => rfl
    | cons e es ih =>
      rw [List.foldl_cons, ih _ fun d hd => h d (List.mem_cons_of_mem _ hd), hpart,
        if_neg (h e List.mem_cons_self)]
  obtain ⟨entries, hs⟩ := m
  simp only [get]
  induction entries generalizing s with
  | nil => rfl
  | cons e es ih =>
    obtain ⟨he, hes⟩ := List.pairwise_cons.mp hs
    rw [List.foldl_cons]
    by_cases hek : e.1 = k
    · subst hek
      rw [hskip _ _ fun d hd => (he d hd).ne']
      simp [hpart]
    · rw [ih _ hes, hpart, if_neg hek]
      simp [hek]

end

/-- Changes under different keys can be made in either order. -/
theorem delete_put {k k' : K} {v : V} (h : k ≠ k') (m : OrderedMap K V) :
    (m.put k v).delete k' = (m.delete k').put k v := by
  apply ext_get
  intro i
  by_cases hi : i = k'
  · subst hi
    rw [get_delete_self, get_put_ne h.symm, get_delete_self]
  · rw [get_delete_ne hi]
    by_cases hk : i = k
    · subst hk
      rw [get_put_self, get_put_self]
    · rw [get_put_ne hk, get_put_ne hk, get_delete_ne hi]

theorem put_delete : (m.delete k).put k v = m.put k v := by
  apply ext_get
  intro i
  rw [get_put, get_put]
  split
  · rfl
  · rename_i hi
    rw [get_delete_ne hi]

theorem put_put {v v' : V} : (m.put k v).put k v' = m.put k v' := by
  apply ext_get
  intro k'
  simp only [get_put]
  split <;> rfl

/-- The entries under one key. -/
theorem filter_entries (m : OrderedMap K V) (k : K) :
    m.entries.filter (fun e => e.1 = k) = (m.get k).toList.map (fun v => (k, v)) := by
  have hlist : ∀ es : List (K × V), es.Pairwise (fun a b => a.1 < b.1) →
      es.filter (fun e => e.1 = k) =
        ((es.find? (fun e => e.1 = k)).map Prod.snd).toList.map (fun v => (k, v)) := by
    intro es hs
    induction es with
    | nil => rfl
    | cons e es ih =>
      obtain ⟨hlt, hs⟩ := List.pairwise_cons.mp hs
      by_cases he : e.1 = k
      · have hrest : es.filter (fun e => e.1 = k) = [] := by
          rw [List.filter_eq_nil_iff]
          intro e' he' hk
          have hlt' := hlt e' he'
          rw [he, show e'.1 = k by simpa using hk] at hlt'
          exact lt_irrefl k hlt'
        obtain ⟨key, v⟩ := e
        subst he
        simp [hrest]
      · simp [he, ih hs]
  exact hlist m.entries m.sorted

/-- The keys after a list of puts of one value. -/
theorem isSome_get_foldl_put (ks : List K) (m : OrderedMap K V) :
    ((ks.foldl (fun m k => m.put k v) m).get k').isSome ↔ (m.get k').isSome ∨ k' ∈ ks := by
  induction ks generalizing m with
  | nil => simp
  | cons k ks ih =>
    rw [List.foldl_cons, ih, get_put, List.mem_cons]
    by_cases h : k' = k
    · simp [h]
    · simp [h]

/-- A key put where there was none is gone after its deletion. -/
theorem delete_put_self (h : m.get k = none) : (m.put k v).delete k = m := by
  apply ext_get
  intro k'
  rw [get_delete]
  split
  · rename_i he
    rw [he, h]
  · rename_i hne
    exact get_put_ne hne

theorem put_comm (h : k ≠ k') : (m.put k v).put k' v' = (m.put k' v').put k v := by
  apply ext_get
  intro i
  rw [get_put, get_put, get_put, get_put]
  by_cases hi : i = k
  · rw [if_pos hi, if_neg (hi ▸ h), if_pos hi]
  · rw [if_neg hi, if_neg hi]

@[simp] theorem write_nil : m.write [] = m := rfl

@[simp] theorem write_cons (op : BatchOp K V) (ops : List (BatchOp K V)) :
    m.write (op :: ops) = (m.apply op).write ops := rfl

@[simp] theorem apply_put : m.apply (.put k v) = m.put k v := rfl

@[simp] theorem apply_delete : m.apply (.delete k) = m.delete k := rfl

theorem get_write_deletes (ks : List K) :
    (m.write (ks.map .delete)).get k = if k ∈ ks then none else m.get k := by
  induction ks generalizing m with
  | nil => simp
  | cons a ks ih =>
    rw [List.map_cons, write_cons, apply_delete, ih, get_delete]
    by_cases ha : k = a <;> by_cases hk : k ∈ ks <;> simp [ha, hk]

section
variable {X : Type*} {key : X → K} {val : X → V} {xs : List X}

theorem get_write_puts_ne (h : ∀ x ∈ xs, key x ≠ k) :
    (m.write (xs.map fun x => .put (key x) (val x))).get k = m.get k := by
  induction xs generalizing m with
  | nil => rfl
  | cons y xs ih =>
    rw [List.map_cons, write_cons, apply_put, ih (fun x hx => h x (List.mem_cons_of_mem _ hx)),
      get_put_ne (h y List.mem_cons_self).symm]

/-- A batch whose puts agree on what goes under a key. -/
theorem get_write_puts (hk : ∃ x ∈ xs, key x = k) (hsame : ∀ x ∈ xs, key x = k → val x = v) :
    (m.write (xs.map fun x => .put (key x) (val x))).get k = some v := by
  induction xs generalizing m with
  | nil =>
    obtain ⟨x, hx, _⟩ := hk
    cases hx
  | cons y xs ih =>
    rw [List.map_cons, write_cons, apply_put]
    by_cases hlater : ∃ x ∈ xs, key x = k
    · exact ih hlater (fun x hx => hsame x (List.mem_cons_of_mem _ hx))
    · have hy : key y = k := by
        obtain ⟨x, hx, hkey⟩ := hk
        rcases List.mem_cons.mp hx with rfl | hx
        · exact hkey
        · exact absurd ⟨x, hx, hkey⟩ hlater
      rw [get_write_puts_ne (fun x hx hkey => hlater ⟨x, hx, hkey⟩), hy, get_put_self,
        hsame y List.mem_cons_self hy]

end

end OrderedMap

namespace OrderedMap
variable {α V : Type} [LinearOrder α] {m : OrderedMap (List α) V} {p k : List α} {v : V}

/-- The entries a loop from `Seek(p)` visits before a key stops starting with `p`. -/
def scan (m : OrderedMap (List α) V) (p : List α) : List (List α × V) :=
  (m.seek p).takeWhile (fun e => p.isPrefixOf e.1)

/-- A seek-and-break loop visits exactly the keys under the prefix. -/
theorem scan_eq_filter : m.scan p = m.entries.filter (fun e => p.isPrefixOf e.1) := by
  obtain ⟨entries, hs⟩ := m
  change (entries.dropWhile _).takeWhile _ = entries.filter _
  induction entries with
  | nil => rfl
  | cons a es ih =>
    obtain ⟨ha, hes⟩ := List.pairwise_cons.mp hs
    by_cases hlt : a.1 < p
    · have hnp : ¬ p <+: a.1 := fun h => absurd (le_of_isPrefix h) (not_le_of_gt hlt)
      simpa [hlt, hnp] using ih hes
    · simp only [List.dropWhile_cons, hlt, decide_false, Bool.false_eq_true, if_false]
      by_cases hp : p <+: a.1
      · have hall : ∀ e ∈ es, ¬ e.1 < p := fun e he h => hlt ((ha e he).trans h)
        have hrest := ih hes
        rw [dropWhile_of_not_lt hall] at hrest
        simp [hp, hrest]
      · have hnone : ∀ e ∈ es, ¬ p <+: e.1 := fun e he h =>
          hp (prefix_of_between h (not_lt.mp hlt) (ha e he).le)
        simp [hp]
        simpa using fun a b h => hnone (a, b) h

theorem mem_scan : (k, v) ∈ m.scan p ↔ m.get k = some v ∧ p <+: k := by
  simp [scan_eq_filter, mem_entries]

theorem scan_pairwise : (m.scan p).Pairwise (fun a b => a.1 < b.1) := by
  rw [scan_eq_filter]
  exact m.sorted.filter _

/-- What follows the prefix in the keys of a scan that are longer than it. -/
theorem mem_scan_tails {t : List α} :
    t ∈ ((m.scan p).filter (fun e => p.length < e.1.length)).map (fun e => e.1.drop p.length) ↔
      t ≠ [] ∧ (m.get (p ++ t)).isSome := by
  constructor
  · intro h
    obtain ⟨⟨k, v⟩, he, rfl⟩ := List.mem_map.mp h
    obtain ⟨hs, hlen⟩ := List.mem_filter.mp he
    obtain ⟨hget, t, rfl⟩ := mem_scan.mp hs
    rw [List.drop_left]
    refine ⟨?_, by rw [hget]; rfl⟩
    rintro rfl
    simp at hlen
  · rintro ⟨hne, h⟩
    obtain ⟨v, hv⟩ := Option.isSome_iff_exists.mp h
    refine List.mem_map.mpr ⟨(p ++ t, v), List.mem_filter.mpr ⟨?_, ?_⟩, List.drop_left⟩
    · exact mem_scan.mpr ⟨hv, List.prefix_append _ _⟩
    · simp [List.length_pos_iff.mpr hne]

theorem scan_tails_nodup :
    (((m.scan p).filter (fun e => p.length < e.1.length)).map
      (fun e => e.1.drop p.length)).Nodup := by
  refine List.pairwise_map.mpr ((scan_pairwise.filter _).imp_of_mem ?_)
  intro d e hd he hlt hsame
  obtain ⟨_, x, hx⟩ := mem_scan.mp (show (d.1, d.2) ∈ _ from (List.mem_filter.mp hd).1)
  obtain ⟨_, y, hy⟩ := mem_scan.mp (show (e.1, e.2) ∈ _ from (List.mem_filter.mp he).1)
  rw [← hx, ← hy, List.drop_left, List.drop_left] at hsame
  rw [← hx, ← hy, hsame] at hlt
  exact lt_irrefl _ hlt

/-- Maps with the same lookups under a prefix show the same entries there. -/
theorem scan_congr {m' : OrderedMap (List α) V} (h : ∀ k, p <+: k → m.get k = m'.get k) :
    m.scan p = m'.scan p := by
  apply eq_of_mem_iff scan_pairwise scan_pairwise
  rintro ⟨k, v⟩
  rw [mem_scan, mem_scan]
  constructor
  · rintro ⟨hv, hp⟩
    exact ⟨h k hp ▸ hv, hp⟩
  · rintro ⟨hv, hp⟩
    exact ⟨(h k hp).symm ▸ hv, hp⟩

/-- Maps that differ under one key only, where the values do not count, show the same values. -/
theorem scan_filter_congr {m' : OrderedMap (List α) V} {P : V → Bool} (k₀ : List α)
    (h : ∀ k, p <+: k → k ≠ k₀ → m.get k = m'.get k) (hm : ∀ v ∈ m.get k₀, P v = false)
    (hm' : ∀ v ∈ m'.get k₀, P v = false) :
    ((m.scan p).map Prod.snd).filter P = ((m'.scan p).map Prod.snd).filter P := by
  have hentries : (m.scan p).filter (P ∘ Prod.snd) = (m'.scan p).filter (P ∘ Prod.snd) := by
    apply eq_of_mem_iff (scan_pairwise.filter _) (scan_pairwise.filter _)
    rintro ⟨k, v⟩
    rw [List.mem_filter, List.mem_filter, mem_scan, mem_scan]
    by_cases hk : k = k₀
    · subst hk
      constructor
      · rintro ⟨⟨hv, _⟩, hP⟩
        simp [hm v hv] at hP
      · rintro ⟨⟨hv, _⟩, hP⟩
        simp [hm' v hv] at hP
    · constructor
      · rintro ⟨⟨hv, hp⟩, hP⟩
        exact ⟨⟨h k hp hk ▸ hv, hp⟩, hP⟩
      · rintro ⟨⟨hv, hp⟩, hP⟩
        exact ⟨⟨(h k hp hk).symm ▸ hv, hp⟩, hP⟩
  rw [List.filter_map, List.filter_map, hentries]

end OrderedMap
end Base
