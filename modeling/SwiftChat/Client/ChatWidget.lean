import SwiftChat.Base.Sorting
import SwiftChat.Client.MainWindow
import Mathlib.Data.Prod.Lex
import Mathlib.Logic.Embedding.Basic

/-! The messages that the message view shows. -/
namespace SwiftChat.Client
open Base

namespace ChatWidget
variable {units : Bytes ↪ List Nat} {messages : List FullMessage} {seenIds : List Bytes}

/-- The comparison of `normalizeMessages`. `units` gives the UTF-16 code units of a text, by which
texts are compared. -/
def Before (units : Bytes ↪ List Nat) (a b : FullMessage) : Prop :=
  if a.timestamp = b.timestamp then units a.msgId < units b.msgId else a.timestamp < b.timestamp

/-- The loop of `normalizeMessages`. -/
def dedup (seenIds : List Bytes) : List FullMessage → List FullMessage
  | [] => []
  | msg :: rest =>
    if msg.msgId ≠ [] then
      if msg.msgId ∈ seenIds then dedup seenIds rest
      else msg :: dedup (msg.msgId :: seenIds) rest
    else msg :: dedup seenIds rest

/-- `std` is the sort of the standard library. -/
def normalizeMessages (std : Sorter (Before units)) (messages : List FullMessage) :
    List FullMessage :=
  dedup [] (std.sort messages)

def sortKey (units : Bytes ↪ List Nat) (m : FullMessage) : Lex (Int × List Nat) :=
  toLex (m.timestamp, units m.msgId)

theorem before_iff (a b : FullMessage) : Before units a b ↔ sortKey units a < sortKey units b := by
  rw [Before, sortKey, sortKey, Prod.Lex.toLex_lt_toLex]
  split
  · rename_i h
    simp [h]
  · rename_i h
    simp [h]

theorem not_before_iff (a b : FullMessage) :
    ¬ Before units b a ↔ sortKey units a ≤ sortKey units b := by
  rw [before_iff, not_lt]

/-- Messages that the comparison does not separate agree in time and id. -/
theorem sortKey_inj {a b : FullMessage} :
    sortKey units a = sortKey units b ↔ a.timestamp = b.timestamp ∧ a.msgId = b.msgId := by
  rw [sortKey, sortKey, toLex_inj, Prod.mk.injEq, units.injective.eq_iff]

theorem timestamp_le {a b : FullMessage} (h : ¬ Before units b a) : a.timestamp ≤ b.timestamp := by
  rw [not_before_iff, sortKey, sortKey, Prod.Lex.toLex_le_toLex] at h
  rcases h with h | ⟨h, _⟩
  · exact le_of_lt h
  · exact le_of_eq h

theorem dedup_sublist (seenIds : List Bytes) (messages : List FullMessage) :
    (dedup seenIds messages).Sublist messages := by
  induction messages generalizing seenIds with
  | nil => exact List.Sublist.slnil
  | cons msg rest ih =>
    rw [dedup]
    split
    · split
      · exact (ih seenIds).cons msg
      · exact (ih (msg.msgId :: seenIds)).cons_cons msg
    · exact (ih seenIds).cons_cons msg

theorem not_seen_of_mem_dedup {m : FullMessage} (h : m ∈ dedup seenIds messages)
    (hid : m.msgId ≠ []) : m.msgId ∉ seenIds := by
  induction messages generalizing seenIds with
  | nil => cases h
  | cons msg rest ih =>
    rw [dedup] at h
    split at h
    · split at h
      · exact ih h
      · rename_i hnew
        rcases List.mem_cons.mp h with rfl | h
        · exact hnew
        · exact fun hseen => ih h (List.mem_cons_of_mem _ hseen)
    · rename_i hempty
      rcases List.mem_cons.mp h with rfl | h
      · exact absurd hid hempty
      · exact ih h

theorem dedup_empties (seenIds : List Bytes) (messages : List FullMessage) :
    (dedup seenIds messages).filter (fun m => m.msgId = []) =
      messages.filter (fun m => m.msgId = []) := by
  induction messages generalizing seenIds with
  | nil => rfl
  | cons msg rest ih =>
    rw [dedup]
    split
    · rename_i hid
      rw [List.filter_cons_of_neg (by simpa using hid)]
      split
      · exact ih seenIds
      · rw [List.filter_cons_of_neg (by simpa using hid)]
        exact ih _
    · rename_i hid
      have hempty : msg.msgId = [] := not_not.mp hid
      rw [List.filter_cons_of_pos (by simpa using hempty),
        List.filter_cons_of_pos (by simpa using hempty), ih]

/-- No two messages share an id that is not empty. -/
def NoneTwice (messages : List FullMessage) : Prop :=
  messages.Pairwise (fun a b => a.msgId ≠ [] → a.msgId ≠ b.msgId)

theorem NoneTwice.eq (h : NoneTwice messages) {a b : FullMessage} (ha : a ∈ messages)
    (hb : b ∈ messages) (hid : a.msgId ≠ []) (hsame : a.msgId = b.msgId) : a = b := by
  have hsymm : Std.Symm (fun a b : FullMessage => a.msgId ≠ [] → a.msgId ≠ b.msgId) :=
    ⟨fun a b hab hid hsame => hab (hsame ▸ hid) hsame.symm⟩
  by_contra hne
  exact List.Pairwise.forall h ha hb hne hid hsame

theorem dedup_noneTwice (seenIds : List Bytes) (messages : List FullMessage) :
    NoneTwice (dedup seenIds messages) := by
  induction messages generalizing seenIds with
  | nil => exact List.Pairwise.nil
  | cons msg rest ih =>
    rw [dedup]
    split
    · split
      · exact ih seenIds
      · refine List.pairwise_cons.mpr ⟨?_, ih _⟩
        intro m hm hid hsame
        have hnew := not_seen_of_mem_dedup hm (hsame ▸ hid)
        exact hnew (hsame ▸ List.mem_cons_self)
    · rename_i hempty
      exact List.pairwise_cons.mpr ⟨fun _ _ hid => absurd hid hempty, ih seenIds⟩

theorem dedup_eq_self (h : NoneTwice messages)
    (hnew : ∀ m ∈ messages, m.msgId ≠ [] → m.msgId ∉ seenIds) : dedup seenIds messages = messages := by
  induction messages generalizing seenIds with
  | nil => rfl
  | cons msg rest ih =>
    obtain ⟨hmsg, hrest⟩ := List.pairwise_cons.mp h
    have htail : ∀ m ∈ rest, m.msgId ≠ [] → m.msgId ∉ seenIds :=
      fun m hm => hnew m (List.mem_cons_of_mem _ hm)
    rw [dedup]
    split
    · rename_i hid
      rw [if_neg (hnew msg List.mem_cons_self hid), ih hrest]
      intro m hm hne hmem
      rcases List.mem_cons.mp hmem with hsame | hmem
      · exact hmsg m hm hid hsame.symm
      · exact htail m hm hne hmem
    · rw [ih hrest htail]

/-- Each id has a message in what is left. -/
theorem exists_mem_dedup {i : Bytes} (hi : i ≠ []) (hseen : i ∉ seenIds)
    (hmem : i ∈ messages.map (fun m => m.msgId)) :
    i ∈ (dedup seenIds messages).map (fun m => m.msgId) := by
  induction messages generalizing seenIds with
  | nil => cases hmem
  | cons msg rest ih =>
    rw [List.map_cons, List.mem_cons] at hmem
    rw [dedup]
    by_cases hsame : i = msg.msgId
    · subst hsame
      rw [if_pos hi, if_neg hseen]
      exact List.mem_cons_self
    · have hrest := hmem.resolve_left hsame
      split
      · split
        · exact ih hseen hrest
        · refine List.mem_cons_of_mem _ (ih ?_ hrest)
          intro hin
          rcases List.mem_cons.mp hin with h | h
          · exact hsame h
          · exact hseen h
      · exact List.mem_cons_of_mem _ (ih hseen hrest)

/-- In a sorted list the copy that is kept is the first. -/
theorem dedup_least (hs : messages.Pairwise (fun a b => ¬ Before units b a)) {m m' : FullMessage}
    (hm : m ∈ dedup seenIds messages) (hid : m.msgId ≠ []) (hm' : m' ∈ messages)
    (hsame : m'.msgId = m.msgId) : m.timestamp ≤ m'.timestamp := by
  induction messages generalizing seenIds with
  | nil => cases hm
  | cons msg rest ih =>
    obtain ⟨hmsg, hrest⟩ := List.pairwise_cons.mp hs
    have hfirst : ∀ m ∈ rest, msg.timestamp ≤ m.timestamp := fun m hm => timestamp_le (hmsg m hm)
    rw [dedup] at hm
    split at hm
    · rename_i hne
      split at hm
      · rename_i hseen
        rcases List.mem_cons.mp hm' with rfl | hm'
        · exact absurd (hsame ▸ hseen) (not_seen_of_mem_dedup hm hid)
        · exact ih hrest hm hm'
      · rcases List.mem_cons.mp hm with rfl | hm
        · rcases List.mem_cons.mp hm' with rfl | hm'
          · exact le_rfl
          · exact hfirst m' hm'
        · rcases List.mem_cons.mp hm' with rfl | hm'
          · have hnew := not_seen_of_mem_dedup hm hid
            exact absurd (hsame ▸ List.mem_cons_self) hnew
          · exact ih hrest hm hm'
    · rename_i hempty
      have hempty : msg.msgId = [] := not_not.mp hempty
      rcases List.mem_cons.mp hm with rfl | hm
      · exact absurd hempty hid
      · rcases List.mem_cons.mp hm' with rfl | hm'
        · exact absurd (hsame.symm.trans hempty) hid
        · exact ih hrest hm hm'

/-- What the view shows of a list of messages. -/
structure Normalized (units : Bytes ↪ List Nat) (messages shown : List FullMessage) : Prop where
  sorted : shown.Pairwise (fun a b => sortKey units a ≤ sortKey units b)
  once : ∀ i ≠ [], i ∈ messages.map (fun m => m.msgId) →
    (shown.map (fun m => m.msgId)).count i = 1
  least : ∀ m ∈ shown, m ∈ messages ∧
    (m.msgId ≠ [] → ∀ m' ∈ messages, m'.msgId = m.msgId → m.timestamp ≤ m'.timestamp)
  empties : (shown.filter (fun m => m.msgId = [])).Perm (messages.filter (fun m => m.msgId = []))

/-- Messages with an empty id are told apart by their times. -/
def EmptiesSeparated (messages : List FullMessage) : Prop :=
  ∀ a ∈ messages, ∀ b ∈ messages, a.msgId = [] → b.msgId = [] → a.timestamp = b.timestamp → a = b

/-- No two messages agree in time and id. -/
def KeysDistinct (messages : List FullMessage) : Prop :=
  messages.Pairwise (fun a b => ¬ (a.timestamp = b.timestamp ∧ a.msgId = b.msgId))

theorem KeysDistinct.separated (h : KeysDistinct messages) :
    Separated (Before units) messages := by
  intro a ha b hb hab hba
  have hkey := le_antisymm ((not_before_iff _ _).mp hba) ((not_before_iff _ _).mp hab)
  have hsymm : Std.Symm
      (fun a b : FullMessage => ¬ (a.timestamp = b.timestamp ∧ a.msgId = b.msgId)) :=
    ⟨fun a b hab ⟨htime, hid⟩ => hab ⟨htime.symm, hid.symm⟩⟩
  by_contra hne
  exact List.Pairwise.forall h ha hb hne (sortKey_inj.mp hkey)

section Normalize
variable (std : Sorter (Before units))

theorem normalizeMessages_sublist (messages : List FullMessage) :
    (normalizeMessages std messages).Sublist (std.sort messages) :=
  dedup_sublist [] (std.sort messages)

theorem mem_of_mem_normalizeMessages {m : FullMessage} (h : m ∈ normalizeMessages std messages) :
    m ∈ messages :=
  std.mem_sort.mp ((normalizeMessages_sublist std messages).subset h)

theorem normalizeMessages_sorted (messages : List FullMessage) :
    (normalizeMessages std messages).Pairwise (fun a b => ¬ Before units b a) :=
  (std.sorted messages).sublist (normalizeMessages_sublist std messages)

theorem count_eq_one (h : NoneTwice messages) {i : Bytes} (hi : i ≠ [])
    (hmem : i ∈ messages.map (fun m => m.msgId)) : (messages.map (fun m => m.msgId)).count i = 1 := by
  induction messages with
  | nil => cases hmem
  | cons msg rest ih =>
    obtain ⟨hmsg, hrest⟩ := List.pairwise_cons.mp h
    rw [List.map_cons] at hmem ⊢
    by_cases hsame : msg.msgId = i
    · have hnone : i ∉ rest.map (fun m => m.msgId) := by
        intro hin
        obtain ⟨m, hm, hmi⟩ := List.mem_map.mp hin
        exact hmsg m hm (hsame ▸ hi) (hsame.trans hmi.symm)
      rw [hsame, List.count_cons_self, List.count_eq_zero.mpr hnone]
    · rw [List.count_cons_of_ne hsame]
      exact ih hrest ((List.mem_cons.mp hmem).resolve_left (Ne.symm hsame))

theorem normalized (messages : List FullMessage) :
    Normalized units messages (normalizeMessages std messages) where
  sorted := (normalizeMessages_sorted std messages).imp (fun h => (not_before_iff _ _).mp h)
  once := by
    intro i hi hmem
    apply count_eq_one (dedup_noneTwice _ _) hi
    apply exists_mem_dedup hi List.not_mem_nil
    exact ((std.perm messages).map _).mem_iff.mpr hmem
  least := by
    intro m hm
    refine ⟨mem_of_mem_normalizeMessages std hm, ?_⟩
    intro hid m' hm' hsame
    exact dedup_least (std.sorted messages) hm hid (std.mem_sort.mpr hm') hsame
  empties := by
    rw [normalizeMessages, dedup_empties]
    exact (std.perm messages).filter _

/-- The second pass sorts, and finds nothing more to leave out. -/
theorem normalizeMessages_twice (messages : List FullMessage) :
    normalizeMessages std (normalizeMessages std messages) =
      std.sort (normalizeMessages std messages) := by
  have hperm := std.perm (normalizeMessages std messages)
  have hnone : NoneTwice (std.sort (normalizeMessages std messages)) := by
    refine (hperm.pairwise_iff ?_).mpr (dedup_noneTwice [] (std.sort messages))
    intro a b h hid hsame
    exact h (hsame ▸ hid) hsame.symm
  exact dedup_eq_self hnone (fun _ _ _ => List.not_mem_nil)

theorem normalizeMessages_twice_map (messages : List FullMessage) :
    (normalizeMessages std (normalizeMessages std messages)).map (sortKey units) =
      (normalizeMessages std messages).map (sortKey units) := by
  have hperm := (std.perm (normalizeMessages std messages)).map (sortKey units)
  have hkeys : ∀ shown : List FullMessage, shown.Pairwise (fun a b => ¬ Before units b a) →
      (shown.map (sortKey units)).Pairwise (· ≤ ·) := by
    intro shown h
    exact List.pairwise_map.mpr (h.imp (fun hab => (not_before_iff _ _).mp hab))
  rw [normalizeMessages_twice]
  exact hperm.eq_of_pairwise (fun _ _ _ _ => le_antisymm) (hkeys _ (std.sorted _))
    (hkeys _ (normalizeMessages_sorted std messages))

theorem normalizeMessages_idem (h : EmptiesSeparated messages) :
    normalizeMessages std (normalizeMessages std messages) = normalizeMessages std messages := by
  have hn := normalized std messages
  have hseparated : Separated (Before units) (normalizeMessages std messages) := by
    intro a ha b hb hab hba
    have hkey := le_antisymm ((not_before_iff _ _).mp hba) ((not_before_iff _ _).mp hab)
    obtain ⟨htime, hid⟩ := sortKey_inj.mp hkey
    by_cases hempty : a.msgId = []
    · exact h a (hn.least a ha).1 b (hn.least b hb).1 hempty (hid ▸ hempty) htime
    · exact (dedup_noneTwice [] (std.sort messages)).eq ha hb hempty hid
  rw [normalizeMessages_twice]
  exact std.sort_eq_self hseparated (normalizeMessages_sorted std messages)

theorem normalizeMessages_perm {messages' : List FullMessage} (h : KeysDistinct messages)
    (hp : messages'.Perm messages) :
    normalizeMessages std messages' = normalizeMessages std messages := by
  rw [normalizeMessages, normalizeMessages, std.sort_eq_of_perm h.separated hp.symm]

end Normalize
/-- What the view shows is sorted and has each id once, with its first time; normalising it again
changes no more than the order of messages with empty ids and one time, and messages that agree
in time and id are all that makes the order of the input count. -/
theorem normalizeMessages_right (units : Bytes ↪ List Nat) (std : Sorter (Before units))
    (messages : List FullMessage) :
    let shown := normalizeMessages std messages
    Normalized units messages shown ∧
      (normalizeMessages std shown).Perm shown ∧
      (normalizeMessages std shown).map (sortKey units) = shown.map (sortKey units) ∧
      (EmptiesSeparated messages → normalizeMessages std shown = shown) ∧
      (KeysDistinct messages → ∀ messages', messages'.Perm messages →
        normalizeMessages std messages' = shown) := by
  refine ⟨normalized std messages, ?_, normalizeMessages_twice_map std messages,
    normalizeMessages_idem std, ?_⟩
  · rw [normalizeMessages_twice]
    exact std.perm _
  · intro h messages' hp
    exact normalizeMessages_perm std h hp

/-- The order in which a sort that exchanges equal elements returns seventeen of them: the middle one
comes first, and the others change places with those at the other end. -/
def exchanged : List Nat := [8, 16, 15, 14, 13, 12, 11, 10, 9, 0, 7, 6, 5, 4, 3, 2, 1]

theorem map_getD_perm {order : List Nat} {xs : List FullMessage}
    (h : order.Perm (List.range xs.length)) : (order.map (fun i => xs.getD i {})).Perm xs := by
  have hall : (List.range xs.length).map (fun i => xs.getD i {}) = xs := by
    apply List.ext_getElem
    · simp
    · intro i h₁ h₂
      simp [List.getElem?_eq_getElem h₂]
  exact (h.map _).trans (List.Perm.of_eq hall)

/-- A sort that is not stable. -/
def exchangingSorter (units : Bytes ↪ List Nat) : Sorter (Before units) where
  sort xs :=
    if xs.length = 17 ∧ xs.Pairwise (fun a b => sortKey units a = sortKey units b) then
      exchanged.map (fun i => xs.getD i {})
    else (insertionSorter (sortKey units) before_iff).sort xs
  perm xs := by
    split
    · rename_i h
      apply map_getD_perm
      rw [h.1]
      decide +kernel
    · exact (insertionSorter (sortKey units) before_iff).perm xs
  sorted xs := by
    split
    · rename_i h
      have hperm : (exchanged.map (fun i => xs.getD i {})).Perm xs := by
        apply map_getD_perm
        rw [h.1]
        decide +kernel
      have heq := (hperm.pairwise_iff (fun hab => hab.symm)).mpr h.2
      exact heq.imp (fun hab => (not_before_iff _ _).mpr (le_of_eq hab))
    · exact (insertionSorter (sortKey units) before_iff).sorted xs

/-- Seventeen messages without an id that came at one time. -/
def anonymous : List FullMessage :=
  (List.range 17).map (fun i => { content := [UInt8.ofNat i], timestamp := 1 })

/-- Each pass moves them. -/
theorem normalizeMessages_moves : ¬ ∀ (units : Bytes ↪ List Nat) (std : Sorter (Before units))
    (messages : List FullMessage),
    normalizeMessages std (normalizeMessages std messages) = normalizeMessages std messages := by
  intro h
  have hmoves := h ⟨List.map UInt8.toNat, List.map_injective_iff.mpr (fun _ _ => UInt8.toNat_inj.mp)⟩
    (exchangingSorter _) anonymous
  revert hmoves
  decide +kernel

end ChatWidget
end SwiftChat.Client
