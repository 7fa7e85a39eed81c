import SwiftChat.Base.Checked
import SwiftChat.Base.Double
import SwiftChat.Base.Sorting
import SwiftChat.Client.MainWindow

/-! The local file of a user, and the merge of new messages into it. -/
namespace SwiftChat.Client
open Base

namespace ChatStorage
variable {chatId chatId' key : Bytes} {chatType chatType' : Int} {seen : List Bytes}
  {messages loaded old new kept : List FullMessage} {m e x : FullMessage} {n : Nat}

def idsOf (messages : List FullMessage) : List Bytes := messages.map (fun m => m.msgId)

/-- What `jsonToMessage` reads of what `messageToJson` wrote: the time goes through a double. -/
def throughJson (m : FullMessage) : FullMessage := { m with timestamp := toDouble m.timestamp }

/-- The messages of a conversation in the file, as they are read. -/
structure StoredList where
  messages : List FullMessage := []
  distinct : (idsOf messages).Nodup := by exact List.nodup_nil
  named : ∀ m ∈ messages, m.msgId ≠ [] := by exact fun _ h => nomatch h
  written : ∀ m ∈ messages, throughJson m = m := by exact fun _ h => nomatch h

/-- The object `messages` of the file. -/
abbrev MessageFile := OrderedMap Bytes StoredList

def storageKey (chatId : Bytes) (chatType : Int) : Bytes := chatId ++ str "_" ++ formatInt chatType

def stored (file : MessageFile) (chatId : Bytes) (chatType : Int) : StoredList :=
  (file.get (storageKey chatId chatType)).getD {}

def Earlier (a b : FullMessage) : Prop := a.timestamp < b.timestamp

/-- `mid(size() - n, n)`, which is empty when `n` is negative. -/
def lastMessages (messages : List FullMessage) (n : Int) : List FullMessage :=
  messages.drop (messages.length - n).toNat

/-- `std` is the sort of the standard library. -/
def loadMessages (std : Sorter Earlier) (file : MessageFile) (chatId : Bytes) (chatType : Int)
    (maxMessages : Int) : List FullMessage :=
  let result := (stored file chatId chatType).messages
  if maxMessages < result.length then lastMessages (std.sort result) maxMessages else result

/-- The messages that the loop of `mergeAndSaveMessages` appends. -/
def notSeen (seen : List Bytes) : List FullMessage → List FullMessage
  | [] => []
  | m :: rest =>
    if m.msgId ≠ [] ∧ m.msgId ∉ seen then m :: notSeen (m.msgId :: seen) rest else notSeen seen rest

theorem notSeen_spec (seen : List Bytes) (messages : List FullMessage) :
    (idsOf (notSeen seen messages)).Nodup ∧
      ∀ m ∈ notSeen seen messages, m.msgId ≠ [] ∧ m.msgId ∉ seen := by
  induction messages generalizing seen with
  | nil => exact ⟨List.nodup_nil, fun _ h => nomatch h⟩
  | cons m rest ih =>
    unfold notSeen
    split
    · rename_i hm
      obtain ⟨hnodup, hnew⟩ := ih (m.msgId :: seen)
      constructor
      · refine List.nodup_cons.mpr ⟨?_, hnodup⟩
        intro hin
        obtain ⟨m', hm', hsame⟩ := List.mem_map.mp hin
        exact (hnew m' hm').2 (hsame ▸ List.mem_cons_self)
      · intro m' hm'
        rcases List.mem_cons.mp hm' with rfl | hm'
        · exact hm
        · exact ⟨(hnew m' hm').1, fun hseen => (hnew m' hm').2 (List.mem_cons_of_mem _ hseen)⟩
    · exact ih seen

theorem mem_of_mem_notSeen (h : m ∈ notSeen seen messages) : m ∈ messages := by
  induction messages generalizing seen with
  | nil => cases h
  | cons x rest ih =>
    unfold notSeen at h
    split at h
    · rcases List.mem_cons.mp h with rfl | h
      · exact List.mem_cons_self
      · exact List.mem_cons_of_mem _ (ih h)
    · exact List.mem_cons_of_mem _ (ih h)

/-- Of messages with different ids those are appended whose id is not there. -/
theorem notSeen_eq_filter (hdistinct : (idsOf messages).Nodup)
    (hnamed : ∀ m ∈ messages, m.msgId ≠ []) :
    notSeen seen messages = messages.filter (fun m => m.msgId ∉ seen) := by
  induction messages generalizing seen with
  | nil => rfl
  | cons m rest ih =>
    obtain ⟨hm, hrest⟩ := List.nodup_cons.mp hdistinct
    have hnamed' : ∀ m ∈ rest, m.msgId ≠ [] := fun m hm => hnamed m (List.mem_cons_of_mem _ hm)
    rw [notSeen]
    by_cases hseen : m.msgId ∈ seen
    · rw [if_neg (fun h => h.2 hseen), ih hrest hnamed',
        List.filter_cons_of_neg (by simpa using hseen)]
    · rw [if_pos ⟨hnamed m List.mem_cons_self, hseen⟩, ih hrest hnamed',
        List.filter_cons_of_pos (by simpa using hseen)]
      congr 1
      apply List.filter_congr
      intro m' hm'
      have hne : m'.msgId ≠ m.msgId := by
        intro hsame
        exact hm (List.mem_map.mpr ⟨m', hm', hsame⟩)
      simp [hne]

theorem idsOf_perm (h : old.Perm new) : (idsOf old).Perm (idsOf new) := h.map _

theorem idsOf_append : idsOf (loaded ++ new) = idsOf loaded ++ idsOf new := List.map_append

/-- A message is found by its id. -/
theorem eq_of_id (h : (idsOf messages).Nodup) (he : e ∈ messages) (hm : m ∈ messages)
    (hid : e.msgId = m.msgId) : e = m :=
  List.inj_on_of_nodup_map h he hm hid

theorem idsOf_append_notSeen (new : List FullMessage) (h : (idsOf loaded).Nodup) :
    (idsOf (loaded ++ notSeen (idsOf loaded) new)).Nodup := by
  obtain ⟨hnodup, hnew⟩ := notSeen_spec (idsOf loaded) new
  rw [idsOf_append]
  refine h.append hnodup ?_
  intro i hi hi'
  obtain ⟨m, hm, rfl⟩ := List.mem_map.mp hi'
  exact (hnew m hm).2 hi

theorem throughJson_idem (m : FullMessage) : throughJson (throughJson m) = throughJson m := by
  rw [throughJson, throughJson, toDouble_idem]

theorem map_throughJson (h : ∀ m ∈ messages, throughJson m = m) :
    messages.map throughJson = messages := by
  conv_rhs => rw [← List.map_id messages]
  exact List.map_congr_left h

theorem idsOf_throughJson (messages : List FullMessage) :
    idsOf (messages.map throughJson) = idsOf messages := by
  rw [idsOf, idsOf, List.map_map]
  rfl

/-- Sorting by insertion. -/
def timeSorter : Sorter Earlier :=
  insertionSorter (fun m : FullMessage => m.timestamp) (fun _ _ => Iff.rfl)

/-- What is loaded of a stored list: all messages, or the newest `n`. -/
structure Loaded (old loaded : List FullMessage) (n : Nat) : Prop where
  whole : loaded = old ∨ loaded.length = n ∧ n < old.length
  distinct : (idsOf loaded).Nodup
  mem : ∀ m ∈ loaded, m ∈ old
  newest : ∀ u ∈ old, u ∉ loaded → ∀ m ∈ loaded, u.timestamp ≤ m.timestamp

theorem lastMessages_eq (messages : List FullMessage) (n : Int) :
    lastMessages messages n = messages.drop (messages.length - n.toNat) := by
  rcases Int.le_total 0 n with hn | hn
  · obtain ⟨k, rfl⟩ := Int.eq_ofNat_of_zero_le hn
    rw [lastMessages, Int.toNat_sub, Int.toNat_natCast]
  · rw [lastMessages, Int.toNat_of_nonpos hn, List.drop_of_length_le (by omega), Nat.sub_zero,
      List.drop_length]

theorem loaded_loadMessages (std : Sorter Earlier) (file : MessageFile) (chatId : Bytes)
    (chatType : Int) (n : Int) :
    Loaded (stored file chatId chatType).messages (loadMessages std file chatId chatType n)
      n.toNat := by
  unfold loadMessages
  generalize stored file chatId chatType = old
  dsimp only
  split
  · rename_i hlong
    have hlen : (std.sort old.messages).length = old.messages.length := std.length_sort
    have hsorted : (std.sort old.messages).Pairwise (fun a b => a.timestamp ≤ b.timestamp) :=
      (std.sorted old.messages).imp (fun h => not_lt.mp h)
    rw [lastMessages_eq]
    refine ⟨?_, ?_, ?_, ?_⟩
    · rcases Nat.lt_or_ge n.toNat old.messages.length with hlt | hge
      · refine Or.inr ⟨?_, hlt⟩
        rw [List.length_drop, hlen]
        omega
      · -- only a list that is empty has no more messages than a negative number
        have hzero : old.messages.length = 0 := by omega
        refine Or.inl ?_
        rw [List.length_eq_zero_iff.mp hzero, ← List.length_eq_zero_iff, List.length_drop,
          std.length_sort, List.length_nil, Nat.zero_sub]
    · have hids := (idsOf_perm (std.perm old.messages)).nodup_iff.mpr old.distinct
      exact hids.sublist ((List.drop_sublist _ _).map _)
    · intro m hm
      exact std.mem_sort.mp (List.mem_of_mem_drop hm)
    · intro u hu hout m hm
      exact le_of_not_mem_last (fun m : FullMessage => m.timestamp) hsorted
        (std.mem_sort.mpr hu) hout hm
  · refine ⟨Or.inl rfl, old.distinct, fun _ h => h, ?_⟩
    intro u hu hout
    exact absurd hu hout

/-- The merge that is saved. -/
def merged (std : Sorter Earlier) (loaded new : List FullMessage) (maxStored : Int) :
    List FullMessage :=
  let existing := std.sort (loaded ++ notSeen (idsOf loaded) new)
  if maxStored < existing.length then lastMessages existing maxStored else existing

/-- What is saved are the last messages, in order of time. -/
theorem merged_eq_drop (std : Sorter Earlier) (loaded new : List FullMessage) (z : Int) :
    merged std loaded new z = (std.sort (loaded ++ notSeen (idsOf loaded) new)).drop
      ((std.sort (loaded ++ notSeen (idsOf loaded) new)).length - z.toNat) := by
  unfold merged
  dsimp only
  split
  · exact lastMessages_eq _ _
  · rename_i hshort
    have hzero : (std.sort (loaded ++ notSeen (idsOf loaded) new)).length - z.toNat = 0 := by omega
    rw [hzero, List.drop_zero]

theorem mem_of_mem_merged {std : Sorter Earlier} {z : Int} (h : m ∈ merged std loaded new z) :
    m ∈ loaded ++ notSeen (idsOf loaded) new := by
  rw [merged_eq_drop] at h
  exact std.mem_sort.mp (List.mem_of_mem_drop h)

theorem idsOf_merged (std : Sorter Earlier) (z : Int) (h : (idsOf loaded).Nodup) :
    (idsOf (merged std loaded new z)).Nodup := by
  have hids := (idsOf_perm (std.perm _)).nodup_iff.mpr (idsOf_append_notSeen new h)
  rw [merged_eq_drop]
  exact hids.sublist ((List.drop_sublist _ _).map _)

/-- The merge with as many loaded messages as `maxMessages` allows. `stdLoad` sorts what is loaded,
where that is too long, and `std` what is saved. -/
def mergeLoaded (stdLoad std : Sorter Earlier) (file : MessageFile) (chatId : Bytes)
    (chatType : Int) (newMessages : List FullMessage) (maxMessages maxStored : Int) :
    MessageFile :=
  let loaded := loadMessages stdLoad file chatId chatType maxMessages
  file.put (storageKey chatId chatType) {
    messages := (merged std loaded newMessages maxStored).map throughJson
    distinct := by
      rw [idsOf_throughJson]
      exact idsOf_merged std _ (loaded_loadMessages stdLoad file chatId chatType _).distinct
    named := by
      intro m hm
      obtain ⟨x, hx, rfl⟩ := List.mem_map.mp hm
      rcases List.mem_append.mp (mem_of_mem_merged hx) with hx | hx
      · have hold := (loaded_loadMessages stdLoad file chatId chatType _).mem x hx
        exact (stored file chatId chatType).named x hold
      · exact ((notSeen_spec _ _).2 x hx).1
    written := by
      intro m hm
      obtain ⟨x, _, rfl⟩ := List.mem_map.mp hm
      exact throughJson_idem x }

/-- `maxStored * 2` is computed in an `int`; an overflow has no result. -/
def mergeAndSaveMessages (stdLoad std : Sorter Earlier) (file : MessageFile) (chatId : Bytes)
    (chatType : Int) (newMessages : List FullMessage) (maxStored : Int) : Option MessageFile :=
  (checked 32 (maxStored * 2)).map fun maxMessages =>
    mergeLoaded stdLoad std file chatId chatType newMessages maxMessages maxStored

theorem mergeAndSaveMessages_of_fits {stdLoad std : Sorter Earlier} {file : MessageFile} {z : Int}
    (h : Fits 32 (z * 2)) :
    mergeAndSaveMessages stdLoad std file chatId chatType new z =
      some (mergeLoaded stdLoad std file chatId chatType new (z * 2) z) := by
  rw [mergeAndSaveMessages, checked_of_fits h, Option.map_some]

theorem storageKey_inj (h : storageKey chatId chatType = storageKey chatId' chatType') :
    chatId = chatId' ∧ chatType = chatType' := by
  have hsep : ∀ z, (95 : UInt8) ∉ formatInt z :=
    fun _ => not_mem_formatInt (by decide) (by decide)
  have hkey : ∀ c z, storageKey c z = c ++ 95 :: formatInt z := by
    intro c z
    rw [storageKey, List.append_assoc]
    rfl
  rw [hkey, hkey] at h
  obtain ⟨hid, hnumber⟩ := append_sep_inj_right (hsep chatType) (hsep chatType') h
  exact ⟨hid, formatInt_inj hnumber⟩

/-! The file after a merge. -/

theorem stored_merge_self (stdLoad std : Sorter Earlier) (file : MessageFile)
    (newMessages : List FullMessage) (maxMessages maxStored : Int) :
    (stored (mergeLoaded stdLoad std file chatId chatType newMessages maxMessages maxStored)
        chatId chatType).messages =
      (merged std (loadMessages stdLoad file chatId chatType maxMessages) newMessages
        maxStored).map throughJson := by
  rw [stored, mergeLoaded, OrderedMap.get_put_self]
  rfl

theorem stored_merge_other (stdLoad std : Sorter Earlier) (file : MessageFile)
    (newMessages : List FullMessage) (maxMessages maxStored : Int)
    (h : ¬ (chatId' = chatId ∧ chatType' = chatType)) :
    stored (mergeLoaded stdLoad std file chatId chatType newMessages maxMessages maxStored)
        chatId' chatType' = stored file chatId' chatType' := by
  have hkey : storageKey chatId' chatType' ≠ storageKey chatId chatType :=
    fun hkey => h (storageKey_inj hkey)
  rw [stored, mergeLoaded, OrderedMap.get_put_ne hkey]
  rfl

/-- A merge brings no other ids than those of the new messages. -/
theorem mem_idsOf_merge {stdLoad std : Sorter Earlier} {file : MessageFile} {i : Bytes}
    {maxMessages maxStored : Int}
    (h : i ∈ idsOf (stored (mergeLoaded stdLoad std file chatId chatType new maxMessages maxStored)
      chatId chatType).messages) :
    i ∈ idsOf (stored file chatId chatType).messages ∨ i ∈ idsOf new := by
  rw [stored_merge_self, idsOf_throughJson] at h
  obtain ⟨m, hm, rfl⟩ := List.mem_map.mp h
  rcases List.mem_append.mp (mem_of_mem_merged hm) with hm | hm
  · have hload := loaded_loadMessages stdLoad file chatId chatType maxMessages
    exact Or.inl (List.mem_map_of_mem (hload.mem m hm))
  · exact Or.inr (List.mem_map_of_mem (mem_of_mem_notSeen hm))

/-- The messages of both lists; of two with one id the new one. -/
def union (old new : List FullMessage) : List FullMessage :=
  new ++ old.filter (fun m => m.msgId ∉ idsOf new)

/-- What the file should hold of `old` and `new`. -/
structure Kept (old new kept : List FullMessage) (n : Nat) : Prop where
  sorted : kept.Pairwise (fun a b => a.timestamp ≤ b.timestamp)
  once : (idsOf kept).Nodup
  mem : ∀ m ∈ kept, m ∈ union old new
  length : kept.length = min n (union old new).length
  newest : ∀ u ∈ union old new, u ∉ kept → ∀ m ∈ kept, u.timestamp ≤ m.timestamp
  copies : ∀ m ∈ new, ∀ k ∈ kept, k.msgId = m.msgId → k = m

/-- Where a wanted message is not kept, the list is full. -/
theorem Kept.full (h : Kept old new kept n) (hm : m ∈ union old new) (hout : m ∉ kept) :
    kept.length = n := by
  have hnodup : (m :: kept).Nodup := List.nodup_cons.mpr ⟨hout, List.Nodup.of_map _ h.once⟩
  have hsub : m :: kept ⊆ union old new := by
    intro x hx
    rcases List.mem_cons.mp hx with rfl | hx
    · exact hm
    · exact h.mem x hx
  have hle := (List.subperm_of_subset hnodup hsub).length_le
  have hlength := h.length
  rw [List.length_cons] at hle
  omega

/-- Where a wanted message is not kept, there are `n` that are no earlier. -/
theorem Kept.many (h : Kept old new kept n) (hm : m ∈ union old new) (hout : m ∉ kept) :
    n ≤ kept.countP (fun x => m.timestamp ≤ x.timestamp) := by
  have hall : kept.countP (fun x => m.timestamp ≤ x.timestamp) = kept.length := by
    rw [List.countP_eq_length]
    intro x hx
    exact decide_eq_true (h.newest m hm hout x hx)
  rw [hall, h.full hm hout]

/-- What the merge chooses from. -/
def candidates (loaded new : List FullMessage) : List FullMessage :=
  loaded ++ new.filter (fun m => m.msgId ∉ idsOf loaded)

/-- Where a message was loaded in another version than the new one, neither version can be among the
newest `n`; nor can a new message whose time no double holds. -/
structure Agree (loaded new : List FullMessage) (n : Nat) : Prop where
  shared : ∀ e ∈ loaded, ∀ m ∈ new, e.msgId = m.msgId → e ≠ m →
    n ≤ (candidates loaded new).countP (fun x => e.timestamp < x.timestamp) ∧
      n ≤ (candidates loaded new).countP (fun x => m.timestamp ≤ x.timestamp)
  held : ∀ m ∈ new, m.msgId ∉ idsOf loaded → toDouble m.timestamp ≠ m.timestamp →
    n ≤ (candidates loaded new).countP (fun x => m.timestamp < x.timestamp)

theorem mem_union : m ∈ union old new ↔ m ∈ new ∨ m ∈ old ∧ m.msgId ∉ idsOf new := by
  simp [union]

theorem mem_candidates :
    m ∈ candidates loaded new ↔ m ∈ loaded ∨ m ∈ new ∧ m.msgId ∉ idsOf loaded := by
  simp [candidates]

theorem mem_idsOf (h : m ∈ messages) : m.msgId ∈ idsOf messages := List.mem_map_of_mem h

theorem idsOf_filter_out {ids : List Bytes} {i : Bytes} :
    i ∈ idsOf (messages.filter (fun m => m.msgId ∉ ids)) ↔ i ∈ idsOf messages ∧ i ∉ ids := by
  constructor
  · intro h
    obtain ⟨m, hm, rfl⟩ := List.mem_map.mp h
    obtain ⟨hm, hout⟩ := List.mem_filter.mp hm
    exact ⟨mem_idsOf hm, of_decide_eq_true hout⟩
  · rintro ⟨h, hout⟩
    obtain ⟨m, hm, rfl⟩ := List.mem_map.mp h
    exact mem_idsOf (List.mem_filter.mpr ⟨hm, decide_eq_true hout⟩)

/-- Two lists put together by leaving out of the second what the first has. -/
theorem idsOf_append_filter (ho : (idsOf old).Nodup) (hn : (idsOf new).Nodup) :
    (idsOf (old ++ new.filter (fun m => m.msgId ∉ idsOf old))).Nodup := by
  rw [idsOf_append]
  refine ho.append (hn.sublist (List.filter_sublist.map _)) ?_
  intro i hi hi'
  exact (idsOf_filter_out.mp hi').2 hi

theorem mem_idsOf_append_filter {i : Bytes} :
    i ∈ idsOf (old ++ new.filter (fun m => m.msgId ∉ idsOf old)) ↔
      i ∈ idsOf old ∨ i ∈ idsOf new := by
  rw [idsOf_append, List.mem_append, idsOf_filter_out]
  tauto

theorem length_idsOf (messages : List FullMessage) : (idsOf messages).length = messages.length :=
  List.length_map _

section Merge
variable (hload : Loaded old loaded (n * 2)) (hwritten : ∀ m ∈ old, throughJson m = m)
  (hnew : (idsOf new).Nodup)
include hload hnew

/-- Nothing is lost for want of candidates. -/
theorem min_length_candidates (hold : (idsOf old).Nodup) :
    min n (candidates loaded new).length = min n (union old new).length := by
  have hcand := idsOf_append_filter hload.distinct hnew
  have hunion := idsOf_append_filter hnew hold
  rcases hload.whole with rfl | ⟨hlen, hlong⟩
  · have hperm : (idsOf (candidates loaded new)).Perm (idsOf (union loaded new)) := by
      refine (List.perm_ext_iff_of_nodup hcand hunion).mpr ?_
      intro i
      exact mem_idsOf_append_filter.trans (or_comm.trans mem_idsOf_append_filter.symm)
    have hlength := hperm.length_eq
    rw [length_idsOf, length_idsOf] at hlength
    rw [hlength]
  · have hsub : idsOf old ⊆ idsOf (union old new) := by
      intro i hi
      exact mem_idsOf_append_filter.mpr (Or.inr hi)
    have hle := (List.subperm_of_subset hold hsub).length_le
    rw [length_idsOf, length_idsOf] at hle
    have hmore : loaded.length ≤ (candidates loaded new).length := by
      rw [candidates, List.length_append]
      exact Nat.le_add_right _ _
    omega

include hwritten

/-- What is read back as it was is wanted. -/
theorem written_of_mem_union (hx : x ∈ candidates loaded new) (h : throughJson x ∈ union old new) :
    throughJson x = x := by
  rcases mem_candidates.mp hx with hx | ⟨hx, _⟩
  · exact hwritten x (hload.mem x hx)
  · rcases mem_union.mp h with h | ⟨_, hout⟩
    · exact eq_of_id hnew h hx rfl
    · exact absurd (mem_idsOf hx) hout

omit hnew in
/-- Where the versions agree, a candidate that is not outdated is wanted, and saved as it is. -/
theorem Agree.wanted (h : Agree loaded new n) (hx : x ∈ candidates loaded new)
    (hcount : (candidates loaded new).countP (fun y => x.timestamp < y.timestamp) < n) :
    x ∈ union old new ∧ throughJson x = x := by
  rcases mem_candidates.mp hx with hx | ⟨hx, hunseen⟩
  · refine ⟨mem_union.mpr ?_, hwritten x (hload.mem x hx)⟩
    by_cases hid : x.msgId ∈ idsOf new
    · obtain ⟨m, hm, hsame⟩ := List.mem_map.mp hid
      have heq : x = m := by
        by_contra hne
        exact absurd (h.shared x hx m hm hsame.symm hne).1 (not_le.mpr hcount)
      exact Or.inl (heq ▸ hm)
    · exact Or.inr ⟨hload.mem x hx, hid⟩
  · refine ⟨mem_union.mpr (Or.inl hx), ?_⟩
    have htime : toDouble x.timestamp = x.timestamp := by
      by_contra hne
      exact absurd (h.held x hx hunseen hne) (not_le.mpr hcount)
    rw [throughJson, htime]

omit hnew hwritten in
/-- A wanted message that is no candidate is outdated. -/
theorem Agree.outdated (h : Agree loaded new n) (hm : m ∈ union old new)
    (hout : m ∉ candidates loaded new) :
    n ≤ (candidates loaded new).countP (fun x => m.timestamp ≤ x.timestamp) := by
  rcases mem_union.mp hm with hm | ⟨hm, _⟩
  · have hseen : m.msgId ∈ idsOf loaded := by
      by_contra hunseen
      exact hout (mem_candidates.mpr (Or.inr ⟨hm, hunseen⟩))
    obtain ⟨e, he, hsame⟩ := List.mem_map.mp hseen
    refine (h.shared e he m hm hsame ?_).2
    rintro rfl
    exact hout (mem_candidates.mpr (Or.inl he))
  · have hnot : m ∉ loaded := fun h => hout (mem_candidates.mpr (Or.inl h))
    rcases hload.whole with rfl | ⟨hlen, _⟩
    · exact absurd hm hnot
    · have hall : loaded.countP (fun x => m.timestamp ≤ x.timestamp) = loaded.length := by
        rw [List.countP_eq_length]
        intro x hx
        exact decide_eq_true (hload.newest m hm hnot x hx)
      rw [candidates, List.countP_append, hall]
      omega

omit hload hwritten in
theorem merged_eq (std : Sorter Earlier) (hnamed : ∀ m ∈ new, m.msgId ≠ []) :
    merged std loaded new n = (std.sort (candidates loaded new)).drop
      ((std.sort (candidates loaded new)).length - n) := by
  rw [merged_eq_drop, notSeen_eq_filter hnew hnamed, ← candidates, Int.toNat_natCast]

/-- What is saved where the versions agree. -/
theorem Agree.keeps (h : Agree loaded new n) (hold : (idsOf old).Nodup) (std : Sorter Earlier)
    (hnamed : ∀ m ∈ new, m.msgId ≠ []) :
    Kept old new ((merged std loaded new n).map throughJson) n := by
  have hsorted : (std.sort (candidates loaded new)).Pairwise
      (fun a b => a.timestamp ≤ b.timestamp) :=
    (std.sorted _).imp (fun h => not_lt.mp h)
  have hcount : ∀ p : FullMessage → Bool,
      (std.sort (candidates loaded new)).countP p = (candidates loaded new).countP p :=
    fun p => (std.perm _).countP_eq p
  have hmem : ∀ x ∈ merged std loaded new n, x ∈ union old new ∧ throughJson x = x := by
    intro x hx
    rw [merged_eq hnew std hnamed] at hx
    have hnewer := newer_lt_of_mem_last (fun m : FullMessage => m.timestamp) hsorted hx
    rw [hcount] at hnewer
    exact h.wanted hload hwritten (std.mem_sort.mp (List.mem_of_mem_drop hx)) hnewer
  rw [map_throughJson (fun x hx => (hmem x hx).2)]
  refine ⟨?_, idsOf_merged std _ hload.distinct, fun x hx => (hmem x hx).1, ?_, ?_, ?_⟩
  · rw [merged_eq hnew std hnamed]
    exact hsorted.sublist (List.drop_sublist _ _)
  · rw [merged_eq hnew std hnamed, List.length_drop, std.length_sort,
      ← min_length_candidates hload hnew hold]
    omega
  · intro u hu hout m hm
    rw [merged_eq hnew std hnamed] at hout hm
    by_cases hcand : u ∈ candidates loaded new
    · exact le_of_not_mem_last (fun m : FullMessage => m.timestamp) hsorted (std.mem_sort.mpr hcand)
        hout hm
    · have hmany := h.outdated hload hu hcand
      rw [← hcount] at hmany
      exact le_of_mem_last (fun m : FullMessage => m.timestamp) hsorted hmany hm
  · intro m hm k hk hid
    rcases mem_union.mp (hmem k hk).1 with hknew | ⟨_, hout⟩
    · exact eq_of_id hnew hknew hm hid
    · exact absurd (hid ▸ mem_idsOf hm) hout

/-- What was saved as it should be was saved as it is. -/
theorem kept_wanted {std : Sorter Earlier} (hnamed : ∀ m ∈ new, m.msgId ≠ [])
    (h : Kept old new ((merged std loaded new n).map throughJson) n)
    (hx : x ∈ merged std loaded new n) :
    x ∈ candidates loaded new ∧ x ∈ union old new ∧ throughJson x = x := by
  have hcand : x ∈ candidates loaded new := by
    rw [merged_eq hnew std hnamed] at hx
    exact std.mem_sort.mp (List.mem_of_mem_drop hx)
  have hunion := h.mem _ (List.mem_map_of_mem hx)
  have hsame := written_of_mem_union hload hwritten hnew hcand hunion
  rw [hsame] at hunion
  exact ⟨hcand, hunion, hsame⟩

omit hwritten in
/-- Of two versions the one that was loaded is a candidate. -/
theorem not_mem_merged {std : Sorter Earlier} (hnamed : ∀ m ∈ new, m.msgId ≠ [])
    (he : e ∈ loaded) (hid : e.msgId = m.msgId) (hne : e ≠ m) : m ∉ merged std loaded new n := by
  intro hin
  have hm := mem_of_mem_merged hin
  rw [notSeen_eq_filter hnew hnamed] at hm
  rcases mem_candidates.mp hm with hold | ⟨_, hunseen⟩
  · exact hne (eq_of_id hload.distinct he hold hid)
  · exact hunseen (hid ▸ mem_idsOf he)

omit hwritten in
/-- A message that may come last among those of its time is saved when less than `n` are newer. -/
theorem mem_merged_of_newer_lt (hnamed : ∀ m ∈ new, m.msgId ≠ []) (hx : x ∈ candidates loaded new)
    (hcount : (candidates loaded new).countP (fun y => x.timestamp < y.timestamp) < n) :
    x ∈ merged (lastSorter (fun m : FullMessage => m.timestamp) (fun _ _ => Iff.rfl) x)
      loaded new n := by
  have hnodup : (candidates loaded new).Nodup :=
    List.Nodup.of_map _ (idsOf_append_filter hload.distinct hnew)
  rw [merged_eq hnew _ hnamed]
  apply mem_last_of_newer_lt (fun m : FullMessage => m.timestamp) (lastSorter_sorted _ hnodup)
  · exact Sorter.mem_sort _ |>.mpr hx
  · rwa [(Sorter.perm _ _).countP_eq]

/-- Versions that do not agree are saved by some sort. -/
theorem agree_of_kept (hnamed : ∀ m ∈ new, m.msgId ≠ [])
    (h : ∀ std, Kept old new ((merged std loaded new n).map throughJson) n) :
    Agree loaded new n := by
  constructor
  · intro e he m hm hid hne
    have hcand : e ∈ candidates loaded new := mem_candidates.mpr (Or.inl he)
    constructor
    · by_contra hcount
      have hsaved := mem_merged_of_newer_lt hload hnew hnamed hcand (not_le.mp hcount)
      obtain ⟨_, hunion, _⟩ := kept_wanted hload hwritten hnew hnamed (h _) hsaved
      rcases mem_union.mp hunion with henew | ⟨_, hout⟩
      · exact hne (eq_of_id hnew henew hm hid)
      · exact hout (hid ▸ mem_idsOf hm)
    · have hright := h timeSorter
      rw [map_throughJson
        (fun x hx => (kept_wanted hload hwritten hnew hnamed hright hx).2.2)] at hright
      have hmany := hright.many (mem_union.mpr (Or.inl hm))
        (not_mem_merged hload hnew hnamed he hid hne)
      have hle : (merged timeSorter loaded new n).countP (fun x => m.timestamp ≤ x.timestamp) ≤
          (candidates loaded new).countP (fun x => m.timestamp ≤ x.timestamp) := by
        rw [merged_eq hnew timeSorter hnamed, ← (timeSorter.perm (candidates loaded new)).countP_eq]
        exact (List.drop_sublist _ _).countP_le
      omega
  · intro m hm hunseen hheld
    by_contra hcount
    have hcand : m ∈ candidates loaded new := mem_candidates.mpr (Or.inr ⟨hm, hunseen⟩)
    have hsaved := mem_merged_of_newer_lt hload hnew hnamed hcand (not_le.mp hcount)
    obtain ⟨_, _, hsame⟩ := kept_wanted hload hwritten hnew hnamed (h _) hsaved
    exact hheld (congrArg (fun m : FullMessage => m.timestamp) hsame)

end Merge

/-- The merge has done what it should, and touched no other conversation. -/
structure MergeRight (file file' : MessageFile) (chatId : Bytes) (chatType : Int)
    (newMessages : List FullMessage) (maxStored : Nat) : Prop where
  kept : Kept (stored file chatId chatType).messages newMessages
    (stored file' chatId chatType).messages maxStored
  others : ∀ chatId' chatType', ¬ (chatId' = chatId ∧ chatType' = chatType) →
    stored file' chatId' chatType' = stored file chatId' chatType'

/-- The merge has a result, and that is right. -/
def Merges (stdLoad std : Sorter Earlier) (file : MessageFile) (chatId : Bytes) (chatType : Int)
    (newMessages : List FullMessage) (maxStored : Nat) : Prop :=
  ∃ file', mergeAndSaveMessages stdLoad std file chatId chatType newMessages maxStored =
    some file' ∧ MergeRight file file' chatId chatType newMessages maxStored

/-- Whatever order the sort leaves equal times in, the merge does what it should exactly when twice
the limit is an `int` and the loaded messages and the new ones agree. -/
theorem mergeAndSaveMessages_right_iff (stdLoad : Sorter Earlier) (file : MessageFile)
    (chatId : Bytes) (chatType : Int) (newMessages : List FullMessage) (maxStored : Nat)
    (hdistinct : (idsOf newMessages).Nodup) (hnamed : ∀ m ∈ newMessages, m.msgId ≠ []) :
    (∀ std, Merges stdLoad std file chatId chatType newMessages maxStored) ↔
      Fits 32 (maxStored * 2) ∧
        Agree (loadMessages stdLoad file chatId chatType (maxStored * 2)) newMessages maxStored := by
  have hload := loaded_loadMessages stdLoad file chatId chatType (maxStored * 2)
  have htwice : ((maxStored : Int) * 2).toNat = maxStored * 2 := by omega
  rw [htwice] at hload
  constructor
  · intro h
    have hfits : Fits 32 (maxStored * 2) := by
      by_contra hover
      obtain ⟨file', hmerge, _⟩ := h timeSorter
      rw [mergeAndSaveMessages, checked_of_not_fits hover] at hmerge
      cases hmerge
    refine ⟨hfits, agree_of_kept hload (stored file chatId chatType).written hdistinct hnamed ?_⟩
    intro std
    obtain ⟨file', hmerge, hright⟩ := h std
    rw [mergeAndSaveMessages_of_fits hfits] at hmerge
    obtain rfl := Option.some.inj hmerge
    rw [← stored_merge_self]
    exact hright.kept
  · rintro ⟨hfits, hagree⟩ std
    refine ⟨_, mergeAndSaveMessages_of_fits hfits, ?_, ?_⟩
    · rw [stored_merge_self]
      exact hagree.keeps hload (stored file chatId chatType).written hdistinct
        (stored file chatId chatType).distinct std hnamed
    · intro chatId' chatType' hne
      exact stored_merge_other _ _ _ _ _ _ hne

/-- A message as it was first saved, and as the server has it after it was recalled. -/
def firstCopy : FullMessage :=
  { msgId := str "m_1", content := str "hi", timestamp := 1700000000000 }

def recalledCopy : FullMessage := { firstCopy with content := [], status := 1 }

def secondMessage : FullMessage := { msgId := str "m_2", timestamp := 1700000001000 }

/-- The file after the first save. -/
def firstFile : MessageFile :=
  mergeLoaded timeSorter timeSorter OrderedMap.empty (str "u_2") 1 [firstCopy] 1000 500

/-- The first message again, with the second. -/
theorem mergeAndSaveMessages_right_again :
    Merges timeSorter timeSorter firstFile (str "u_2") 1 [firstCopy, secondMessage] 500 := by
  have hloaded : loadMessages timeSorter firstFile (str "u_2") 1 ((500 : Nat) * 2) =
      [firstCopy] := by
    decide +kernel
  refine (mergeAndSaveMessages_right_iff timeSorter firstFile (str "u_2") 1
    [firstCopy, secondMessage] 500 (by decide) (by decide)).mpr ⟨by decide, ?_⟩ timeSorter
  rw [hloaded]
  exact ⟨by decide +kernel, by decide +kernel⟩

/-- The recalled message stays in the file as it was. -/
theorem mergeAndSaveMessages_stale : ¬ ∀ (stdLoad std : Sorter Earlier) (file : MessageFile)
    (chatId : Bytes) (chatType : Int) (newMessages : List FullMessage) (maxStored : Nat),
    (idsOf newMessages).Nodup → (∀ m ∈ newMessages, m.msgId ≠ []) → 1 ≤ maxStored →
    Fits 32 (maxStored * 2) →
    Merges stdLoad std file chatId chatType newMessages maxStored := by
  intro h
  obtain ⟨file', hmerge, hright⟩ := h timeSorter timeSorter firstFile (str "u_2") 1
    [recalledCopy] 500 (by decide) (by decide) (by decide) (by decide)
  rw [mergeAndSaveMessages_of_fits (by decide)] at hmerge
  obtain rfl := Option.some.inj hmerge
  have hkept : (stored (mergeLoaded timeSorter timeSorter firstFile (str "u_2") 1 [recalledCopy]
      ((500 : Nat) * 2) (500 : Nat)) (str "u_2") 1).messages = [firstCopy] := by
    decide +kernel
  have hcopy := hright.kept.copies recalledCopy List.mem_cons_self firstCopy
    (hkept ▸ List.mem_cons_self) rfl
  exact absurd hcopy (by decide)

end ChatStorage
end SwiftChat.Client
