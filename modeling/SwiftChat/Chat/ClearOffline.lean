import SwiftChat.Chat.OfflinePaging

/-! What clearing an offline queue deletes, and what it leaves in the store. -/
namespace SwiftChat.Chat
open Base
variable {db : MsgDb} {u w id id' k : Bytes} {m : MessageData}

/-- A call with `id` clears the message: every one, or those up to a known one. -/
def UpTo (db : MsgDb) (id : Bytes) (m : MessageData) : Prop :=
  id = [] ∨ ∃ w, getById db id = some w ∧ m.timestamp ≤ w.timestamp

theorem upTo_known {w : MessageData} (hw : getById db id = some w) :
    UpTo db id m ↔ m.timestamp ≤ w.timestamp := by
  simp [UpTo, (get_of_getById hw).1, hw]

theorem upTo_unknown (hw : getById db id = none) (hne : id ≠ []) : ¬ UpTo db id m := by
  simp [UpTo, hne, hw]

theorem clearOffline_get :
    (clearOffline db u id).1.get k = if k ∈ clearBatch db u id then none else db.get k := by
  rw [clearOffline_eq, OrderedMap.get_write_deletes]
  congr

theorem clearOffline_getById : getById (clearOffline db u id).1 id' = getById db id' := by
  rw [clearOffline_eq]
  exact getById_dequeue (fun k hk => (kOffline_isPrefix u).trans (clearBatch_under hk))

/-- The loop reads the timestamp of an entry out of its key. -/
theorem mem_clearedKeys {until_ : Int} (hm : Queued db u m) (ht : InRange m.timestamp) :
    keyOffline u m.timestamp m.msgId ∈ clearedKeys db u until_ ↔ m.timestamp ≤ until_ := by
  have hrev : maxTs - revOf m.timestamp = m.timestamp := by
    rw [revOf_of_inRange ht]
    omega
  have hparse := hm.resolves.parse
  simp only [clearedKeys, List.mem_filter, List.mem_map, hparse, stoll_revTs, hrev,
    decide_eq_true_eq]
  exact ⟨fun h => h.2, fun h => ⟨⟨_, hm.mem_scan, rfl⟩, h⟩⟩

/-- The entry of a queued message is deleted exactly when the call clears the message. -/
theorem mem_clearBatch (hm : Queued db u m) (ht : InRange m.timestamp) :
    keyOffline u m.timestamp m.msgId ∈ clearBatch db u id ↔ u ≠ [] ∧ UpTo db id m := by
  by_cases hu : u = []
  · simp [clearBatch, hu]
  · by_cases hid : id = []
    · simp only [clearBatch, hu, hid, if_false, if_true]
      exact ⟨fun _ => ⟨hu, Or.inl rfl⟩, fun _ => List.mem_map.mpr ⟨_, hm.mem_scan, rfl⟩⟩
    · simp only [clearBatch, hu, hid, if_false]
      cases hw : getById db id with
      | none => simp [upTo_unknown hw hid]
      | some w => simp [mem_clearedKeys hm ht, upTo_known hw, hu]

/-- What is left of a queue. -/
theorem queued_clearOffline (ht : ∀ id m, getById db id = some m → InRange m.timestamp)
    (hu : u ≠ []) :
    Queued (clearOffline db u id).1 u m ↔ Queued db u m ∧ ¬ UpTo db id m := by
  unfold Queued
  rw [clearOffline_getById, clearOffline_get]
  constructor
  · rintro ⟨hg, hk⟩
    split at hk
    · cases hk
    · rename_i hnot
      have hq : Queued db u m := ⟨hg, hk⟩
      rw [mem_clearBatch hq (ht _ _ hg)] at hnot
      exact ⟨hq, fun h => hnot ⟨hu, h⟩⟩
  · rintro ⟨hq, hnew⟩
    refine ⟨hq.1, ?_⟩
    rw [if_neg]
    · exact hq.2
    · rw [mem_clearBatch hq (ht _ _ hq.1)]
      exact fun h => hnew h.2

/-- The queues of other users are not touched. -/
theorem queued_clearOther (hu : colon ∉ u) (hw : colon ∉ w) (hne : w ≠ u) :
    Queued (clearOffline db w id).1 u m ↔ Queued db u m := by
  have hnot : keyOffline u m.timestamp m.msgId ∉ clearBatch db w id :=
    fun hk => hne (owner_eq_of_isPrefix hw hu (clearBatch_under hk))
  rw [Queued, clearOffline_getById, clearOffline_get, if_neg hnot]
  exact Iff.rfl

/-- In a plain store only entries of queued messages are deleted. -/
theorem queued_of_clearBatch (hdb : PlainStore db) (hu : colon ∉ u) (hk : k ∈ clearBatch db u id) :
    ∃ m, Queued db u m ∧ UpTo db id m ∧ k = keyOffline u m.timestamp m.msgId := by
  obtain ⟨e, he, rfl⟩ := List.mem_map.mp (clearBatch_scan hk)
  obtain ⟨_, m, hr⟩ := resolves_of_mem_scan hdb hu he
  have hq := hr.queued hdb he
  rw [hr.2, mem_clearBatch hq (hdb.message hq.1).2] at hk
  exact ⟨m, hq, hk.2, hr.2⟩

/-- From one store to the other exactly the entries of `u` for the messages in `gone` are deleted;
every other key keeps its value, and every other user his queue. -/
structure ClearedExactly (db db' : MsgDb) (u : Bytes) (gone : MessageData → Prop) : Prop where
  deleted : ∀ m, Queued db u m → gone m → db'.get (keyOffline u m.timestamp m.msgId) = none
  kept : ∀ k, (∀ m, Queued db u m → gone m → k ≠ keyOffline u m.timestamp m.msgId) →
    db'.get k = db.get k
  queues : ∀ v, colon ∉ v → ∀ m, Queued db' v m ↔ Queued db v m ∧ ¬ (v = u ∧ gone m)

theorem clearOffline_clears (hdb : PlainStore db) (hu : colon ∉ u) (id : Bytes) :
    ClearedExactly db (clearOffline db u id).1 u (UpTo db id) where
  deleted m hm hgone := by
    rw [clearOffline_get, if_pos]
    exact (mem_clearBatch hm (hdb.message hm.1).2).mpr ⟨user_ne_nil hdb hu hm, hgone⟩
  kept k hk := by
    rw [clearOffline_get, if_neg]
    intro hmem
    obtain ⟨m, hm, hgone, he⟩ := queued_of_clearBatch hdb hu hmem
    exact hk m hm hgone he
  queues v hv m := by
    by_cases hvu : v = u
    · subst hvu
      by_cases hne : v = []
      · -- the empty user id has no queue, and its call does nothing
        have hsame : (clearOffline db v id).1 = db := by simp [clearOffline, hne]
        rw [hsame]
        exact ⟨fun hm => absurd hne (user_ne_nil hdb hv hm), fun h => h.1⟩
      · rw [queued_clearOffline (fun _ _ hm => (hdb.message hm).2) hne]
        simp
    · rw [queued_clearOther hv hu (Ne.symm hvu)]
      simp [hvu]

/-- In any offline store, clearing up to a stored message deletes the entries of the user that are
not newer, and nothing else; without an id it deletes exactly all entries of the user. -/
theorem clearOffline_exact (ops : List StoreOp) (hops : ∀ op ∈ ops, op.Ok) (u : Bytes)
    (hu : colon ∉ u) :
    (∀ id w, getById (storeAfter ops) id = some w →
      ClearedExactly (storeAfter ops) (clearOffline (storeAfter ops) u id).1 u
        (fun m => m.timestamp ≤ w.timestamp)) ∧
    ClearedExactly (storeAfter ops) (clearOffline (storeAfter ops) u []).1 u (fun _ => True) ∧
    (∀ k, prefixOffline u <+: k → (clearOffline (storeAfter ops) u []).1.get k = none) := by
  have hdb := plainStore_after hops
  refine ⟨?_, ?_, ?_⟩
  · intro id w hw
    have hup : UpTo (storeAfter ops) id = fun m => m.timestamp ≤ w.timestamp :=
      funext fun _ => propext (upTo_known hw)
    rw [← hup]
    exact clearOffline_clears hdb hu id
  · have hup : UpTo (storeAfter ops) [] = fun _ => True :=
      funext fun _ => eq_true (Or.inl rfl)
    rw [← hup]
    exact clearOffline_clears hdb hu []
  · intro k hk
    rw [clearOffline_get]
    split
    · rfl
    · rename_i hnot
      cases hv : (storeAfter ops).get k with
      | none => rfl
      | some v =>
        have hscan : (k, v) ∈ (storeAfter ops).scan (prefixOffline u) :=
          OrderedMap.mem_scan.mpr ⟨hv, hk⟩
        have hne := (resolves_of_mem_scan hdb hu hscan).1
        refine absurd ?_ hnot
        simp only [clearBatch, hne, if_false, if_true]
        exact List.mem_map.mpr ⟨_, hscan, rfl⟩

def queueMessage (id : Bytes) (timestamp : Int) : MessageData :=
  { msgId := id, fromUserId := str "a", toId := str "b", timestamp := timestamp }

/-- An older and a newer message wait for `b` and for `ba`. -/
def nestedUsers : List StoreOp :=
  [.save (queueMessage (str "x") 5), .save (queueMessage (str "y") 7),
    .addToOffline (str "b") (str "x"), .addToOffline (str "b") (str "y"),
    .addToOffline (str "ba") (str "x"), .addToOffline (str "ba") (str "y")]

theorem clearOffline_exact_nested :
    ¬ Queued (clearOffline (storeAfter nestedUsers) (str "b") (str "x")).1 (str "b")
      (queueMessage (str "x") 5) ∧
    Queued (clearOffline (storeAfter nestedUsers) (str "b") (str "x")).1 (str "b")
      (queueMessage (str "y") 7) ∧
    Queued (clearOffline (storeAfter nestedUsers) (str "b") []).1 (str "ba")
      (queueMessage (str "x") 5) := by
  obtain ⟨huntil, hall, _⟩ := clearOffline_exact nestedUsers (by decide) (str "b") (by decide)
  have hx := huntil (str "x") (queueMessage (str "x") 5) (by decide +kernel)
  refine ⟨?_, ?_, ?_⟩
  · rw [hx.queues (str "b") (by decide)]
    exact fun h => h.2 ⟨rfl, le_rfl⟩
  · rw [hx.queues (str "b") (by decide)]
    exact ⟨by decide +kernel, by decide⟩
  · rw [hall.queues (str "ba") (by decide)]
    exact ⟨by decide +kernel, by decide⟩

end SwiftChat.Chat
