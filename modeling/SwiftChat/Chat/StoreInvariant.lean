import SwiftChat.Chat.MessageStore

/-! What one write of the message store can do, and the shape of every store built by writes. -/
namespace SwiftChat.Chat
open Base
variable {U : Bytes → Prop} {M : MessageData → Prop} {db db' : MsgDb}
  {id id' u k : Bytes} {m m' : MessageData} {t : Int}

/-- The message with its recall mark set. -/
def MessageData.recalled (m : MessageData) (recallAt : Int) : MessageData :=
  { m with status := 1, recallAt := recallAt }

/-- The writes of the store: a new message with its timeline entry, a recall, an entry of an
offline queue, and the removal of such entries. -/
inductive Write (U : Bytes → Prop) (M : MessageData → Prop) (db : MsgDb) : MsgDb → Prop
  | none : Write U M db db
  | save {m : MessageData} (hid : m.msgId ≠ []) (hnew : db.get (keyMsg m.msgId) = Option.none)
      (hm : M m) :
      Write U M db ((db.put (keyMsg m.msgId) (.message m)).put
        (keyChat (timelineId m) m.timestamp m.msgId) .empty)
  | recalled {id : Bytes} {m : MessageData} (t : Int) (h : getById db id = some m) :
      Write U M db (db.put (keyMsg id) (.message (m.recalled t)))
  | enqueue {u id : Bytes} {m : MessageData} (hu : U u) (hne : u ≠ []) (h : getById db id = some m) :
      Write U M db (db.put (keyOffline u m.timestamp id) .empty)
  | dequeue {ks : List Bytes} (h : ∀ k ∈ ks, kOffline <+: k) : Write U M db (db.write (ks.map .delete))

theorem save_write (hm : M m) : Write U M db (save db m).1 := by
  unfold save
  split
  · exact .none
  · rename_i h
    push Not at h
    split
    · exact .none
    · rename_i hs
      exact .save h.1 (by simpa using hs) hm

/-- What `Save` writes for a new message. -/
theorem save_new (hid : m.msgId ≠ []) (hfrom : m.fromUserId ≠ [])
    (hnew : db.get (keyMsg m.msgId) = none) :
    (save db m).1 = (db.put (keyMsg m.msgId) (.message m)).put
      (keyChat (timelineId m) m.timestamp m.msgId) .empty := by
  simp [save, hid, hfrom, hnew]

theorem markRecalled_write : Write U M db (markRecalled db id t).1 := by
  unfold markRecalled
  cases h : getById db id with
  | none => exact .none
  | some m => exact .recalled t h

theorem addToOffline_write (hu : U u) : Write U M db (addToOffline db u id).1 := by
  unfold addToOffline
  split
  · exact .none
  · rename_i hne
    push Not at hne
    cases h : getById db id with
    | none => exact .none
    | some m => exact .enqueue hu hne.1 h

theorem kOffline_isPrefix_of_scan {e : Bytes × MsgValue} (h : e ∈ db.scan (prefixOffline u)) :
    kOffline <+: e.1 :=
  (kOffline_isPrefix u).trans (OrderedMap.mem_scan.mp (show (e.1, e.2) ∈ _ from h)).2

/-- The keys a call of `ClearOffline` deletes. -/
def clearBatch (db : MsgDb) (u id : Bytes) : List Bytes :=
  if u = [] then []
  else if id = [] then (db.scan (prefixOffline u)).map Prod.fst
  else match getById db id with
    | none => []
    | some w => clearedKeys db u w.timestamp

theorem clearOffline_eq (db : MsgDb) (u id : Bytes) :
    (clearOffline db u id).1 = db.write ((clearBatch db u id).map .delete) := by
  unfold clearOffline clearBatch
  split
  · rfl
  · split
    · rw [List.map_map]
      rfl
    · cases getById db id with
      | none => rfl
      | some w => rfl

/-- Clearing only deletes entries of the user's queue. -/
theorem clearBatch_scan (hk : k ∈ clearBatch db u id) :
    k ∈ (db.scan (prefixOffline u)).map Prod.fst := by
  unfold clearBatch at hk
  split at hk
  · cases hk
  · split at hk
    · exact hk
    · cases hw : getById db id with
      | none => simp [hw] at hk
      | some w =>
        rw [hw] at hk
        exact (List.mem_filter.mp hk).1

theorem clearBatch_under (hk : k ∈ clearBatch db u id) : prefixOffline u <+: k := by
  obtain ⟨e, he, rfl⟩ := List.mem_map.mp (clearBatch_scan hk)
  exact (OrderedMap.mem_scan.mp (show (e.1, e.2) ∈ _ from he)).2

theorem clearOffline_write : Write U M db (clearOffline db u id).1 := by
  rw [clearOffline_eq]
  exact .dequeue (fun k hk => (kOffline_isPrefix u).trans (clearBatch_under hk))

/-! The three key families do not meet: their first bytes differ. -/

theorem keyMsg_inj (h : keyMsg id = keyMsg id') : id = id' := List.append_cancel_left h

theorem head_of_isPrefix {p : Bytes} {b : UInt8} (hp : p.head? = some b) (h : p <+: k) :
    k.head? = some b := by
  obtain ⟨r, rfl⟩ := h
  rw [List.head?_append, hp]
  rfl

theorem head_keyMsg (id : Bytes) : (keyMsg id).head? = some 109 :=
  head_of_isPrefix (p := kMsg) (by decide) (List.prefix_append _ _)

theorem head_indexKey {index o : Bytes} {b : UInt8} (hb : index.head? = some b) :
    (indexKey index o t id).head? = some b := by
  refine head_of_isPrefix hb ⟨o ++ str ":" ++ revTs t ++ str ":" ++ id, ?_⟩
  simp [indexKey, List.append_assoc]

theorem head_keyChat {c : Bytes} : (keyChat c t id).head? = some 99 :=
  head_indexKey (by decide)

theorem head_keyOffline : (keyOffline u t id).head? = some 111 :=
  head_indexKey (by decide)

theorem keyMsg_ne_keyChat {c : Bytes} : keyMsg id' ≠ keyChat c t id := by
  intro h
  have := head_keyMsg id'
  simp [h, head_keyChat] at this

theorem keyMsg_ne_keyOffline : keyMsg id' ≠ keyOffline u t id := by
  intro h
  have := head_keyMsg id'
  simp [h, head_keyOffline] at this

theorem head_of_kOffline (h : kOffline <+: k) : k.head? = some 111 :=
  head_of_isPrefix (by decide) h

theorem head_of_kChat (h : kChat <+: k) : k.head? = some 99 :=
  head_of_isPrefix (by decide) h

/-! Lookups by message id after each kind of write. -/

theorem get_of_getById (h : getById db id = some m) :
    id ≠ [] ∧ db.get (keyMsg id) = some (.message m) := by
  unfold getById at h
  split at h
  · cases h
  · rename_i hne
    refine ⟨hne, ?_⟩
    split at h
    · rename_i hg
      rw [hg, Option.some.inj h]
    · cases h

theorem getById_congr (h : db'.get (keyMsg id) = db.get (keyMsg id)) :
    getById db' id = getById db id := by
  simp only [getById, h]

theorem getById_put_ne {v : MsgValue} (h : keyMsg id ≠ k) :
    getById (db.put k v) id = getById db id :=
  getById_congr (OrderedMap.get_put_ne h)

theorem getById_put_message {v : MessageData} :
    getById (db.put (keyMsg id) (.message v)) id' =
      if id' = id ∧ id ≠ [] then some v else getById db id' := by
  by_cases h : id' = id
  · subst h
    by_cases hne : id' = []
    · simp [getById, hne]
    · simp [getById, hne]
  · rw [getById_put_ne (fun he => h (keyMsg_inj he))]
    simp [h]

/-- The shape of a message database: every message is filed under its own id, and every index
entry belongs to a stored message. -/
structure WellFormed (U : Bytes → Prop) (M : MessageData → Prop) (db : MsgDb) : Prop where
  message : ∀ {id m}, getById db id = some m → m.msgId = id ∧ M m
  chat : ∀ {k v}, db.get k = some v → kChat <+: k →
    v = .empty ∧ ∃ m, getById db m.msgId = some m ∧
      k = keyChat (timelineId m) m.timestamp m.msgId
  indexed : ∀ {m}, getById db m.msgId = some m →
    db.get (keyChat (timelineId m) m.timestamp m.msgId) = some .empty
  offline : ∀ {k v}, db.get k = some v → kOffline <+: k →
    v = .empty ∧ ∃ u m, U u ∧ u ≠ [] ∧ getById db m.msgId = some m ∧
      k = keyOffline u m.timestamp m.msgId

theorem wellFormed_empty : WellFormed U M OrderedMap.empty where
  message h := by simp [getById] at h
  chat h := by simp at h
  indexed h := by simp [getById] at h
  offline h := by simp at h

theorem getById_dequeue {ks : List Bytes} (h : ∀ k ∈ ks, kOffline <+: k) :
    getById (db.write (ks.map .delete)) id = getById db id := by
  refine getById_congr ?_
  rw [OrderedMap.get_write_deletes, if_neg]
  intro hk
  have := head_of_kOffline (h _ hk)
  simp [head_keyMsg] at this

theorem getById_save (hid : m.msgId ≠ []) :
    getById ((db.put (keyMsg m.msgId) (.message m)).put
      (keyChat (timelineId m) m.timestamp m.msgId) .empty) id =
      if id = m.msgId then some m else getById db id := by
  rw [getById_put_ne keyMsg_ne_keyChat, getById_put_message]
  simp [hid]

/-- A stored message stays stored; only its recall mark can change. -/
theorem Write.keeps (hw : Write U M db db') (h : getById db id = some m) :
    getById db' id = some m ∨ ∃ t, getById db' id = some (m.recalled t) := by
  cases hw with
  | none => exact Or.inl h
  | save hid hnew hm =>
    rename_i n
    refine Or.inl ?_
    rw [getById_save hid, if_neg]
    · exact h
    · intro he
      have := (get_of_getById h).2
      rw [he, hnew] at this
      cases this
  | recalled t h' =>
    rename_i id' n
    rw [getById_put_message]
    by_cases he : id = id' ∧ id' ≠ []
    · rw [if_pos he]
      rw [← he.1, h] at h'
      exact Or.inr ⟨t, by rw [Option.some.inj h']⟩
    · rw [if_neg he]
      exact Or.inl h
  | enqueue hu hne h' => exact Or.inl (by rwa [getById_put_ne keyMsg_ne_keyOffline])
  | dequeue h' => exact Or.inl (by rwa [getById_dequeue h'])

/-- The same, for a message found under its own id. -/
theorem Write.keeps_header (hw : Write U M db db') (h : getById db m.msgId = some m) :
    ∃ m', getById db' m'.msgId = some m' ∧ m'.msgId = m.msgId ∧
      m'.timestamp = m.timestamp ∧ timelineId m' = timelineId m := by
  rcases hw.keeps h with h' | ⟨t, h'⟩
  · exact ⟨m, h', rfl, rfl, rfl⟩
  · exact ⟨m.recalled t, h', rfl, rfl, rfl⟩

/-- Every stored message was stored before, up to its recall mark, or is the one just saved. -/
theorem Write.origin (hw : Write U M db db') (h : getById db' id = some m') :
    getById db id = some m' ∨ (∃ m t, getById db id = some m ∧ m' = m.recalled t) ∨
      (id = m'.msgId ∧ M m' ∧
        db'.get (keyChat (timelineId m') m'.timestamp m'.msgId) = some .empty) := by
  cases hw with
  | none => exact Or.inl h
  | save hid hnew hm =>
    rename_i n
    rw [getById_save hid] at h
    by_cases he : id = n.msgId
    · rw [if_pos he] at h
      obtain rfl := Option.some.inj h
      exact Or.inr (Or.inr ⟨he, hm, OrderedMap.get_put_self⟩)
    · rw [if_neg he] at h
      exact Or.inl h
  | recalled t h' =>
    rename_i id' n
    rw [getById_put_message] at h
    by_cases he : id = id' ∧ id' ≠ []
    · rw [if_pos he] at h
      exact Or.inr (Or.inl ⟨n, t, he.1 ▸ h', (Option.some.inj h).symm⟩)
    · rw [if_neg he] at h
      exact Or.inl h
  | enqueue hu hne h' =>
    rw [getById_put_ne keyMsg_ne_keyOffline] at h
    exact Or.inl h
  | dequeue h' =>
    rw [getById_dequeue h'] at h
    exact Or.inl h

/-- Every index entry was there before, or belongs to the message the write is about. -/
theorem Write.new_key {v : MsgValue} (hw : Write U M db db') (hk : db'.get k = some v)
    (hidx : kChat <+: k ∨ kOffline <+: k) :
    db.get k = some v ∨ v = .empty ∧
      ((∃ m, getById db' m.msgId = some m ∧ k = keyChat (timelineId m) m.timestamp m.msgId) ∨
        ∃ u id m, U u ∧ u ≠ [] ∧ getById db id = some m ∧ k = keyOffline u m.timestamp id) := by
  have hnotMsg : ∀ id, k ≠ keyMsg id := by
    intro id he
    have hm := head_keyMsg id
    rcases hidx with h | h
    · simp [← he, head_of_kChat h] at hm
    · simp [← he, head_of_kOffline h] at hm
  cases hw with
  | none => exact Or.inl hk
  | save hid hnew hm =>
    rename_i n
    rw [OrderedMap.get_put] at hk
    by_cases he : k = keyChat (timelineId n) n.timestamp n.msgId
    · rw [if_pos he] at hk
      refine Or.inr ⟨(Option.some.inj hk).symm, Or.inl ⟨n, ?_, he⟩⟩
      rw [getById_save hid, if_pos rfl]
    · rw [if_neg he, OrderedMap.get_put_ne (hnotMsg _)] at hk
      exact Or.inl hk
  | recalled t h' =>
    rw [OrderedMap.get_put_ne (hnotMsg _)] at hk
    exact Or.inl hk
  | enqueue hu hne h' =>
    rename_i u id n
    rw [OrderedMap.get_put] at hk
    by_cases he : k = keyOffline u n.timestamp id
    · rw [if_pos he] at hk
      exact Or.inr ⟨(Option.some.inj hk).symm, Or.inr ⟨u, id, n, hu, hne, h', he⟩⟩
    · rw [if_neg he] at hk
      exact Or.inl hk
  | dequeue h' =>
    rw [OrderedMap.get_write_deletes] at hk
    split at hk
    · cases hk
    · exact Or.inl hk

/-- Timeline entries are never removed. -/
theorem Write.keeps_chat {c : Bytes} (hw : Write U M db db')
    (h : db.get (keyChat c t id) = some .empty) : db'.get (keyChat c t id) = some .empty := by
  cases hw with
  | none => exact h
  | save hid hnew hm =>
    rw [OrderedMap.get_put, OrderedMap.get_put_ne keyMsg_ne_keyChat.symm, h]
    simp
  | recalled t h' => rwa [OrderedMap.get_put_ne keyMsg_ne_keyChat.symm]
  | enqueue hu hne h' =>
    rw [OrderedMap.get_put, h]
    simp
  | dequeue h' =>
    rw [OrderedMap.get_write_deletes, if_neg, h]
    intro hk
    have := head_of_kOffline (h' _ hk)
    simp [head_keyChat] at this

theorem Write.wellFormed (hM : ∀ m t, M m → M (m.recalled t)) (hw : Write U M db db')
    (h : WellFormed U M db) : WellFormed U M db' where
  message := by
    intro id m hg
    rcases hw.origin hg with hold | ⟨m, t, hold, rfl⟩ | ⟨he, hm, _⟩
    · exact h.message hold
    · exact ⟨(h.message hold).1, hM _ _ (h.message hold).2⟩
    · exact ⟨he.symm, hm⟩
  chat := by
    intro k v hk hp
    rcases hw.new_key hk (Or.inl hp) with hk | ⟨hv, hm | ⟨u, id, m, _, _, _, he⟩⟩
    · obtain ⟨hv, m, hg, rfl⟩ := h.chat hk hp
      obtain ⟨m', hg', hid, hts, htl⟩ := hw.keeps_header hg
      exact ⟨hv, m', hg', by rw [hid, hts, htl]⟩
    · exact ⟨hv, hm⟩
    · have := head_of_kChat hp
      simp [he, head_keyOffline] at this
  indexed := by
    intro m hg
    rcases hw.origin hg with hold | ⟨m, t, hold, rfl⟩ | ⟨_, _, hk⟩
    · exact hw.keeps_chat (h.indexed hold)
    · exact hw.keeps_chat (h.indexed (m := m) hold)
    · exact hk
  offline := by
    intro k v hk hp
    rcases hw.new_key hk (Or.inr hp) with hk | ⟨hv, ⟨m, _, he⟩ | ⟨u, id, m, hu, hne, hg, rfl⟩⟩
    · obtain ⟨hv, u, m, hu, hne, hg, rfl⟩ := h.offline hk hp
      obtain ⟨m', hg', hid, hts, _⟩ := hw.keeps_header hg
      exact ⟨hv, u, m', hu, hne, hg', by rw [hid, hts]⟩
    · have := head_of_kOffline hp
      simp [he, head_keyChat] at this
    · obtain ⟨rfl, _⟩ := h.message hg
      obtain ⟨m', hg', hid, hts, _⟩ := hw.keeps_header hg
      exact ⟨hv, u, m', hu, hne, hg', by rw [hid, hts]⟩

end SwiftChat.Chat
