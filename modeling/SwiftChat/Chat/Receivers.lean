import SwiftChat.Chat.ChatRun
import SwiftChat.Chat.OfflinePaging

/-! Who finds a new message in the offline queue. -/
namespace SwiftChat.Chat
open Base
variable {T : Int → Prop} {U : Bytes → Prop} {M : MessageData → Prop} {db : MsgDb} {groups : GroupDb}
  {s : ChatState} {g k u w a b id id' : Bytes} {v : GroupValue} {t t' now : Int} {m : MessageData}
  {ct : ChatType} {draft : ChatService.Draft} {r : RandomString 16}

theorem keyOffline_inj_user (h : keyOffline w t id = keyOffline u t id) : w = u := by
  simp only [keyOffline, indexKey, List.append_assoc] at h
  exact List.append_cancel_right (List.append_cancel_left h)

theorem keyOffline_inj_id (hlen : id.length = id'.length)
    (h : keyOffline w t id = keyOffline u t' id') : id = id' :=
  List.append_inj_right' h hlen

theorem keyChat_ne_keyOffline {c : Bytes} : keyChat c t' id' ≠ keyOffline u t id := by
  intro h
  have hhead : (keyChat c t' id').head? = some 99 := head_keyChat
  simp [h, head_keyOffline] at hhead

theorem kOffline_isPrefix_keyOffline (u : Bytes) (t : Int) (id : Bytes) :
    kOffline <+: keyOffline u t id := by
  simp only [keyOffline, indexKey, List.append_assoc]
  exact List.prefix_append _ _

/-- A message that is not stored has no entry in any queue. -/
theorem no_entry_of_new (h : WellFormed U M db) (hM : ∀ m, M m → m.msgId.length = id.length)
    (hnew : getById db id = none) : db.get (keyOffline u t id) = none := by
  cases hv : db.get (keyOffline u t id) with
  | none => rfl
  | some v =>
    obtain ⟨_, w, m, _, _, hm, hkey⟩ := h.offline hv (kOffline_isPrefix_keyOffline u t id)
    have hid : m.msgId = id := keyOffline_inj_id (hM m (h.message hm).2) hkey.symm
    rw [hid, hnew] at hm
    cases hm

theorem addToOffline_get (hm : getById db m.msgId = some m) :
    getById (addToOffline db u m.msgId).1 m.msgId = some m ∧
      ((addToOffline db u m.msgId).1.get (keyOffline w m.timestamp m.msgId) = some .empty ↔
        w = u ∧ w ≠ [] ∨ db.get (keyOffline w m.timestamp m.msgId) = some .empty) := by
  have hid := (get_of_getById hm).1
  by_cases hu : u = []
  · simp only [addToOffline, hu, true_or, if_true]
    refine ⟨hm, ?_⟩
    constructor
    · exact Or.inr
    · rintro (⟨hw, hne⟩ | h)
      · exact absurd hw hne
      · exact h
  · simp only [addToOffline, hu, hid, or_self, if_false, hm]
    refine ⟨?_, ?_⟩
    · rw [getById_put_ne keyMsg_ne_keyOffline]
      exact hm
    · by_cases he : w = u
      · simp [he, hu]
      · rw [OrderedMap.get_put_ne (fun hk => he (keyOffline_inj_user hk))]
        simp [he]

/-- The loop over the receivers adds an entry for each that has an id. -/
theorem foldl_addToOffline_get (us : List Bytes) (hm : getById db m.msgId = some m) :
    getById (us.foldl (fun db u => (addToOffline db u m.msgId).1) db) m.msgId = some m ∧
      ((us.foldl (fun db u => (addToOffline db u m.msgId).1) db).get
        (keyOffline w m.timestamp m.msgId) = some .empty ↔
        w ∈ us ∧ w ≠ [] ∨ db.get (keyOffline w m.timestamp m.msgId) = some .empty) := by
  induction us generalizing db with
  | nil => exact ⟨hm, by simp⟩
  | cons u us ih =>
    obtain ⟨hm', hget⟩ := addToOffline_get (u := u) (w := w) hm
    obtain ⟨hfound, hentry⟩ := ih hm'
    refine ⟨hfound, ?_⟩
    rw [List.foldl_cons, hentry, hget, List.mem_cons]
    constructor
    · rintro (⟨hw, hne⟩ | ⟨hw, hne⟩ | hold)
      · exact Or.inl ⟨Or.inr hw, hne⟩
      · exact Or.inl ⟨Or.inl hw, hne⟩
      · exact Or.inr hold
    · rintro (⟨hw | hw, hne⟩ | hold)
      · exact Or.inr (Or.inl ⟨hw, hne⟩)
      · exact Or.inl ⟨hw, hne⟩
      · exact Or.inr (Or.inr hold)

/-- A new message is stored before it is distributed, and stays stored. -/
theorem distribute_stored (metas : ConvMetaDb) (ct : ChatType) (hid : m.msgId ≠ [])
    (hfrom : m.fromUserId ≠ []) (hnew : s.msgs.get (keyMsg m.msgId) = none) :
    getById (ChatService.distribute { s with metas := metas, msgs := (save s.msgs m).1 } m ct).msgs
      m.msgId = some m := by
  rw [distribute_msgs, save_new hid hfrom hnew]
  refine (foldl_addToOffline_get (w := []) _ ?_).1
  rw [getById_save hid, if_pos rfl]

/-- Its receivers have it in their queues, and nobody else. -/
theorem distribute_queued (metas : ConvMetaDb) (ct : ChatType) (h : ChatOk T s)
    (hlen : m.msgId.length = 18) (hfrom : m.fromUserId ≠ [])
    (hnew : s.msgs.get (keyMsg m.msgId) = none) (u : Bytes) :
    Queued (ChatService.distribute { s with metas := metas, msgs := (save s.msgs m).1 } m ct).msgs u m ↔
      u ∈ ChatService.receivers s.groups m.fromUserId m.toId ct ∧ u ≠ [] := by
  have hid : m.msgId ≠ [] := by
    intro hnil
    rw [hnil] at hlen
    cases hlen
  have hstored : getById (save s.msgs m).1 m.msgId = some m := by
    rw [save_new hid hfrom hnew, getById_save hid, if_pos rfl]
  have hbefore : (save s.msgs m).1.get (keyOffline u m.timestamp m.msgId) = none := by
    rw [save_new hid hfrom hnew, OrderedMap.get_put_ne keyChat_ne_keyOffline.symm,
      OrderedMap.get_put_ne keyMsg_ne_keyOffline.symm]
    refine no_entry_of_new h.msgs ?_ ?_
    · intro m' hm'
      rw [hm'.id_length, hlen]
    · simp [getById, hid, hnew]
  obtain ⟨hfound, hentry⟩ := foldl_addToOffline_get (w := u)
    (ChatService.receivers s.groups m.fromUserId m.toId ct) hstored
  rw [distribute_msgs, Queued, hentry, hbefore]
  simp [hfound]

theorem addToOffline_get_other (hk : ¬ kOffline <+: k) :
    (addToOffline db u id).1.get k = db.get k := by
  unfold addToOffline
  split
  · rfl
  · cases getById db id with
    | none => rfl
    | some m =>
      apply OrderedMap.get_put_ne
      rintro rfl
      exact hk (kOffline_isPrefix_keyOffline _ _ _)

theorem foldl_addToOffline_get_other {us : List Bytes} (hk : ¬ kOffline <+: k) :
    (us.foldl (fun db u => (addToOffline db u id).1) db).get k = db.get k := by
  induction us generalizing db with
  | nil => rfl
  | cons u us ih => rw [List.foldl_cons, ih, addToOffline_get_other hk]

/-- Besides the queues, a send writes the record of the new message and its timeline entry. -/
theorem send_get_other (hk : ¬ kOffline <+: k) (hmsg : k ≠ keyMsg (ChatService.generateMsgId r))
    (hchat : k ≠ keyChat (conversationOf a b ct) now (ChatService.generateMsgId r)) :
    (ChatService.sendMessage s a b ct draft r now).1.msgs.get k = s.msgs.get k := by
  obtain ⟨metas, ⟨_, hs⟩ | ⟨_, ha, hb, _, hnew, hs⟩⟩ := sendMessage_cases s a b ct draft r now
  · rw [hs]
  · have htl : timelineId (ChatService.newMessage a b (conversationOf a b ct) ct draft r now) =
        conversationOf a b ct := if_neg (conversationOf_ne_nil hb)
    rw [hs, distribute_msgs, foldl_addToOffline_get_other hk,
      save_new (generateMsgId_ne_nil r) ha hnew, htl]
    exact (OrderedMap.get_put_ne hchat).trans (OrderedMap.get_put_ne hmsg)

theorem send_getById_other (hid : id ≠ ChatService.generateMsgId r) :
    getById (ChatService.sendMessage s a b ct draft r now).1.msgs id = getById s.msgs id := by
  refine getById_congr (send_get_other ?_ (fun he => hid (keyMsg_inj he)) keyMsg_ne_keyChat)
  intro hp
  have := head_of_kOffline hp
  simp [head_keyMsg] at this

/-- A message that is sent is new, and it is stored. -/
theorem send_stored (hok : (ChatService.sendMessage s a b ct draft r now).2.success = true) :
    getById s.msgs (ChatService.generateMsgId r) = none ∧
      getById (ChatService.sendMessage s a b ct draft r now).1.msgs (ChatService.generateMsgId r) =
        some (ChatService.newMessage a b (conversationOf a b ct) ct draft r now) := by
  obtain ⟨metas, ⟨hfail, _⟩ | ⟨_, ha, _, _, hnew, hs⟩⟩ := sendMessage_cases s a b ct draft r now
  · rw [hfail] at hok
    cases hok
  · refine ⟨by simp [getById, hnew], ?_⟩
    rw [hs]
    exact distribute_stored (m := ChatService.newMessage a b (conversationOf a b ct) ct draft r now)
      metas ct (generateMsgId_ne_nil r) ha hnew

/-- It is queued for its receivers. -/
theorem send_queued (h : ChatOk T s)
    (hok : (ChatService.sendMessage s a b ct draft r now).2.success = true) (u : Bytes) :
    Queued (ChatService.sendMessage s a b ct draft r now).1.msgs u
        (ChatService.newMessage a b (conversationOf a b ct) ct draft r now) ↔
      u ∈ ChatService.receivers s.groups a b ct ∧ u ≠ [] := by
  obtain ⟨metas, ⟨hfail, _⟩ | ⟨_, ha, _, _, hnew, hs⟩⟩ := sendMessage_cases s a b ct draft r now
  · rw [hfail] at hok
    cases hok
  · rw [hs]
    exact distribute_queued (m := ChatService.newMessage a b (conversationOf a b ct) ct draft r now)
      metas ct h (length_generateMsgId r) ha hnew u

/-- A result: the id and the time of the message, or an error text. -/
def ChatService.SendResult.Reports (x : ChatService.SendResult) (r : RandomString 16)
    (now : Int) : Prop :=
  (x.success = true ∧ x.msgId = ChatService.generateMsgId r ∧ x.timestamp = now) ∨
    (x.success = false ∧ x.error ≠ [])

theorem sendTo_reports (s : ChatState) (c : Bytes) :
    (ChatService.sendTo s a b c ct draft r now).2.Reports r now := by
  simp only [ChatService.sendTo]
  split
  · exact Or.inr ⟨rfl, show str "save failed" ≠ [] by decide⟩
  · exact Or.inl ⟨rfl, rfl, rfl⟩

theorem sendMessage_reports :
    (ChatService.sendMessage s a b ct draft r now).2.Reports r now := by
  unfold ChatService.sendMessage
  split
  · exact Or.inr ⟨rfl, show str "invalid params" ≠ [] by decide⟩
  · cases ct with
    | priv => exact sendTo_reports _ _
    | group =>
      simp only
      split
      · exact Or.inr ⟨rfl, show str "not a group member" ≠ [] by decide⟩
      · exact sendTo_reports _ _

/-! The members of a group that a message goes to. -/

/-- Every membership record is stored under the key of a group and of the user it names. -/
def MembersNamed (db : GroupDb) : Prop :=
  ∀ k x, db.get k = some (.member x) →
    x.userId ≠ [] ∧ ∃ g, IsGroupId g ∧ k = keyGroupMember g x.userId

theorem membersNamed_empty : MembersNamed OrderedMap.empty := by
  intro k x hx
  simp at hx

theorem MembersNamed.shrink {db' : GroupDb} (h : MembersNamed groups)
    (hkeep : ∀ k v, db'.get k = some v → groups.get k = some v) : MembersNamed db' :=
  fun k x hx => h k x (hkeep k _ hx)

theorem MembersNamed.delete (h : MembersNamed groups) : MembersNamed (groups.delete k) := by
  apply h.shrink
  intro k' v hv
  exact (OrderedMap.get_delete_some hv).2

theorem MembersNamed.drop {ids : List Bytes} (h : MembersNamed groups) :
    MembersNamed (groups.write (GroupStore.dropMembers g ids)) := by
  apply h.shrink
  intro k v hv
  rw [get_dropMembers] at hv
  split at hv
  · cases hv
  · exact hv

theorem MembersNamed.put (h : MembersNamed groups)
    (hv : ∀ x, v = .member x → x.userId ≠ [] ∧ ∃ g, IsGroupId g ∧ k = keyGroupMember g x.userId) :
    MembersNamed (groups.put k v) := by
  intro k' x hx
  rcases OrderedMap.get_put_some hx with ⟨rfl, rfl⟩ | ⟨_, hold⟩
  · exact hv x rfl
  · exact h k' x hold

theorem MembersNamed.put_group (h : MembersNamed groups) (data : GroupData) :
    MembersNamed (groups.put k (.group data)) := by
  apply h.put
  rintro x hx
  cases hx

theorem MembersNamed.put_empty (h : MembersNamed groups) : MembersNamed (groups.put k .empty) := by
  apply h.put
  rintro x hx
  cases hx

theorem MembersNamed.call {db' : GroupDb} (h : MembersNamed groups) (hok : GroupsOk groups)
    (hc : StoreCall groups db') : MembersNamed db' := by
  cases hc.write with
  | none => exact h
  | create _ => exact h.put_group _
  | record _ => exact h.put_group _
  | delete => exact h.delete.drop
  | dissolve _ => exact (h.put_group _).drop
  | @add g _ _ m hg hw =>
    refine ((h.put ?_).put_empty).put_group _
    rintro x hx
    obtain rfl := GroupValue.member.inj hx
    exact ⟨hw, g, hok.of_getGroup hg, rfl⟩
  | remove _ => exact h.delete.delete.put_group _
  | @role g w m _ hm =>
    refine h.put ?_
    rintro x hx
    obtain rfl := GroupValue.member.inj hx
    exact h _ m (get_of_getMember hm)

theorem MembersNamed.calls {db' : GroupDb} (h : MembersNamed groups) (hok : GroupsOk groups)
    (hc : StoreCalls groups db') : MembersNamed db' := by
  induction hc with
  | refl => exact h
  | tail hpast hstep ih => exact ih.call (hok.calls hpast) hstep

theorem chatAfter_membersNamed (ops : List ChatOp) : MembersNamed (chatAfter ops).groups :=
  membersNamed_empty.calls groupsOk_empty (chatAfter_groups ops)

/-- The membership record of an entry. -/
def memberOf (e : Bytes × GroupValue) : Option GroupMemberData :=
  match e.2 with
  | .member x => some x
  | _ => none

theorem value_of_memberOf {e : Bytes × GroupValue} {x : GroupMemberData}
    (h : memberOf e = some x) : e.2 = .member x := by
  unfold memberOf at h
  split at h
  · rename_i hv
    rw [hv, Option.some.inj h]
  · cases h

/-- What a scan for the members of `g` finds is filed under the user it names, in a group that the
prefix of the scan decides. -/
theorem MembersNamed.scan (h : MembersNamed groups) {e : Bytes × GroupValue} {x : GroupMemberData}
    (he : e ∈ groups.scan (prefixGroupMember g)) (hx : memberOf e = some x) :
    x.userId ≠ [] ∧ ∃ g', IsGroupId g' ∧ e.1 = keyGroupMember g' x.userId ∧
      g ++ [colon] <+: g' ++ colon :: x.userId := by
  obtain ⟨key, v⟩ := e
  obtain rfl : v = .member x := value_of_memberOf hx
  obtain ⟨hget, rest, hrest⟩ := OrderedMap.mem_scan.mp he
  obtain ⟨hne, g', hid, hkey⟩ := h key x hget
  refine ⟨hne, g', hid, hkey, rest, ?_⟩
  rw [hkey] at hrest
  simp only [prefixGroupMember, keyGroupMember, str_colon, List.append_assoc] at hrest
  simpa using List.append_cancel_left hrest

/-- No user is listed twice. -/
theorem MembersNamed.nodup (h : MembersNamed groups) :
    ((GroupStore.allMembers groups g).map GroupMemberData.userId).Nodup := by
  rw [show GroupStore.allMembers groups g =
    (groups.scan (prefixGroupMember g)).filterMap memberOf from rfl, List.map_filterMap]
  refine List.pairwise_filterMap.mpr (OrderedMap.scan_pairwise.imp_of_mem ?_)
  rintro d e hd he hlt u hu w hw rfl
  obtain ⟨x, hx, rfl⟩ := Option.map_eq_some_iff.mp hu
  obtain ⟨y, hy, hsame⟩ := Option.map_eq_some_iff.mp hw
  obtain ⟨_, g₁, hid₁, hkey₁, hp₁⟩ := h.scan hd hx
  obtain ⟨_, g₂, hid₂, hkey₂, hp₂⟩ := h.scan he hy
  have hgroup : g₁ = g₂ := sep_head_unique hid₁.2 hid₂.2 hp₁ hp₂
  rw [hkey₁, hkey₂, hgroup, hsame] at hlt
  exact lt_irrefl _ hlt

/-- The first page of the members of a group. -/
theorem getMembers_first {n : Int} (hg : g ≠ []) (hn : 0 < n) :
    (GroupStore.getMembers groups g 0 n).1 = (GroupStore.allMembers groups g).take n.toNat := by
  have hsize : ¬ n ≤ 0 := by omega
  simp only [GroupStore.getMembers, hg, hsize, if_false, Int.le_refl, if_true, Int.sub_self,
    Int.zero_mul]
  split
  · rename_i hempty
    have : GroupStore.allMembers groups g = [] := List.length_eq_zero_iff.mp (by omega)
    rw [this, List.take_nil]
  · rw [show (0 : Int).toNat = 0 from rfl, List.drop_zero, List.take_eq_take_iff]
    omega

theorem otherMembers_eq (hg : g ≠ []) : ChatService.otherMembers groups g a =
    (((GroupStore.allMembers groups g).map GroupMemberData.userId).take 1000).filter (· ≠ a) := by
  rw [ChatService.otherMembers, getMembers_first hg (by decide), List.map_take]
  rfl

theorem MembersNamed.other_ne_nil (h : MembersNamed groups) (hg : g ≠ [])
    (hu : u ∈ ChatService.otherMembers groups g a) : u ≠ [] := by
  rw [otherMembers_eq hg] at hu
  obtain ⟨x, hx, rfl⟩ := List.mem_map.mp (List.mem_of_mem_take (List.mem_filter.mp hu).1)
  obtain ⟨e, he, hex⟩ := List.mem_filterMap.mp hx
  exact (h.scan he hex).1

/-- A message to a group goes to nobody exactly when its sender is the only member. -/
theorem MembersNamed.nobody_iff (h : MembersNamed groups) (hg : g ≠ []) :
    ChatService.otherMembers groups g a = [] ↔
      ∀ x ∈ GroupStore.allMembers groups g, x.userId = a := by
  rw [otherMembers_eq hg, List.filter_eq_nil_iff]
  generalize hids : (GroupStore.allMembers groups g).map GroupMemberData.userId = ids
  have hnodup : ids.Nodup := hids ▸ h.nodup
  constructor
  · intro hall x hx
    have hsame : ∀ u ∈ ids.take 1000, u = a := by
      intro u hu
      simpa using hall u hu
    -- nobody is listed twice, so the page has at most one entry and is the whole list
    have hone : (ids.take 1000).length ≤ 1 := by
      have hpage := hnodup.sublist (List.take_sublist 1000 ids)
      rw [List.eq_replicate_of_mem hsame, List.nodup_replicate] at hpage
      exact hpage
    rw [List.length_take] at hone
    rw [List.take_of_length_le (by omega)] at hsame
    exact hsame _ (hids ▸ List.mem_map_of_mem hx)
  · intro hall u hu
    rw [← hids] at hu
    obtain ⟨x, hx, rfl⟩ := List.mem_map.mp (List.mem_of_mem_take hu)
    simp [hall x hx]

end SwiftChat.Chat
