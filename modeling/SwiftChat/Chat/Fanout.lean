import SwiftChat.Chat.GroupAtomic
import SwiftChat.Chat.ConvInvariant
import SwiftChat.Chat.GroupOwner

/-! Whom a message to a group reaches. -/
namespace SwiftChat.Chat
open Base
variable {groups : GroupDb} {s s' : ChatState} {a g u w : Bytes} {m : MessageData} {now : Int}
  {draft : ChatService.Draft} {r : RandomString 16} {ops : List ChatOp}

/-- Every other member has the message queued and the group in the conversation list with the
message as its last, and for the rest nothing changed. -/
structure ReachesGroup (s s' : ChatState) (fromUserId groupId : Bytes) (m : MessageData) : Prop where
  queued : ∀ w, GroupStore.isMember s.groups groupId w = true → w ≠ fromUserId → Queued s'.msgs w m
  listed : ∀ w, GroupStore.isMember s.groups groupId w = true → w ≠ fromUserId →
    ∃ c ∈ ChatService.syncConversations s' w, c.conversationId = groupId ∧ c.lastMsgId = m.msgId
  others : ∀ w, GroupStore.isMember s.groups groupId w = false →
    ¬ Queued s'.msgs w m ∧ s'.convs.get (keyConv w groupId) = s.convs.get (keyConv w groupId)

/-- Nobody but the sender is listed after the page that a message is distributed to. -/
def OnFirstPage (groups : GroupDb) (groupId fromUserId : Bytes) : Prop :=
  ∀ x ∈ (GroupStore.allMembers groups groupId).drop 1000, x.userId = fromUserId

instance (groups : GroupDb) (groupId fromUserId : Bytes) :
    Decidable (OnFirstPage groups groupId fromUserId) :=
  inferInstanceAs (Decidable (∀ x ∈ _, _))

/-- The listing of a group names its members. -/
theorem mem_allMembers_iff (h : GroupDbOk groups) (hn : MembersNamed groups) (hid : IsGroupId g) :
    w ∈ (GroupStore.allMembers groups g).map GroupMemberData.userId ↔
      GroupStore.isMember groups g w = true := by
  constructor
  · intro hw
    obtain ⟨x, hx, rfl⟩ := List.mem_map.mp hw
    obtain ⟨e, he, hex⟩ := List.mem_filterMap.mp hx
    obtain ⟨hne, g', hid', hkey, hp⟩ := hn.scan he hex
    obtain rfl := (sep_prefix_iff hid.2 hid'.2).mp hp
    have hget := (OrderedMap.mem_scan.mp he).1
    rw [hkey] at hget
    simp only [GroupStore.isMember, hid.ne_nil, hne, or_self, if_false, hget, Option.isSome_some]
  · intro hw
    rw [h.isMember_eq] at hw
    obtain ⟨x, hx⟩ := Option.isSome_iff_exists.mp hw
    have hget := get_of_getMember hx
    obtain ⟨hne, g', hid', hkey⟩ := hn _ x hget
    obtain ⟨_, rfl⟩ := keyGroupMember_inj hid hid' hkey
    refine List.mem_map.mpr ⟨x, List.mem_filterMap.mpr ⟨(keyGroupMember g x.userId, .member x), ?_, rfl⟩, rfl⟩
    exact OrderedMap.mem_scan.mpr ⟨hget, List.prefix_append _ _⟩

/-- A message is distributed to all other members exactly when nobody else is after the page. -/
theorem receivers_all_iff (h : GroupDbOk groups) (hn : MembersNamed groups) (hid : IsGroupId g) :
    (∀ w, GroupStore.isMember groups g w = true → w ≠ a →
      w ∈ ChatService.receivers groups a g .group) ↔ OnFirstPage groups g a := by
  have hnodup := hn.nodup (g := g)
  constructor
  · intro hall x hx
    by_contra hne
    have hdrop : x.userId ∈ ((GroupStore.allMembers groups g).map GroupMemberData.userId).drop 1000 := by
      rw [← List.map_drop]
      exact List.mem_map_of_mem hx
    have hmem := (mem_allMembers_iff h hn hid).mp (List.mem_of_mem_drop hdrop)
    have hreceives := hall x.userId hmem hne
    rw [ChatService.receivers, otherMembers_eq hid.ne_nil] at hreceives
    rw [← List.take_append_drop 1000 ((GroupStore.allMembers groups g).map _)] at hnodup
    exact (List.nodup_append.mp hnodup).2.2 _ (List.mem_filter.mp hreceives).1 _ hdrop rfl
  · intro hpage w hw hne
    rw [ChatService.receivers, otherMembers_eq hid.ne_nil]
    have hlisted := (mem_allMembers_iff h hn hid).mpr hw
    rw [← List.take_append_drop 1000 ((GroupStore.allMembers groups g).map _)] at hlisted
    rcases List.mem_append.mp hlisted with htake | hdrop
    · exact List.mem_filter.mpr ⟨htake, by simpa using hne⟩
    · rw [← List.map_drop] at hdrop
      obtain ⟨x, hx, rfl⟩ := List.mem_map.mp hdrop
      exact absurd (hpage x hx) hne

/-- Only members receive. -/
theorem isMember_of_receivers (h : GroupDbOk groups) (hn : MembersNamed groups) (hid : IsGroupId g)
    (hw : w ∈ ChatService.receivers groups a g .group) : GroupStore.isMember groups g w = true := by
  rw [ChatService.receivers, otherMembers_eq hid.ne_nil] at hw
  exact (mem_allMembers_iff h hn hid).mp (List.mem_of_mem_take (List.mem_filter.mp hw).1)

/-- A group with a member has not ended. -/
theorem live_of_isMember (ops : List ChatOp)
    (hw : GroupStore.isMember (chatAfter ops).groups g w = true) :
    ¬ (GroupStore.getGroup (chatAfter ops).groups g).any (fun data => data.status = 1) := by
  intro hended
  cases hg : GroupStore.getGroup (chatAfter ops).groups g with
  | none => simp [hg] at hended
  | some data =>
    have hok := chatAfter_group (fun _ _ => Change.ok) ops (view_of_getGroup hg)
    rw [(chatAfter_dbOk ops).isMember_eq] at hw
    have hlive : data.status = 0 := hok.live hw
    simp [hg, hlive] at hended

/-- A receiver finds the group in the list, with the new message as its last. -/
theorem listed_of_entry {c : ConversationData} (hw : w ≠ [])
    (hget : s.convs.get (keyConv w g) = some c) (hc : c.conversationId = g)
    (hlive : ¬ (GroupStore.getGroup s.groups g).any (fun data => data.status = 1)) :
    c ∈ ChatService.syncConversations s w := by
  subst hc
  rw [ChatService.syncConversations, if_neg hw, List.mem_filter, decide_eq_true_eq]
  refine ⟨?_, fun hshut => hlive hshut.2⟩
  rw [getList, if_neg hw]
  exact List.mem_map.mpr ⟨_, OrderedMap.mem_scan.mpr ⟨hget, List.prefix_append _ _⟩, rfl⟩

theorem keyConv_inj_user {c : Bytes} (h : keyConv w c = keyConv u c) : w = u := by
  rw [keyConv_eq, keyConv_eq] at h
  exact List.append_cancel_right (List.append_cancel_left h)

/-- The conversation entries of a group after an accepted message to it. -/
theorem send_group_convs
    (hsent : (ChatService.sendMessage s a g .group draft r now).2.success = true) (w : Bytes) :
    GroupStore.isMember s.groups g a = true ∧
    (ChatService.sendMessage s a g .group draft r now).1.groups = s.groups ∧
    (ChatService.sendMessage s a g .group draft r now).1.convs.get (keyConv w g) =
      if w ∈ ChatService.receivers s.groups a g .group ∧ w ≠ [] then
        some { ChatService.senderConv (ChatService.newMessage a g g .group draft r now) with
          unreadCount := 1 }
      else if w = a then
        some (ChatService.senderConv (ChatService.newMessage a g g .group draft r now))
      else s.convs.get (keyConv w g) := by
  obtain ⟨metas, ⟨hfail, _⟩ | ⟨_, ha, hb, hmem, _, hs⟩⟩ := sendMessage_cases s a g .group draft r now
  · rw [hfail] at hsent
    cases hsent
  · refine ⟨hmem rfl, by rw [hs, distribute_groups], ?_⟩
    rw [hs, distribute_convs _ _ _ ha hb]
    refine if_congr ?_ rfl (if_congr ?_ rfl rfl)
    · constructor
      · rintro ⟨u, hu, hne, hkey⟩
        obtain rfl := keyConv_inj_user hkey
        exact ⟨hu, hne⟩
      · rintro ⟨hw, hne⟩
        exact ⟨w, hw, hne, rfl⟩
    · constructor
      · exact keyConv_inj_user
      · rintro rfl
        rfl

theorem onFirstPage_of_reaches (ops : List ChatOp)
    (hg : (GroupStore.getGroup (chatAfter ops).groups g).isSome)
    (hsent : (ChatService.sendMessage (chatAfter ops) a g .group draft r now).2.success = true)
    (hreach : ReachesGroup (chatAfter ops)
      (ChatService.sendMessage (chatAfter ops) a g .group draft r now).1 a g
      (ChatService.newMessage a g g .group draft r now)) :
    OnFirstPage (chatAfter ops).groups g a := by
  have hok := chatAfter_dbOk ops
  obtain ⟨data, hdata⟩ := Option.isSome_iff_exists.mp hg
  have hchat : ChatOk (fun _ => True) (chatAfter ops) := chatAfter_ok (fun op _ => by cases op <;> trivial)
  apply (receivers_all_iff hok (chatAfter_membersNamed ops) (hok.ids.of_getGroup hdata)).mp
  intro w hw hne
  exact ((send_queued hchat hsent w).mp (hreach.queued w hw hne)).1

theorem reaches_of_onFirstPage (ops : List ChatOp)
    (hg : (GroupStore.getGroup (chatAfter ops).groups g).isSome)
    (hsent : (ChatService.sendMessage (chatAfter ops) a g .group draft r now).2.success = true)
    (hpage : OnFirstPage (chatAfter ops).groups g a) :
    ReachesGroup (chatAfter ops) (ChatService.sendMessage (chatAfter ops) a g .group draft r now).1
      a g (ChatService.newMessage a g g .group draft r now) := by
  have hok := chatAfter_dbOk ops
  have hn := chatAfter_membersNamed ops
  obtain ⟨data, hdata⟩ := Option.isSome_iff_exists.mp hg
  have hid := hok.ids.of_getGroup hdata
  have hchat : ChatOk (fun _ => True) (chatAfter ops) := chatAfter_ok (fun op _ => by cases op <;> trivial)
  have hqueued := send_queued hchat hsent
  have hall := (receivers_all_iff hok hn hid).mpr hpage
  have hnotNil : ∀ w, GroupStore.isMember (chatAfter ops).groups g w = true → w ≠ [] := by
    rintro w hw rfl
    simp [GroupStore.isMember] at hw
  refine ⟨?_, ?_, ?_⟩
  · intro w hw hne
    exact (hqueued w).mpr ⟨hall w hw hne, hnotNil w hw⟩
  · intro w hw hne
    obtain ⟨_, hgroups, hentry⟩ := send_group_convs hsent w
    rw [if_pos ⟨hall w hw hne, hnotNil w hw⟩] at hentry
    have hlive := live_of_isMember ops hw
    rw [← hgroups] at hlive
    have hlisted := listed_of_entry (hnotNil w hw) hentry rfl hlive
    exact ⟨_, hlisted, rfl, rfl⟩
  · intro w hw
    have hout : w ∉ ChatService.receivers (chatAfter ops).groups a g .group := by
      intro hin
      rw [isMember_of_receivers hok hn hid hin] at hw
      cases hw
    obtain ⟨hsender, _, hentry⟩ := send_group_convs hsent w
    refine ⟨fun hq => hout ((hqueued w).mp hq).1, ?_⟩
    rw [hentry, if_neg (fun hin => hout hin.1), if_neg]
    rintro rfl
    rw [hsender] at hw
    cases hw

theorem send_group_accepted (ha : a ≠ []) (hm : GroupStore.isMember s.groups g a = true)
    (hnew : s.msgs.get (keyMsg (ChatService.generateMsgId r)) = none) :
    (ChatService.sendMessage s a g .group draft r now).2.success = true := by
  have hg : g ≠ [] := by
    rintro rfl
    simp [GroupStore.isMember] at hm
  simp [ChatService.sendMessage, ha, hg, hm, ChatService.sendTo, save, ChatService.newMessage,
    generateMsgId_ne_nil, hnew]

def fanoutRandom : RandomString 16 := RandomString.replicate 16 75 rfl

/-- With two members after the page, one of them is not the sender. -/
theorem MembersNamed.not_onFirstPage (hn : MembersNamed groups)
    (hlen : 1002 ≤ (GroupStore.allMembers groups g).length) : ¬ OnFirstPage groups g a := by
  intro hpage
  have hnodup := (hn.nodup (g := g)).sublist (List.drop_sublist 1000 _)
  rw [← List.map_drop] at hnodup
  have hsame : ∀ u ∈ ((GroupStore.allMembers groups g).drop 1000).map GroupMemberData.userId, u = a := by
    intro u hu
    obtain ⟨x, hx, rfl⟩ := List.mem_map.mp hu
    exact hpage x hx
  rw [List.eq_replicate_of_mem hsame, List.nodup_replicate, List.length_map, List.length_drop] at hnodup
  omega

/-- A list of 1001 ids: strings of `b` of every length up to there. -/
def crowd : List Bytes := (List.range 1001).map fun n => List.replicate (n + 1) 98

def makeCrowd : ChatOp := .group (.create (str "a") [] [] crowd groupRandom 5)

theorem mem_crowd_head (h : w ∈ crowd) : w.head? = some 98 := by
  obtain ⟨n, _, rfl⟩ := List.mem_map.mp h
  rfl

theorem nodup_crowd : (str "a" :: crowd).Nodup := by
  refine List.nodup_cons.mpr ⟨fun h => absurd (mem_crowd_head h) (by decide), ?_⟩
  refine List.Nodup.map ?_ List.nodup_range
  intro n k h
  have hlen := congrArg List.length h
  simp only [List.length_replicate] at hlen
  omega

theorem length_crowd : (str "a" :: crowd).length = 1002 := by
  simp [crowd]

theorem crowd_enough : minGroupMembers ≤ (GroupService.uniqueMembers (str "a") crowd).length := by
  have hsub : str "a" :: crowd ⊆ GroupService.uniqueMembers (str "a") crowd := by
    intro w hw
    apply mem_uniqueMembers.mpr
    rcases List.mem_cons.mp hw with rfl | hw
    · exact Or.inl rfl
    · refine Or.inr ⟨hw, ?_⟩
      rintro rfl
      cases mem_crowd_head hw
  have hlen := (List.subperm_of_subset nodup_crowd hsub).length_le
  rw [length_crowd] at hlen
  exact le_trans (by decide) hlen

/-- A group that is made first is founded whole, and nothing else happens. -/
theorem founded_first {c name avatar : Bytes} {ids : List Bytes} {r : RandomString 12} {now : Int}
    (hc : c ≠ []) (hsize : minGroupMembers ≤ (GroupService.uniqueMembers c ids).length) :
    Founded (generateShortId (str "g_") r) c ids
        (chatAfter [.group (.create c name avatar ids r now)]).groups ∧
      (chatAfter [.group (.create c name avatar ids r now)]).msgs = OrderedMap.empty := by
  refine ⟨createGroup_founded groupDbOk_empty ?_ name avatar now, rfl⟩
  exact not_createRefused_iff.mpr ⟨hc, hsize, by simp [GroupStore.getGroup]⟩

/-- Once they are founded, a message is accepted and does not reach all of them. -/
theorem crowd_missed (hfounded : Founded g a crowd (chatAfter ops).groups) (hid : IsGroupId g)
    (ha : str "a" = a) (hnew : (chatAfter ops).msgs = OrderedMap.empty) :
    (GroupStore.getGroup (chatAfter ops).groups g).isSome ∧
    (ChatService.sendMessage (chatAfter ops) a g .group draft r now).2.success = true ∧
    ¬ ReachesGroup (chatAfter ops) (ChatService.sendMessage (chatAfter ops) a g .group draft r now).1
      a g (ChatService.newMessage a g g .group draft r now) := by
  have hok := chatAfter_dbOk ops
  have hn := chatAfter_membersNamed ops
  have hmember : ∀ w ∈ str "a" :: crowd, GroupStore.isMember (chatAfter ops).groups g w = true := by
    intro w hw
    rw [hok.isMember_eq, hfounded.members, ← ha]
    rcases List.mem_cons.mp hw with rfl | hw
    · exact Or.inl rfl
    · refine Or.inr ⟨hw, ?_⟩
      rintro rfl
      cases mem_crowd_head hw
  have hself : GroupStore.isMember (chatAfter ops).groups g a = true :=
    hmember a (ha ▸ List.mem_cons_self)
  have hne : a ≠ [] := by
    rw [← ha]
    decide
  have hgroup : (GroupStore.getGroup (chatAfter ops).groups g).isSome := by
    have hkey := (hok.held g a hid (by
      simpa [GroupStore.isMember, hid.ne_nil, hne] using hself)).2
    rw [← Option.ne_none_iff_isSome] at hkey ⊢
    exact fun hnone => hkey ((hok.getGroup_eq_none hid.ne_nil).mp hnone)
  have hsent : (ChatService.sendMessage (chatAfter ops) a g .group draft r now).2.success = true :=
    send_group_accepted hne hself (by rw [hnew, OrderedMap.get_empty])
  refine ⟨hgroup, hsent, ?_⟩
  intro hreach
  refine hn.not_onFirstPage ?_ (onFirstPage_of_reaches ops hgroup hsent hreach)
  have hlen := (List.subperm_of_subset nodup_crowd
    (fun w hw => (mem_allMembers_iff hok hn hid).mpr (hmember w hw))).length_le
  rwa [length_crowd, List.length_map] at hlen

end SwiftChat.Chat
