import SwiftChat.Chat.Dissolve

/-! The two ways an owner can end a group, compared by what users see afterwards. -/
namespace SwiftChat.Chat
open Base
variable {s d e : ChatState} {g u k : Bytes} {data : GroupData}

/-- No request of any user tells the two states apart. -/
structure SameToUsers (g : Bytes) (d e : ChatState) : Prop where
  sync : ∀ u, ChatService.syncConversations d u = ChatService.syncConversations e u
  groups : ∀ u, GroupService.getUserGroups d.groups u = GroupService.getUserGroups e.groups u
  history : ∀ u n, (ChatService.getHistory d u g .group [] n).2 =
    (ChatService.getHistory e u g .group [] n).2
  send : ∀ u draft r now, (ChatService.sendMessage d u g .group draft r now).2.success =
    (ChatService.sendMessage e u g .group draft r now).2.success

/-- `SyncConversations` leaves out groups marked as dissolved. -/
def Shown (groups : GroupDb) (c : ConversationData) : Prop :=
  ¬ (c.chatType = ChatType.group.toInt ∧
    (GroupStore.getGroup groups c.conversationId).any (fun g => g.status = 1))

instance (groups : GroupDb) (c : ConversationData) : Decidable (Shown groups c) :=
  inferInstanceAs (Decidable (¬ _))

theorem syncConversations_eq : ChatService.syncConversations s u =
    if u = [] then [] else (getList s.convs u).filter (fun c => Shown s.groups c) := rfl

/-- The members whose entries `DeleteConversation` removes. -/
def notified (s : ChatState) (g : Bytes) : List GroupMemberData :=
  (GroupStore.getMembers s.groups g 0 10000).1

/-- Nothing was ever sent to the group, and no entry is stored under the key of a member's entry
for it. The second half only matters where user ids contain the separator of keys. -/
def NothingToForget (g : Bytes) (s : ChatState) : Prop :=
  Silent g s ∧ ∀ m ∈ notified s g, s.convs.get (keyConv m.userId g) = none

/-- The two endings of a live group. -/
structure Endings (g : Bytes) (s d e : ChatState) : Prop where
  before : ChatSound s
  id : IsGroupId g
  dismissed : d = { s with groups := (GroupStore.deleteGroup s.groups g).1 }
  dissolved : e = { s with
    groups := (GroupStore.dissolveGroup s.groups g).1
    convs := (notified s g).foldl (fun convs m => (deleteConv convs m.userId g).1) s.convs }
  live : ∃ G, view s.groups g = some G ∧ G.data.status ≠ 1
  left : ChatSound d
  right : ChatSound e

theorem endings_of_live (h : ChatSound s) (hg : GroupStore.getGroup s.groups g = some data)
    (hlive : data.status = 0) :
    Endings g s (chatStep s (.group (.dismiss g data.ownerId)))
      (chatStep s (.deleteConversation data.ownerId g .group)) := by
  have hv := view_of_getGroup hg
  have hid := h.groups.1.ids.of_view hv
  obtain ⟨mo, hmo, _⟩ := (h.groups.2 g _ hv).owner hlive
  have howner : data.ownerId ≠ [] := getMember_ne_nil hmo
  have hdone : (GroupStore.dissolveGroup s.groups g).2 = true := by
    simp [GroupStore.dissolveGroup, hg, hlive]
  refine ⟨h, hid, ?_, ?_, ⟨_, hv, ?_⟩, h.chatStep _, h.chatStep _⟩
  · simp [chatStep, groupStep, GroupService.dismissGroup, GroupService.storeCode, hid.ne_nil,
      howner, hg]
  · simp [chatStep, ChatService.deleteConversation, notified, hid.ne_nil, howner, hg, hlive, hdone]
  · simp [hlive]

namespace Endings

theorem view_left (h : Endings g s d e) : view d.groups = Function.update (view s.groups) g none := by
  rw [h.dismissed]
  exact view_deleteGroup h.before.groups.1.ids h.id

theorem view_right (h : Endings g s d e) : ∃ G, G.data.status = 1 ∧
    view e.groups = Function.update (view s.groups) g (some G) := by
  obtain ⟨G, hG, hlive⟩ := h.live
  refine ⟨G.dissolve, rfl, ?_⟩
  rw [h.dissolved]
  exact dissolveGroup_view h.before.groups.1 hG hlive

theorem over_left (h : Endings g s d e) : Over [] g d := by
  intro G hG
  rw [h.view_left, Function.update_self] at hG
  cases hG

theorem over_right (h : Endings g s d e) : ∃ owner, Over owner g e := by
  obtain ⟨G, hstatus, hview⟩ := h.view_right
  refine ⟨G.data.ownerId, ?_⟩
  intro G' hG'
  rw [hview, Function.update_self] at hG'
  obtain rfl := Option.some.inj hG'
  exact ⟨hstatus, rfl⟩

/-- The group has no members in either. -/
theorem no_members (h : Endings g s d e) :
    GroupStore.isMember d.groups g u = false ∧ GroupStore.isMember e.groups g u = false := by
  obtain ⟨owner, hover⟩ := h.over_right
  rw [h.left.groups.1.isMember_eq, h.right.groups.1.isMember_eq,
    h.over_left.no_members h.left h.id, hover.no_members h.right h.id]
  exact ⟨rfl, rfl⟩

/-- The databases of groups differ in one record. -/
theorem get_groups (h : Endings g s d e) (hk : k ≠ keyGroup g) :
    d.groups.get k = e.groups.get k := by
  obtain ⟨G, hG, hlive⟩ := h.live
  rw [h.dismissed, h.dissolved]
  simp only [GroupStore.deleteGroup, GroupStore.dissolveGroup, h.id.ne_nil, if_false,
    (view_eq_some.mp hG).1, hlive, OrderedMap.write_cons, OrderedMap.apply_delete,
    OrderedMap.apply_put]
  rw [get_dropMembers, get_dropMembers, OrderedMap.get_delete_ne hk, OrderedMap.get_put_ne hk]

theorem getGroup_other (h : Endings g s d e) {c : Bytes} (hc : c ≠ g) :
    GroupStore.getGroup d.groups c = GroupStore.getGroup e.groups c :=
  getGroup_congr (h.get_groups (fun hk => hc (keyGroup_inj hk)))

theorem sameGroups (h : Endings g s d e) (u : Bytes) :
    GroupService.getUserGroups d.groups u = GroupService.getUserGroups e.groups u := by
  unfold GroupService.getUserGroups
  split
  · rfl
  · rename_i hu
    have hids : GroupStore.getUserGroupIds d.groups u = GroupStore.getUserGroupIds e.groups u := by
      unfold GroupStore.getUserGroupIds
      rw [if_neg hu, if_neg hu]
      have hscan : d.groups.scan (prefixUserGroups u) = e.groups.scan (prefixUserGroups u) := by
        apply OrderedMap.scan_congr
        rintro k ⟨r, rfl⟩
        exact h.get_groups keyGroup_ne_keyUserGroup.symm
      simp only [hscan]
    rw [hids]
    refine List.filterMap_congr ?_
    intro c hc
    refine h.getGroup_other ?_
    -- an entry of the index for the group would stand for a member of it
    rintro rfl
    rw [GroupStore.getUserGroupIds, if_neg hu] at hc
    obtain ⟨⟨k, v⟩, he, hk⟩ := List.mem_map.mp hc
    obtain ⟨hv, r, rfl⟩ := OrderedMap.mem_scan.mp (List.mem_filter.mp he).1
    rw [List.drop_left] at hk
    subst hk
    have hmember := h.right.listed.listed r u h.id
      (by rw [show e.groups.get (keyUserGroup u r) = some v from hv]; rfl)
    have hnone := (h.no_members (u := u)).2
    rw [GroupStore.isMember, if_neg (by push Not; exact ⟨h.id.ne_nil, hu⟩), hmember] at hnone
    cases hnone

theorem history_iff (h : Endings g s d e) :
    (∀ u n, (ChatService.getHistory d u g .group [] n).2 =
      (ChatService.getHistory e u g .group [] n).2) ↔ Silent g s := by
  obtain ⟨G, hstatus, hview⟩ := h.view_right
  have hd : ¬ Dissolved d.groups g := by
    have hnone : GroupStore.getGroup d.groups g = none := by
      rw [← view_eq_none, h.view_left, Function.update_self]
    simp [Dissolved, hnone]
  have he : Dissolved e.groups g := by
    have hsome := (view_eq_some.mp (show view e.groups g = some G by
      rw [hview, Function.update_self])).1
    simp [Dissolved, hsome, hstatus]
  have hsame : Silent g d ↔ Silent g s := by rw [h.dismissed]; exact Iff.rfl
  rw [← hsame]
  constructor
  · intro hall
    refine silent_of_history (u := []) h.left h.id hd ?_
    intro n
    rw [hall, getHistory_dissolved he]
  · intro hs u n
    rw [history_of_silent h.left hs, getHistory_dissolved he]

/-- What a list shows, apart from the group itself, is the same in both. -/
theorem shown_other (h : Endings g s d e) {c : ConversationData} (hc : c.conversationId ≠ g) :
    Shown d.groups c ↔ Shown e.groups c := by
  unfold Shown
  rw [h.getGroup_other hc]

theorem convs_left (h : Endings g s d e) : d.convs = s.convs := by rw [h.dismissed]

theorem get_convs_right (h : Endings g s d e) : e.convs.get k =
    if ∃ m ∈ notified s g, m.userId ≠ [] ∧ g ≠ [] ∧ k = keyConv m.userId g then none
    else s.convs.get k := by
  rw [h.dissolved]
  exact foldl_deleteConv_get

/-- Without an entry to remove the lists stay as they are. -/
theorem sync_of_nothing (h : Endings g s d e) (hn : NothingToForget g s) (u : Bytes) :
    ChatService.syncConversations d u = ChatService.syncConversations e u := by
  have hconvs : e.convs = d.convs := by
    rw [h.convs_left]
    apply OrderedMap.ext_get
    intro k
    rw [h.get_convs_right]
    split
    · rename_i hk
      obtain ⟨m, hm, _, _, rfl⟩ := hk
      exact (hn.2 m hm).symm
    · rfl
  rw [syncConversations_eq, syncConversations_eq, hconvs]
  split
  · rfl
  · refine List.filter_congr ?_
    intro c hc
    have hne : c.conversationId ≠ g := by
      rw [h.convs_left] at hc
      exact not_listed_of_silent h.before hn.1 hc
    simp only [h.shown_other hne]

/-- An entry under the key of a member's entry for a silent group belongs to somebody else's
conversation, and its owner sees it. -/
theorem shown_of_clash (h : Endings g s d e) (hs : Silent g s) {w : Bytes} {v : ConversationData}
    (hv : s.convs.get (keyConv w g) = some v) :
    w ≠ [] ∧ Shown d.groups v ∧ ∃ u, u ≠ [] ∧ keyConv w g = keyConv u v.conversationId := by
  obtain ⟨u, hu, hk⟩ := h.before.convs.filed _ v hv
  obtain ⟨id, m, hm, hconv⟩ := h.before.convs.backed _ v hv
  have hne : v.conversationId ≠ g := fun he => hs id m hm (hconv.trans he)
  have hcut := hk
  rw [keyConv_eq, keyConv_eq] at hcut
  have hcut := List.append_cancel_left hcut
  refine ⟨?_, ?_, u, hu, hk⟩
  · rintro rfl
    obtain ⟨b, u', rfl⟩ := List.exists_cons_of_ne_nil hu
    have htail : g = u' ++ colon :: v.conversationId := by simpa using (List.cons_eq_cons.mp hcut).2
    exact h.id.2 (htail ▸ by simp)
  · rintro ⟨_, hany⟩
    cases hdata : GroupStore.getGroup d.groups v.conversationId with
    | none => simp [hdata] at hany
    | some data =>
      have hcid := h.left.groups.1.ids.of_getGroup hdata
      exact hne (append_sep_inj_right h.id.2 hcid.2 hcut).2.symm

/-- What is listed after the second ending is listed after the first one. -/
theorem listed_of_right (h : Endings g s d e) (hs : Silent g s) {p : Bytes}
    {x : Bytes × ConversationData}
    (hx : x ∈ (e.convs.scan p).filter fun x => Shown e.groups x.2) :
    x ∈ (s.convs.scan p).filter fun x => Shown d.groups x.2 := by
  obtain ⟨hin, hsh⟩ := List.mem_filter.mp hx
  obtain ⟨hget, hp⟩ := OrderedMap.mem_scan.mp (show (x.1, x.2) ∈ _ from hin)
  have hold : s.convs.get x.1 = some x.2 := by
    rw [h.get_convs_right] at hget
    split at hget
    · cases hget
    · exact hget
  obtain ⟨id, m', hm', hconv⟩ := h.before.convs.backed _ _ hold
  refine List.mem_filter.mpr ⟨OrderedMap.mem_scan.mpr ⟨hold, hp⟩, ?_⟩
  have hne : x.2.conversationId ≠ g := fun he => hs id m' hm' (hconv.trans he)
  simpa [h.shown_other hne] using hsh

/-- Equal lists mean that nothing was removed. -/
theorem nothing_of_sync (h : Endings g s d e) (hs : Silent g s)
    (hsync : ∀ u, ChatService.syncConversations d u = ChatService.syncConversations e u) :
    NothingToForget g s := by
  refine ⟨hs, ?_⟩
  intro m hm
  cases hv : s.convs.get (keyConv m.userId g) with
  | none => rfl
  | some v =>
    exfalso
    obtain ⟨hw, hshown, u, hu, hk⟩ := h.shown_of_clash hs hv
    have hlists := hsync u
    rw [syncConversations_eq, syncConversations_eq, if_neg hu, if_neg hu] at hlists
    -- the entries shown afterwards, and the removed one, are all shown before
    have hremoved : e.convs.get (keyConv m.userId g) = none := by
      rw [h.get_convs_right, if_pos ⟨m, hm, hw, h.id.ne_nil, rfl⟩]
    let before := (s.convs.scan (prefixConv u)).filter fun x => Shown d.groups x.2
    let after := (e.convs.scan (prefixConv u)).filter fun x => Shown e.groups x.2
    have hlen : before.length = after.length := by
      have hl := congrArg List.length hlists
      rw [h.convs_left] at hl
      simpa [getList, hu, List.filter_map, before, after, Function.comp_def] using hl
    have hnodup : ((keyConv m.userId g, v) :: after).Nodup := by
      refine List.nodup_cons.mpr ⟨?_, ?_⟩
      · intro hin
        have hget := (OrderedMap.mem_scan.mp (List.mem_filter.mp hin).1).1
        rw [hremoved] at hget
        cases hget
      · exact (OrderedMap.scan_pairwise.imp (fun h he => h.ne (congrArg Prod.fst he))).filter _
    have hsub : (keyConv m.userId g, v) :: after ⊆ before := by
      intro x hx
      rcases List.mem_cons.mp hx with rfl | hx
      · refine List.mem_filter.mpr ⟨OrderedMap.mem_scan.mpr ⟨hv, ?_⟩, by simpa using hshown⟩
        rw [hk]
        exact List.prefix_append _ _
      · exact h.listed_of_right hs hx
    have hle := List.Nodup.length_le_of_subset hnodup hsub
    rw [List.length_cons] at hle
    omega

end Endings

/-- In every reachable state, the two endings of a live group look the same to all users exactly
when there is nothing to forget about it. -/
theorem endings_same_iff (ops : List ChatOp) (g : Bytes) (data : GroupData)
    (hg : GroupStore.getGroup (chatAfter ops).groups g = some data) (hlive : data.status = 0) :
    SameToUsers g (chatStep (chatAfter ops) (.group (.dismiss g data.ownerId)))
        (chatStep (chatAfter ops) (.deleteConversation data.ownerId g .group)) ↔
      NothingToForget g (chatAfter ops) := by
  have h := endings_of_live (chatAfter_sound ops) hg hlive
  constructor
  · intro hsame
    exact h.nothing_of_sync (h.history_iff.mp hsame.history) hsame.sync
  · intro hn
    refine ⟨h.sync_of_nothing hn, h.sameGroups, h.history_iff.mpr hn.1, ?_⟩
    intro u draft r now
    rw [send_fails (h.no_members (u := u)).1, send_fails (h.no_members (u := u)).2]

/-- Where the owner has written to the group, its history survives a dismissal only. -/
theorem endings_differ : ∃ data,
    GroupStore.getGroup (chatAfter talkedTo).groups sampleGroupId = some data ∧ data.status = 0 ∧
      ¬ SameToUsers sampleGroupId
        (chatStep (chatAfter talkedTo) (.group (.dismiss sampleGroupId data.ownerId)))
        (chatStep (chatAfter talkedTo) (.deleteConversation data.ownerId sampleGroupId .group)) := by
  refine ⟨_, rfl, rfl, ?_⟩
  intro h
  exact absurd (h.history (str "b") 10) (by decide +kernel)

/-- A group nobody has written to ends the same either way. -/
theorem endings_same_silent : ∃ data,
    GroupStore.getGroup (chatAfter [makeGroup]).groups sampleGroupId = some data ∧
      data.status = 0 ∧
      SameToUsers sampleGroupId
        (chatStep (chatAfter [makeGroup]) (.group (.dismiss sampleGroupId data.ownerId)))
        (chatStep (chatAfter [makeGroup])
          (.deleteConversation data.ownerId sampleGroupId .group)) := by
  refine ⟨_, rfl, rfl, (endings_same_iff [makeGroup] sampleGroupId _ rfl rfl).mpr ⟨?_, ?_⟩⟩
  · intro id m hm
    have hempty : (chatAfter [makeGroup]).msgs = OrderedMap.empty := rfl
    simp [hempty, getById] at hm
  · intro m _
    rfl

end SwiftChat.Chat
