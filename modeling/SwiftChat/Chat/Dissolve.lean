import SwiftChat.Chat.ConvInvariant
import SwiftChat.Chat.GroupListing
import SwiftChat.Chat.GroupOwner
import SwiftChat.Chat.History

/-! A group that its owner has dissolved, and what can bring back its traces. -/
namespace SwiftChat.Chat
open Base
variable {s : ChatState} {g owner u : Bytes} {G : Group} {data : GroupData} {op : ChatOp}

/-- What the stores look like in every reachable state. -/
structure ChatSound (s : ChatState) : Prop where
  chat : ChatOk (fun _ => True) s
  groups : GroupsHealthy s.groups
  listed : GroupsListed s.groups
  convs : ConvsOk s

theorem ChatSound.chatStep (h : ChatSound s) (op : ChatOp) : ChatSound (chatStep s op) where
  chat := chatStep_ok h.chat (by cases op <;> trivial)
  groups := h.groups.chatStep
  listed := h.listed.chatStep h.groups.1 op
  convs := h.convs.chatStep op

theorem chatAfter_sound (ops : List ChatOp) : ChatSound (chatAfter ops) :=
  run_invariant (Q := fun _ => True) (fun _ op h _ => h.chatStep op)
    ⟨⟨wellFormed_empty, groupsOk_empty⟩, groupsHealthy_empty, groupsListed_empty, convsOk_empty⟩
    (fun _ _ => trivial)

/-- What users see of a group that is over: no history, no members, no new messages, and no entry
in anybody's lists. -/
structure Vanished (g : Bytes) (s : ChatState) : Prop where
  history : ∀ u before limit, (ChatService.getHistory s u g .group before limit).2 = []
  members : ∀ u, GroupStore.isMember s.groups g u = false
  send : ∀ u draft r now, (ChatService.sendMessage s u g .group draft r now).2.success = false
  listed : ∀ u, ∀ c ∈ ChatService.syncConversations s u,
    ¬ (c.chatType = ChatType.group.toInt ∧ c.conversationId = g)
  groups : ∀ u, ∀ data ∈ GroupService.getUserGroups s.groups u, data.groupId ≠ g

/-- No message was ever sent to the group. -/
def Silent (g : Bytes) (s : ChatState) : Prop :=
  ∀ id m, getById s.msgs id = some m → m.conversationId ≠ g

theorem send_fails (h : GroupStore.isMember s.groups g u = false) {draft : ChatService.Draft}
    {r : RandomString 16} {now : Int} :
    (ChatService.sendMessage s u g .group draft r now).2.success = false := by
  obtain ⟨metas, ⟨hf, _⟩ | ⟨_, _, _, hm, _⟩⟩ := sendMessage_cases s u g .group draft r now
  · exact hf
  · rw [hm rfl] at h
    cases h

/-- A message sent to a group shows in its history while the record does not hide it. -/
theorem silent_of_history (h : ChatSound s) (hid : IsGroupId g) (hd : ¬ Dissolved s.groups g)
    (hnone : ∀ n, (ChatService.getHistory s u g .group [] n).2 = []) : Silent g s := by
  intro id m hm hconv
  have hm' : getById s.msgs m.msgId = some m := by
    rw [(h.chat.msgs.message hm).1]
    exact hm
  have hin := getHistory_complete h.chat.msgs hm'
  rw [hconv, ← getHistory_group (u := u) hid.ne_nil hd (by omega), hnone] at hin
  cases hin

theorem history_of_silent (h : ChatSound s) (hs : Silent g s) {before : Bytes} {limit : Int} :
    (ChatService.getHistory s u g .group before limit).2 = [] := by
  by_cases hgo : g = [] ∨ limit ≤ 0
  · exact getHistory_none hgo
  · push Not at hgo
    by_cases hd : Dissolved s.groups g
    · exact getHistory_dissolved hd
    · rw [getHistory_group hgo.1 hd hgo.2]
      refine List.eq_nil_iff_forall_not_mem.mpr ?_
      intro m hm
      obtain ⟨hget, hconv⟩ := mem_getHistory h.chat.msgs hm
      exact hs m.msgId m hget hconv

/-- An entry for the group in a list means that something was sent to it. -/
theorem not_listed_of_silent (h : ChatSound s) (hs : Silent g s) {c : ConversationData}
    (hc : c ∈ getList s.convs u) : c.conversationId ≠ g := by
  intro hid
  unfold getList at hc
  split at hc
  · cases hc
  · obtain ⟨⟨k, v⟩, he, rfl⟩ := List.mem_map.mp hc
    obtain ⟨id, m, hm, hconv⟩ := h.convs.backed k v (OrderedMap.mem_scan.mp he).1
    exact hs id m hm (hconv.trans hid)

/-- The record is marked as dissolved, or there is none. -/
def Over (owner g : Bytes) (s : ChatState) : Prop :=
  ∀ G, view s.groups g = some G → G.data.status = 1 ∧ G.data.ownerId = owner

theorem Over.no_members (hover : Over owner g s) (h : ChatSound s) (hid : IsGroupId g) :
    GroupStore.getMember s.groups g u = none := by
  cases hv : view s.groups g with
  | none => rw [h.groups.1.getMember_of_absent hid (view_eq_none.mp hv)]
  | some G =>
    rw [getMember_of_view hv]
    exact (h.groups.2 g G hv).ended (by rw [(hover G hv).1]; decide) u

theorem Over.dissolved (hover : Over owner g s)
    (hs : (GroupStore.getGroup s.groups g).isSome = true) : Dissolved s.groups g := by
  obtain ⟨data, hg⟩ := Option.isSome_iff_exists.mp hs
  have hstatus : data.status = 1 := (hover _ (view_of_getGroup hg)).1
  simp [Dissolved, hg, hstatus]

/-- What is over has vanished exactly when the record still says so or nothing was sent. -/
theorem vanished_iff (h : ChatSound s) (hid : IsGroupId g) (hover : Over owner g s) :
    Vanished g s ↔ (GroupStore.getGroup s.groups g).isSome = true ∨ Silent g s := by
  have hmember : ∀ u, GroupStore.isMember s.groups g u = false := by
    intro u
    rw [h.groups.1.isMember_eq, hover.no_members h hid]
    rfl
  constructor
  · intro hv
    by_cases hs : (GroupStore.getGroup s.groups g).isSome = true
    · exact Or.inl hs
    · refine Or.inr (silent_of_history (u := []) h hid ?_ (fun n => hv.history [] [] n))
      rw [Option.not_isSome_iff_eq_none] at hs
      simp [Dissolved, hs]
  · intro hs
    refine ⟨?_, hmember, fun u _ _ _ => send_fails (hmember u), ?_, ?_⟩
    · intro u before limit
      rcases hs with hs | hs
      · exact getHistory_dissolved (hover.dissolved hs)
      · exact history_of_silent h hs
    · rintro u c hc ⟨htype, hconv⟩
      unfold ChatService.syncConversations at hc
      split at hc
      · cases hc
      · obtain ⟨hlist, hshown⟩ := List.mem_filter.mp hc
        rcases hs with hs | hs
        · have hd : (GroupStore.getGroup s.groups c.conversationId).any
              (fun g => g.status = 1) = true := by
            rw [hconv]
            exact hover.dissolved hs
          simp only [decide_eq_true_eq] at hshown
          exact hshown ⟨htype, hd⟩
        · exact not_listed_of_silent h hs hlist hconv
    · intro u data hd he
      have hm := (h.listed.getUserGroups h.groups.1 hd).2
      rw [he, hover.no_members h hid] at hm
      cases hm

/-- Nobody can send to a group without members. -/
theorem Silent.chatStep (hs : Silent g s) (h : ChatSound s) (hid : IsGroupId g)
    (hover : Over owner g s) : Silent g (chatStep s op) := by
  have hw : Writes (fun _ => True) (fun m => m.conversationId ≠ g) s.msgs
      (Chat.chatStep s op).msgs := by
    refine chatStep_writes s op ?_
    intro a b ct draft r now _ hm
    cases ct with
    | priv =>
      intro he
      have hpre : str "g_" <+: privateId a b := by
        rw [show privateId a b = g from he]
        exact hid.1
      exact not_group_privateId a b hpre
    | group =>
      intro he
      have hmem := hm rfl
      rw [show b = g from he, h.groups.1.isMember_eq, hover.no_members h hid] at hmem
      cases hmem
  exact hw.forall_message (fun _ _ hm => hm) hs

/-- The ids `CreateGroup` draws are not the one of a group there has been. -/
def ChatOp.DrawsOther (g : Bytes) : ChatOp → Prop
  | .group (.create _ _ _ _ r _) => generateShortId (str "g_") r ≠ g
  | _ => True

/-- The owner does not dismiss the dissolved group, unless nothing was ever sent to it. -/
def KeepsRecord (owner g : Bytes) (s : ChatState) : ChatOp → Prop
  | .group (.dismiss g' a) => g' = g → a = owner →
    (GroupStore.getGroup s.groups g).isSome = true → Silent g s
  | _ => True

theorem inScope_drawsOther (hop : op.DrawsOther g) : op.InScope { new := (· ≠ g) } s := by
  cases op with
  | group o =>
    cases o with
    | create => exact hop
    | dismiss => exact fun _ _ _ => trivial
    | _ => exact trivial
  | _ => exact trivial

theorem Over.chatStep (hover : Over owner g s) (h : ChatSound s) (hop : op.DrawsOther g) :
    Over owner g (chatStep s op) := by
  have hsteps := chatStep_steps h.groups.1 op (inScope_drawsOther hop)
  have hkeep := hsteps.at_group (g := g)
    (P := fun G => G.Ok ∧ G.data.status = 1 ∧ G.data.ownerId = owner) (not_not_intro rfl) ?_ ?_
  · exact fun G hG => (hkeep G hG).2
  · rintro G G' hc ⟨hok, hstatus, howner⟩
    obtain ⟨hs, ho⟩ := hc.ended hok hstatus G' rfl
    exact ⟨hc.ok fun G₀ h₀ => Option.some.inj h₀ ▸ hok, hs, ho.trans howner⟩
  · exact fun G hG => ⟨h.groups.2 g G hG, hover G hG⟩

/-- Only a dismissal by the owner removes the record. -/
theorem Over.record_stays (hover : Over owner g s) (h : ChatSound s)
    (hop : op ≠ .group (.dismiss g owner))
    (hs : (GroupStore.getGroup s.groups g).isSome = true) :
    (GroupStore.getGroup (Chat.chatStep s op).groups g).isSome = true := by
  have hscope : op.InScope { gone := (· ≠ g) } s := by
    cases op with
    | group o =>
      cases o with
      | dismiss g' a =>
        rintro data hg howner rfl
        have := (hover _ (view_of_getGroup hg)).2
        exact hop (by rw [← howner, ← this])
      | _ => exact trivial
    | _ => exact trivial
  have hstay := (chatStep_steps h.groups.1 op hscope).stays (g := g) (not_not_intro rfl)
    (by simpa [view] using hs)
  simpa [view] using hstay

theorem record_gone (h : ChatSound s) (howner : owner ≠ []) (hover : Over owner g s)
    (hs : (GroupStore.getGroup s.groups g).isSome = true) :
    GroupStore.getGroup (Chat.chatStep s (.group (.dismiss g owner))).groups g = none := by
  obtain ⟨data, hg⟩ := Option.isSome_iff_exists.mp hs
  have hown : data.ownerId = owner := (hover _ (view_of_getGroup hg)).2
  have hid := h.groups.1.ids.of_getGroup hg
  have hdb : (Chat.chatStep s (.group (.dismiss g owner))).groups =
      (GroupStore.deleteGroup s.groups g).1 := by
    simp [Chat.chatStep, groupStep, GroupService.dismissGroup, GroupService.storeCode, hid.ne_nil,
      howner, hg, hown]
  rw [hdb, ← view_eq_none, view_deleteGroup h.groups.1.ids hid, Function.update_self]

/-- One step keeps what is over out of sight exactly when it keeps the record. -/
theorem vanished_step_iff (h : ChatSound s) (hid : IsGroupId g) (howner : owner ≠ [])
    (hover : Over owner g s) (hop : op.DrawsOther g) (hv : Vanished g s) :
    Vanished g (chatStep s op) ↔ KeepsRecord owner g s op := by
  rw [vanished_iff (h.chatStep op) hid (hover.chatStep h hop)]
  rw [vanished_iff h hid hover] at hv
  by_cases hs : (GroupStore.getGroup s.groups g).isSome = true
  · by_cases he : op = .group (.dismiss g owner)
    · subst he
      rw [record_gone h howner hover hs]
      constructor
      · rintro (hf | hsilent)
        · cases hf
        · exact fun _ _ _ => hsilent
      · exact fun hkeep => Or.inr (hkeep rfl rfl hs)
    · refine iff_of_true (Or.inl (hover.record_stays h he hs)) ?_
      cases op with
      | group o =>
        cases o with
        | dismiss g' a => exact fun hg ha => absurd (by rw [hg, ha]) he
        | _ => exact trivial
      | _ => exact trivial
  · have hsilent := hv.resolve_left hs
    refine iff_of_true (Or.inr (hsilent.chatStep h hid hover)) ?_
    cases op with
    | group o =>
      cases o with
      | dismiss => exact fun _ _ hsome => absurd hsome hs
      | _ => exact trivial
    | _ => exact trivial

/-- Only the owner dissolves a group. -/
theorem owner_of_deleteConversation
    (hok : (ChatService.deleteConversation s owner g .group).2.success = true) :
    owner ≠ [] ∧ g ≠ [] ∧ ∃ data, GroupStore.getGroup s.groups g = some data ∧
      data.ownerId = owner := by
  unfold ChatService.deleteConversation at hok
  split at hok
  · cases hok
  · rename_i hne
    push Not at hne
    simp only at hok
    split at hok
    · cases hok
    · rename_i data hg
      split at hok
      · cases hok
      · rename_i hown
        exact ⟨hne.1, hne.2, data, hg, not_not.mp hown⟩

/-- A dissolution that succeeds leaves a group that is over. -/
theorem over_of_deleteConversation (h : ChatSound s)
    (hok : (ChatService.deleteConversation s owner g .group).2.success = true) :
    owner ≠ [] ∧ IsGroupId g ∧
      Over owner g (chatStep s (.deleteConversation owner g .group)) ∧
      (GroupStore.getGroup (chatStep s (.deleteConversation owner g .group)).groups g).isSome =
        true := by
  obtain ⟨howner, hgroup, data, hg, hown⟩ := owner_of_deleteConversation hok
  have hv := view_of_getGroup hg
  refine ⟨howner, h.groups.1.ids.of_view hv, ?_⟩
  by_cases hstatus : data.status = 1
  · have hs : chatStep s (.deleteConversation owner g .group) = s := by
      simp [Chat.chatStep, ChatService.deleteConversation, howner, hgroup, hg, hown, hstatus]
    rw [hs, hg]
    refine ⟨?_, rfl⟩
    intro G hG
    rw [hv] at hG
    obtain rfl := Option.some.inj hG
    exact ⟨hstatus, hown⟩
  · have hdone : (GroupStore.dissolveGroup s.groups g).2 = true := by
      simp [GroupStore.dissolveGroup, hg, hstatus]
    have hs : (chatStep s (.deleteConversation owner g .group)).groups =
        (GroupStore.dissolveGroup s.groups g).1 := by
      simp [Chat.chatStep, ChatService.deleteConversation, howner, hgroup, hg, hown, hstatus, hdone]
    have hview := congrFun (dissolveGroup_view h.groups.1 hv hstatus) g
    rw [Function.update_self, ← hs] at hview
    constructor
    · intro G hG
      rw [hview] at hG
      obtain rfl := Option.some.inj hG
      exact ⟨rfl, hown⟩
    · rw [(view_eq_some.mp hview).1]
      rfl

/-- After its owner has dissolved a group, whatever is done next, the group stays out of sight
exactly as long as the owner does not dismiss it as well, unless nothing was ever sent to it. -/
theorem dissolved_for_good_iff (ops later : List ChatOp) (owner g : Bytes)
    (hok : (ChatService.deleteConversation (chatAfter ops) owner g .group).2.success = true)
    (hfresh : ∀ op ∈ later, op.DrawsOther g) :
    Always chatStep (Vanished g)
        (chatStep (chatAfter ops) (.deleteConversation owner g .group)) later ↔
      AllSteps chatStep (KeepsRecord owner g)
        (chatStep (chatAfter ops) (.deleteConversation owner g .group)) later := by
  have hsound := chatAfter_sound ops
  obtain ⟨howner, hid, hover, hs⟩ := over_of_deleteConversation hsound hok
  refine always_iff_allSteps (I := fun s => ChatSound s ∧ Over owner g s) ?_ ?_
    ⟨hsound.chatStep _, hover⟩ ((vanished_iff (hsound.chatStep _) hid hover).mpr (Or.inl hs))
    (allSteps_of_mem hfresh)
  · rintro s op ⟨h, hover⟩ hop
    exact ⟨h.chatStep op, hover.chatStep h hop⟩
  · rintro s op ⟨h, hover⟩ hop hv
    exact vanished_step_iff h hid howner hover hop hv

/-- The owner of the group of three writes to it. -/
def talkedTo : List ChatOp := [makeGroup, .send (str "a") sampleGroupId .group {} randomA 6]

/-- The owner dissolves the group, then dismisses it, and its history is back. -/
theorem dismissed_after_dissolved :
    (ChatService.deleteConversation (chatAfter talkedTo) (str "a") sampleGroupId .group).2.success =
      true ∧
    ¬ Always chatStep (Vanished sampleGroupId)
        (chatStep (chatAfter talkedTo) (.deleteConversation (str "a") sampleGroupId .group))
        [.group (.dismiss sampleGroupId (str "a"))] := by
  refine ⟨by decide +kernel, ?_⟩
  intro h
  have hback := h.last.history (str "z") [] 10
  exact absurd hback (by decide +kernel)

/-- A dissolved group that its former members write to, rename and ask to join stays out of
sight. -/
theorem dissolved_stays :
    Always chatStep (Vanished sampleGroupId)
      (chatStep (chatAfter talkedTo) (.deleteConversation (str "a") sampleGroupId .group))
      [.send (str "b") sampleGroupId .group {} randomB 7,
        .group (.update sampleGroupId (str "a") (str "n") [] [] 8),
        .group (.invite sampleGroupId (str "a") [str "b"] 9),
        .group (.dismiss sampleGroupId (str "b"))] := by
  refine (dissolved_for_good_iff talkedTo _ (str "a") sampleGroupId (by decide +kernel) ?_).mpr ?_
  · simp [ChatOp.DrawsOther]
  · refine ⟨trivial, trivial, trivial, ?_, trivial⟩
    intro _ he
    exact absurd he (by decide)

end SwiftChat.Chat
