import SwiftChat.Chat.GroupOwner
import Mathlib.Data.Set.Card

/-! The member count of a group's record against the members it has. -/
namespace SwiftChat.Chat
open Base
variable {db : GroupDb} {g w : Bytes} {data : GroupData} {m : GroupMemberData} {G : Group}
  {roles : Int → Prop} {s : ChatState} {o : Option Group} {page pageSize : Int}

/-- The number of members. -/
noncomputable def Group.size (G : Group) : Nat := {w | G.isMember w}.ncard

def Group.Finite (G : Group) : Prop := {w | G.isMember w}.Finite

theorem Group.isMember_update {f : Bytes → Option GroupMemberData} {x : Option GroupMemberData}
    {w' : Bytes} : ((Function.update f w x) w').isSome ↔
      if w' = w then x.isSome else (f w').isSome := by
  by_cases he : w' = w
  · rw [he, Function.update_self, if_pos rfl]
  · rw [Function.update_of_ne he, if_neg he]

theorem Group.members_join : {w | (G.join m).isMember w} = insert m.userId {w | G.isMember w} := by
  ext w
  change ((Function.update G.members m.userId (some m)) w).isSome ↔ _
  rw [Group.isMember_update]
  by_cases he : w = m.userId
  · simp [he]
  · simp [he, Group.isMember]

theorem Group.members_part : {w' | (G.part w).isMember w'} = {w' | G.isMember w'} \ {w} := by
  ext w'
  change ((Function.update G.members w none) w').isSome ↔ _
  rw [Group.isMember_update]
  by_cases he : w' = w
  · simp [he]
  · simp [he, Group.isMember]

/-- A member's record is replaced. -/
theorem Group.members_setMember (h : G.isMember w) :
    {w' | (G.setMember m w).isMember w'} = {w' | G.isMember w'} := by
  ext w'
  change ((Function.update G.members w (some m)) w').isSome ↔ _
  rw [Group.isMember_update]
  by_cases he : w' = w
  · rw [if_pos he, he]
    exact iff_of_true rfl h
  · rw [if_neg he]
    exact Iff.rfl

theorem Group.size_join (h : G.Finite) (hfree : G.members m.userId = none) :
    (G.join m).size = G.size + 1 := by
  unfold Group.size
  rw [Group.members_join, Set.ncard_insert_of_notMem _ h]
  simp [Group.isMember, hfree]

theorem Group.size_part (h : G.Finite) (hm : G.isMember w) : (G.part w).size + 1 = G.size := by
  unfold Group.size
  rw [Group.members_part]
  exact Set.ncard_sdiff_singleton_add_one hm h

theorem Group.size_setMember (h : G.isMember w) : (G.setMember m w).size = G.size := by
  unfold Group.size
  rw [Group.members_setMember h]

theorem Group.size_eq_zero (h : ∀ w, G.members w = none) : G.size = 0 := by
  have : {w | G.isMember w} = ∅ := by
    ext w
    simp [Group.isMember, h w]
  rw [Group.size, this, Set.ncard_empty]

/-! The store reports the number of members. -/

theorem mem_memberIds_iff (hok : GroupDbOk db) (hid : IsGroupId g) :
    w ∈ GroupStore.memberIds db g ↔ (GroupStore.getMember db g w).isSome := by
  constructor
  · intro h
    obtain ⟨hw, hs⟩ := OrderedMap.mem_scan_tails.mp h
    rw [← Option.ne_none_iff_isSome, ne_eq, hok.getMember_eq_none hid.ne_nil hw]
    exact Option.ne_none_iff_isSome.mpr hs
  · exact mem_memberIds_of_getMember

theorem memberIds_nodup : (GroupStore.memberIds db g).Nodup := OrderedMap.scan_tails_nodup

/-- A scan of a group's members finds one record for each. -/
theorem length_allMembers (hok : GroupDbOk db) (hid : IsGroupId g) :
    (GroupStore.allMembers db g).length = (GroupStore.memberIds db g).length := by
  have hentry : ∀ e ∈ db.scan (prefixGroupMember g),
      (∃ m, e.2 = .member m) ∧ (prefixGroupMember g).length < e.1.length := by
    rintro ⟨k, v⟩ he
    obtain ⟨hget, w, rfl⟩ := OrderedMap.mem_scan.mp he
    refine ⟨hok.typed.member g w v hget, ?_⟩
    have hw := (hok.held g w hid (by rw [show db.get (keyGroupMember g w) = _ from hget]; rfl)).1
    simp [List.length_pos_iff.mpr hw]
  unfold GroupStore.allMembers GroupStore.memberIds
  rw [List.length_map, List.filter_eq_self.mpr (fun e he => by simpa using (hentry e he).2)]
  rw [List.filterMap_length_eq_length]
  intro e he
  obtain ⟨m, hm⟩ := (hentry e he).1
  rw [hm]
  rfl

/-- The total of `GetMembers` is the number of members, whatever page is asked for. -/
theorem total_getMembers (page pageSize : Int) (hok : GroupDbOk db) (hv : view db g = some G) :
    (GroupStore.getMembers db g page pageSize).2 = G.size := by
  have hid := hok.ids.of_view hv
  have htotal : (GroupStore.getMembers db g page pageSize).2 = (GroupStore.allMembers db g).length := by
    simp only [GroupStore.getMembers, hid.ne_nil, if_false]
    generalize (_ : Int) * _ = offset
    split
    · rfl
    · rfl
  have hset : {w | G.isMember w} = ((GroupStore.memberIds db g).toFinset : Set Bytes) := by
    ext w
    rw [List.coe_toFinset, Set.mem_ofPred_eq, Set.mem_ofPred_eq, mem_memberIds_iff hok hid,
      getMember_of_view hv]
    rfl
  rw [htotal, length_allMembers hok hid, Group.size, hset, Set.ncard_coe_finset,
    List.toFinset_card_of_nodup memberIds_nodup]

/-- A live group counts at least three members too many: `CreateGroup` counts the members it
starts with, and each `AddMember` counts its member again. -/
structure Group.Counted (G : Group) : Prop where
  finite : G.Finite
  live : G.data.status = 0 → (G.size : Int) + 3 ≤ G.data.memberCount
  ended : G.data.status ≠ 0 → G.data.status = 1 ∧ G.data.memberCount = 0

theorem Group.Counted.join (h : G.Counted) (hlive : G.data.status = 0)
    (hfree : G.members m.userId = none) : (G.join m).Counted where
  finite := by
    unfold Group.Finite
    rw [Group.members_join]
    exact h.finite.insert _
  live _ := by
    have hsize := Group.size_join h.finite hfree
    have hcount : (G.join m).data.memberCount = G.data.memberCount + 1 := rfl
    have := h.live hlive
    omega
  ended hne := absurd hlive hne

theorem Group.Counted.part (h : G.Counted) (hlive : G.data.status = 0) (hw : G.isMember w) :
    (G.part w).Counted where
  finite := by
    unfold Group.Finite
    rw [Group.members_part]
    exact h.finite.sdiff
  live _ := by
    have hsize := Group.size_part h.finite hw
    have hcount : (G.part w).data.memberCount = max 0 (G.data.memberCount - 1) := rfl
    have := h.live hlive
    omega
  ended hne := absurd hlive hne

theorem Group.Counted.setMember (h : G.Counted) (hw : G.isMember w) :
    (G.setMember m w).Counted where
  finite := by
    unfold Group.Finite
    rw [Group.members_setMember hw]
    exact h.finite
  live hlive := by
    rw [Group.size_setMember hw]
    exact h.live hlive
  ended := h.ended

theorem Group.Counted.rewrite (h : G.Counted) (hstatus : data.status = G.data.status)
    (hcount : data.memberCount = G.data.memberCount) : Group.Counted { G with data := data } where
  finite := h.finite
  live hlive := by
    rw [hcount]
    exact h.live (hstatus ▸ hlive)
  ended hne := by
    rw [hcount, hstatus]
    exact h.ended (hstatus ▸ hne)

theorem Group.finite_of_none (h : ∀ w, G.members w = none) : G.Finite := by
  refine Set.Finite.subset Set.finite_empty ?_
  intro w hw
  rw [Set.mem_ofPred_eq, Group.isMember, h w] at hw
  cases hw

theorem Group.Counted.dissolve : G.dissolve.Counted where
  finite := Group.finite_of_none fun _ => rfl
  live hlive := absurd (show (1 : Int) = 0 from hlive) (by decide)
  ended _ := ⟨rfl, rfl⟩

theorem Change.counted (h : Change roles o (some G)) (hok : ∀ G₀, o = some G₀ → G₀.Ok)
    (hcount : ∀ G₀, o = some G₀ → G₀.Counted) : G.Counted := by
  cases h with
  | @create data m hlive hthree _ _ =>
    have hfinite : (Group.mk data fun _ => none).Finite := Group.finite_of_none fun _ => rfl
    have hsize := Group.size_join (m := m) hfinite rfl
    have hzero : (Group.mk data fun _ => none).size = 0 := Group.size_eq_zero fun _ => rfl
    refine ⟨?_, fun _ => ?_, fun hne => absurd hlive hne⟩
    · unfold Group.Finite
      rw [Group.members_join]
      exact hfinite.insert _
    · have hdata : (Group.join ⟨data, fun _ => none⟩ m).data.memberCount = data.memberCount + 1 := rfl
      omega
  | join hin hfree _ =>
    obtain ⟨w, hw⟩ := hin
    exact (hcount _ rfl).join ((hok _ rfl).live hw) hfree
  | @part G w m hm _ =>
    have hw : G.isMember w := by simp [Group.isMember, hm]
    exact (hcount _ rfl).part ((hok _ rfl).live hw) hw
  | rewrite _ hstatus hsame => exact (hcount _ rfl).rewrite hstatus hsame
  | @transfer G _ old next hold hnew =>
    have hdemoted := (hcount _ rfl).setMember (m := { old with role := roleMember })
      (show G.isMember G.data.ownerId by simp [Group.isMember, hold])
    have hpromoted := hdemoted.setMember (m := { next with role := roleOwner })
      (by rw [Group.isMember, hnew]; rfl)
    exact hpromoted.rewrite rfl rfl
  | setRole hm _ _ => exact (hcount _ rfl).setMember (by simp [Group.isMember, hm])
  | dissolve => exact Group.Counted.dissolve

theorem Change.ok_counted (h : Change roles o (some G))
    (hold : ∀ G₀, o = some G₀ → G₀.Ok ∧ G₀.Counted) : G.Ok ∧ G.Counted :=
  ⟨h.ok fun G₀ h₀ => (hold G₀ h₀).1,
    h.counted (fun G₀ h₀ => (hold G₀ h₀).1) (fun G₀ h₀ => (hold G₀ h₀).2)⟩

theorem chatAfter_counted (ops : List ChatOp) (hv : view (chatAfter ops).groups g = some G) :
    G.Ok ∧ G.Counted :=
  chatAfter_group (fun _ _ => Change.ok_counted) ops hv

/-- The count is right exactly for a group that has ended. -/
theorem Group.Counted.right_iff (h : G.Counted) (hok : G.Ok) :
    G.data.memberCount = G.size ↔ G.data.status = 1 := by
  constructor
  · intro hright
    by_contra hne
    have hlive : G.data.status = 0 := by
      by_contra hstatus
      exact hne (h.ended hstatus).1
    have := h.live hlive
    omega
  · intro hended
    have hne : G.data.status ≠ 0 := by omega
    rw [(h.ended hne).2, Group.size_eq_zero (hok.ended hne)]
    rfl

/-- Every group's count is the total its members are listed with. -/
def MemberCountsRight (db : GroupDb) : Prop :=
  ∀ g data page pageSize, GroupStore.getGroup db g = some data →
    data.memberCount = (GroupStore.getMembers db g page pageSize).2

/-- The operation is no `CreateGroup` that makes a group. -/
def CreatesNoGroup (s : ChatState) : ChatOp → Prop
  | .group (.create creatorId _ _ memberIds r _) => CreateRefused s.groups creatorId memberIds r
  | _ => True

/-- The invariant the counts rest on. -/
def GroupsCounted (db : GroupDb) : Prop :=
  GroupDbOk db ∧ ∀ g G, view db g = some G → G.Ok ∧ G.Counted

theorem groupsCounted_empty : GroupsCounted OrderedMap.empty := by
  refine ⟨groupDbOk_empty, ?_⟩
  intro g G hv
  rw [view_empty] at hv
  cases hv

theorem GroupsCounted.chatStep {op : ChatOp} (h : GroupsCounted s.groups) :
    GroupsCounted (chatStep s op).groups := by
  refine ⟨h.1.calls (chatStep_calls s op), ?_⟩
  exact (chatStep_steps h.1 op (inScope_all s op)).forall_group (fun _ _ => Change.ok_counted) h.2

/-- All counts are right exactly when every group has ended. -/
theorem memberCountsRight_iff (h : GroupsCounted db) :
    MemberCountsRight db ↔ ∀ g G, view db g = some G → G.data.status = 1 := by
  constructor
  · intro hright g G hv
    obtain ⟨hok, hcounted⟩ := h.2 g G hv
    rw [← hcounted.right_iff hok, ← total_getMembers 0 0 h.1 hv]
    exact hright g G.data 0 0 (view_eq_some.mp hv).1
  · intro hended g data page pageSize hg
    have hv := view_of_getGroup hg
    obtain ⟨hok, hcounted⟩ := h.2 g _ hv
    rw [total_getMembers page pageSize h.1 hv]
    exact (hcounted.right_iff hok).mpr (hended g _ hv)

theorem addMembers_live (ids : List Bytes) (now : Int) (hok : GroupDbOk db)
    (hv : view db g = some G) (hlive : G.data.status = 0) :
    ∃ G, view (GroupService.addMembers db g ids now) g = some G ∧ G.data.status = 0 := by
  induction ids generalizing db G with
  | nil => exact ⟨G, hv, hlive⟩
  | cons uid ids ih =>
    rw [GroupService.addMembers, List.foldl_cons, ← GroupService.addMembers]
    rcases addMember_view (m := { userId := uid, role := roleMember, joinedAt := now })
      (g := g) hok with hsame | ⟨G₀, hv₀, _, hview⟩
    · rw [hsame]
      exact ih hok hv hlive
    · rw [hv] at hv₀
      obtain rfl := Option.some.inj hv₀
      have hafter := congrFun hview g
      rw [Function.update_self] at hafter
      exact ih (hok.call .addMember) hafter hlive

/-- A group that is made is live when its creation is over. -/
theorem live_after_create {c : Bytes} {ids : List Bytes} {r : RandomString 12}
    (name avatar : Bytes) (now : Int) (h : GroupDbOk db) (hgo : ¬ CreateRefused db c ids r) :
    ∃ g G, view (GroupService.createGroup db c name avatar ids r now).1 g = some G ∧
      G.data.status = 0 := by
  obtain ⟨db₁, data, m, others, hok, hlive, _, _, _, _, hview, hs⟩ :=
    createGroup_made name avatar now h hgo
  have hafter := congrFun hview (generateShortId (str "g_") r)
  rw [Function.update_self] at hafter
  obtain ⟨G, hG, hlive'⟩ := addMembers_live others now hok hafter hlive
  exact ⟨_, G, by rw [hs]; exact hG, hlive'⟩

theorem memberCountsRight_step_iff {op : ChatOp} (h : GroupsCounted s.groups)
    (hright : MemberCountsRight s.groups) :
    MemberCountsRight (chatStep s op).groups ↔ CreatesNoGroup s op := by
  by_cases hop : ∃ c name avatar ids r now, op = .group (.create c name avatar ids r now)
  · obtain ⟨c, name, avatar, ids, r, now, rfl⟩ := hop
    change MemberCountsRight (GroupService.createGroup s.groups c name avatar ids r now).1 ↔
      CreateRefused s.groups c ids r
    constructor
    · intro hafter
      by_contra hgo
      obtain ⟨g, G, hG, hlive⟩ := live_after_create name avatar now h.1 hgo
      have hcounted : GroupsCounted (chatStep s (.group (.create c name avatar ids r now))).groups :=
        h.chatStep
      have hended := (memberCountsRight_iff hcounted).mp hafter g G hG
      omega
    · intro hrefused
      rwa [createGroup_refused hrefused]
  · refine iff_of_true ?_ ?_
    · have hscope : op.InScope { new := fun _ => False } s := by
        cases op with
        | group o =>
          cases o with
          | create c name avatar ids r now => exact hop ⟨c, name, avatar, ids, r, now, rfl⟩
          | dismiss g a => exact fun _ _ _ => trivial
          | _ => exact trivial
        | _ => exact trivial
      have hsteps := chatStep_steps h.1 op hscope
      rw [memberCountsRight_iff h] at hright
      rw [memberCountsRight_iff h.chatStep]
      intro g G hG
      -- where nothing is created, a group that has ended stays so
      refine (hsteps.at_group (P := fun G => G.Ok ∧ G.data.status = 1) (g := g) id ?_ ?_ G hG).2
      · rintro G₀ G₁ hc ⟨hok, hended⟩
        exact ⟨hc.ok fun G₂ h₂ => Option.some.inj h₂ ▸ hok, (hc.ended hok hended G₁ rfl).1⟩
      · exact fun G₀ h₀ => ⟨(h.2 g G₀ h₀).1, hright g G₀ h₀⟩
    · cases op with
      | group o =>
        cases o with
        | create c name avatar ids r now => exact absurd ⟨c, name, avatar, ids, r, now, rfl⟩ hop
        | _ => trivial
      | _ => trivial

/-- Along every run all counts are right exactly when no group is made; in every reachable state
the count of a group is the number of its members exactly when the group has ended. -/
theorem memberCount_right_iff (ops : List ChatOp) :
    (Always chatStep (fun s => MemberCountsRight s.groups) {} ops ↔
      AllSteps chatStep CreatesNoGroup {} ops) ∧
    ∀ g page pageSize, ∀ data ∈ GroupStore.getGroup (chatAfter ops).groups g,
      (data.memberCount = (GroupStore.getMembers (chatAfter ops).groups g page pageSize).2 ↔
        data.status = 1) := by
  constructor
  · have hany : AllSteps chatStep (fun _ _ => True) {} ops := allSteps_of_forall fun _ _ => trivial
    refine always_iff_allSteps (I := fun s => GroupsCounted s.groups)
      (fun s op h _ => h.chatStep) (fun s op h _ hright => memberCountsRight_step_iff h hright)
      groupsCounted_empty ?_ hany
    intro g data page pageSize hg
    simp [GroupStore.getGroup] at hg
  · intro g page pageSize data hg
    have hv := view_of_getGroup hg
    obtain ⟨hok, hcounted⟩ := chatAfter_counted ops hv
    rw [total_getMembers page pageSize (chatAfter_dbOk ops) hv]
    exact hcounted.right_iff hok

/-- A group of three is counted as six. -/
theorem makeGroup_miscounted : ¬ MemberCountsRight (chatAfter [makeGroup]).groups := by
  intro h
  have hsix := h sampleGroupId _ 0 50 rfl
  exact absurd hsix (by decide)

end SwiftChat.Chat
