import SwiftChat.Friend.Partition

/-! What deleting a group of friends changes, and all that it leaves as it was. -/
namespace SwiftChat.Friend
open Base
variable {db db' : FriendDb} {a u f g k : Bytes} {d : FriendData} {x : FriendGroupData}
  {V V' : View} {op : FriendOp}

/-- The keys under which the data of a user are filed. -/
inductive OwnKey (a : Bytes) : Bytes → Prop where
  | friend (b : Bytes) : OwnKey a (keyFriend a b)
  | received (id : Bytes) : OwnKey a (keyFriendReqTo a id)
  | sent (id : Bytes) : OwnKey a (keyFriendReqFrom a id)
  | group (g : Bytes) : OwnKey a (keyFriendGroup a g)
  | block (t : Bytes) : OwnKey a (keyBlock a t)

/-- The group `g` of `u` is deleted, its friends are in the default group, and all else is kept. -/
structure GroupDeleted (db db' : FriendDb) (u g : Bytes) : Prop where
  records : ∀ f, (view db').friends u f =
    ((view db).friends u f).map fun d => if d.groupId = g then toDefault d else d
  friends : ∀ f, FriendStore.isFriend db' u f = FriendStore.isFriend db u f
  remarks : ∀ f, ((view db').friends u f).map FriendData.remark =
    ((view db).friends u f).map FriendData.remark
  inDefault : ∀ f, f ∈ friendIds (FriendService.getFriends db' u defaultFriendGroupId) ↔
    f ∈ friendIds (FriendService.getFriends db u g) ∨
      f ∈ friendIds (FriendService.getFriends db u defaultFriendGroupId)
  members : ∀ i, i ≠ [] → i ≠ g → i ≠ defaultFriendGroupId → ∀ d,
    d ∈ FriendService.getFriends db' u i ↔ d ∈ FriendService.getFriends db u i
  groups : ∀ x, x ∈ FriendStore.getGroups db' u ↔ x ∈ FriendStore.getGroups db u ∧ x.groupId ≠ g
  gone : ∀ x ∈ (FriendService.getFriendGroups db' u).2, x.groupId ≠ g
  apart : ∀ a k, a ≠ u → OwnKey a k → db'.get k = db.get k
  frame : ∀ k, k ≠ keyFriendGroup u g →
    (∀ f ∈ friendIds (FriendService.getFriends db u g), keyFriend u f ≠ k) → db'.get k = db.get k

/-! What is filed under a user's keys stays when another user deletes a group. -/

theorem OwnKey.ne_group (hk : OwnKey a k) (hu : Plain u) (hg : Plain g) (hne : a ≠ u) :
    k ≠ keyFriendGroup u g := by
  cases hk with
  | friend b => exact keyFriend_ne_group
  | received id => exact keyFriendReqTo_ne_group
  | sent id =>
    exact ne_of_kinds (kFriendReqFrom_isPrefix _ _) (kFriendGroup_isPrefix _ _) (by decide)
  | group i =>
    intro he
    exact hne ((keyFriendGroup_inj hu hg).mp he).1
  | block t => exact ne_of_kinds (kBlock_isPrefix _ _) (kFriendGroup_isPrefix _ _) (by decide)

theorem OwnKey.ne_friend (hk : OwnKey a k) (hu : Plain u) (hf : Plain f) (hne : a ≠ u) :
    keyFriend u f ≠ k := by
  intro he
  cases hk with
  | friend b => exact hne ((keyFriend_inj hu hf).mp he.symm).1
  | received id => exact keyFriendReqTo_ne_friend he.symm
  | sent id =>
    exact ne_of_kinds (kFriend_isPrefix _ _) (kFriendReqFrom_isPrefix _ _) (by decide) he
  | group i => exact keyFriend_ne_group he
  | block t => exact ne_of_kinds (kFriend_isPrefix _ _) (kBlock_isPrefix _ _) (by decide) he

/-- The members of a group are plain users. -/
theorem AllFiled.plain_friendId (h : AllFiled db)
    (hf : f ∈ friendIds (FriendService.getFriends db u g)) : Plain f := by
  obtain ⟨d, hd, _⟩ := (mem_friendIds h).mp hf
  obtain ⟨hok, _, rfl, _⟩ := h.friends hd
  exact hok.friend

/-! The deletion. -/

theorem deleteGroup_record (h : AllFiled db) (hu : Plain u) (hg : Plain g) (f : Bytes) :
    (view (FriendStore.deleteGroup db u g).1).friends u f =
      ((view db).friends u f).map fun d => if d.groupId = g then toDefault d else d := by
  rw [deleteGroup_view h hu hg]
  simp only [View.dropGroup, true_and]
  rfl

/-- No key is written but that of the group and those of its members. -/
theorem deleteGroup_frame (hu : Plain u) (hg : Plain g) (hk : k ≠ keyFriendGroup u g)
    (hfriends : ∀ f ∈ friendIds (FriendService.getFriends db u g), keyFriend u f ≠ k) :
    (FriendStore.deleteGroup db u g).1.get k = db.get k := by
  apply deleteGroup_get_ne hu.ne_nil hg.ne_nil hk
  intro d hd
  apply hfriends
  rw [getFriends_eq]
  exact List.mem_map_of_mem hd

theorem deleteGroup_members (h : FriendsOk db) (hu : Plain u) (hg : Plain g) {i : Bytes}
    (hi : i ≠ []) (hother : i ≠ g) (hdefault : i ≠ defaultFriendGroupId) :
    d ∈ FriendService.getFriends (FriendStore.deleteGroup db u g).1 u i ↔
      d ∈ FriendService.getFriends db u i := by
  rw [getFriends_eq, getFriends_eq, (h.deleteGroup hu hg).filed.mem_getFriends,
    h.filed.mem_getFriends, deleteGroup_record h.filed hu hg]
  constructor
  · rintro ⟨hd, hne, hgroup⟩
    obtain ⟨e, he, hed⟩ := Option.map_eq_some_iff.mp hd
    have hd' := hgroup.resolve_left hi
    split at hed
    · rw [← hed] at hd'
      exact absurd hd'.symm hdefault
    · rw [hed] at he
      exact ⟨he, hne, hgroup⟩
  · rintro ⟨hd, hne, hgroup⟩
    have hd' := hgroup.resolve_left hi
    refine ⟨?_, hne, hgroup⟩
    rw [hd, Option.map_some, if_neg (by rw [hd']; exact hother)]

theorem deleteGroup_inDefault (h : FriendsOk db) (hu : Plain u) (hg : Plain g) :
    f ∈ friendIds (FriendService.getFriends (FriendStore.deleteGroup db u g).1 u
        defaultFriendGroupId) ↔
      f ∈ friendIds (FriendService.getFriends db u g) ∨
        f ∈ friendIds (FriendService.getFriends db u defaultFriendGroupId) := by
  have hdefault : defaultFriendGroupId ≠ [] := plain_default.ne_nil
  simp only [mem_friendIds (h.deleteGroup hu hg).filed, mem_friendIds h.filed,
    deleteGroup_record h.filed hu hg, hdefault, hg.ne_nil, false_or]
  constructor
  · rintro ⟨d, hd, _, hgroup⟩
    obtain ⟨e, he, hed⟩ := Option.map_eq_some_iff.mp hd
    split at hed
    · rename_i hin
      exact Or.inl ⟨e, he, hin ▸ hg.ne_nil, hin⟩
    · subst hed
      exact Or.inr ⟨e, he, hgroup ▸ hdefault, hgroup⟩
  · rintro (⟨d, hd, _, hgroup⟩ | ⟨d, hd, hne, hgroup⟩)
    · refine ⟨toDefault d, ?_, hdefault, rfl⟩
      rw [hd, Option.map_some, if_pos hgroup]
    · by_cases hin : d.groupId = g
      · refine ⟨toDefault d, ?_, hdefault, rfl⟩
        rw [hd, Option.map_some, if_pos hin]
      · refine ⟨d, ?_, hne, hgroup⟩
        rw [hd, Option.map_some, if_neg hin]

theorem deleteGroup_groups (h : FriendsOk db) (hu : Plain u) (hg : Plain g) :
    x ∈ FriendStore.getGroups (FriendStore.deleteGroup db u g).1 u ↔
      x ∈ FriendStore.getGroups db u ∧ x.groupId ≠ g := by
  rw [(h.deleteGroup hu hg).filed.mem_groupList, h.filed.mem_groupList]
  by_cases hx : x.groupId = g
  · have hgone : ¬ (view (FriendStore.deleteGroup db u g).1).groups u x.groupId := by
      rw [deleteGroup_view h.filed hu hg]
      simp [View.dropGroup, hx]
    have hnone : (FriendStore.deleteGroup db u g).1.get (keyFriendGroup u x.groupId) = none := by
      simpa [view] using hgone
    rw [hnone]
    exact iff_of_false (by simp) (fun hin => hin.2 hx)
  · rw [deleteGroup_frame hu hg (fun he => hx ((keyFriendGroup_inj hu hg).mp he).2)
      (fun f _ => keyFriend_ne_group)]
    simp [hx]

theorem deleteGroup_gone (h : FriendsOk db) (hu : Plain u) (hg : Plain g)
    (hne : g ≠ defaultFriendGroupId)
    (hx : x ∈ (FriendService.getFriendGroups (FriendStore.deleteGroup db u g).1 u).2) :
    x.groupId ≠ g := by
  rw [FriendService.getFriendGroups, if_neg hu.ne_nil] at hx
  obtain ⟨hok, hview⟩ := ensureDefaultGroup_view (h.deleteGroup hu hg) hu
  have hhas := hok.filed.mem_getGroups.mp ⟨x, hx, rfl⟩
  rw [hview, View.ensured_groups, deleteGroup_view h.filed hu hg] at hhas
  rintro rfl
  rcases hhas with hdefault | hgroup
  · exact hne hdefault
  · simp [View.dropGroup] at hgroup

theorem groupDeleted (h : FriendsOk db) (hu : Plain u) (hg : Plain g)
    (hne : g ≠ defaultFriendGroupId) :
    GroupDeleted db (FriendStore.deleteGroup db u g).1 u g where
  records := deleteGroup_record h.filed hu hg
  friends f := by
    rw [(h.deleteGroup hu hg).filed.isFriend_eq, h.filed.isFriend_eq,
      deleteGroup_record h.filed hu hg, Option.isSome_map]
  remarks f := by
    rw [deleteGroup_record h.filed hu hg, Option.map_map]
    congr 1
    funext d
    simp only [Function.comp_apply, toDefault]
    split
    · rfl
    · rfl
  inDefault f := deleteGroup_inDefault h hu hg
  members i hi hother hdefault d := deleteGroup_members h hu hg hi hother hdefault
  groups x := deleteGroup_groups h hu hg
  gone x hx := deleteGroup_gone h hu hg hne hx
  apart a k ha hk := deleteGroup_frame hu hg (hk.ne_group hu hg ha)
    (fun f hf => hk.ne_friend hu (h.filed.plain_friendId hf) ha)
  frame k hk hfriends := deleteGroup_frame hu hg hk hfriends

/-! The default group. -/

/-- No operation takes the default group from a user. -/
theorem Does.keeps_default (h : Does V op V') (ha : V.groups a defaultFriendGroupId) :
    V'.groups a defaultFriendGroupId := by
  cases h with
  | accept => exact View.setGroup_groups.mpr (Or.inr ha)
  | refuse => exact View.setGroup_groups.mpr (Or.inr ha)
  | createGroup => exact View.setGroup_groups.mpr (Or.inr ha)
  | ensure => exact View.setGroup_groups.mpr (Or.inr ha)
  | @dropGroup u g _ hne =>
    simp only [View.dropGroup]
    rw [if_neg (fun he => hne he.2.symm)]
    exact ha
  | _ => exact ha

theorem hasGroup_iff (h : AllFiled db) : hasGroup db u g = true ↔ (view db).groups u g :=
  h.any_group

theorem friendStep_keeps_default (h : FriendsOk db) (hop : op.PlainIds)
    (ha : hasGroup db a defaultFriendGroupId = true) :
    hasGroup (friendStep db op) a defaultFriendGroupId = true := by
  obtain ⟨hafter, hdoes⟩ := friendStep_does h op hop
  rw [hasGroup_iff hafter.filed]
  exact hdoes.keeps_default ((hasGroup_iff h.filed).mp ha)

/-- In every state that a run with plain user ids reaches, deleting a group moves its members to the
default group and leaves the rest as it was, or writes nothing; no call deletes the default group. -/
theorem deleteFriendGroup_effect (ops : List FriendOp) (hops : ∀ op ∈ ops, op.PlainIds) :
    (∀ u g, (FriendService.deleteFriendGroup (friendAfter ops) u g).2 = .ok →
        GroupDeleted (friendAfter ops)
          (FriendService.deleteFriendGroup (friendAfter ops) u g).1 u g) ∧
      (∀ u g, (FriendService.deleteFriendGroup (friendAfter ops) u g).2 ≠ .ok →
        (FriendService.deleteFriendGroup (friendAfter ops) u g).1 = friendAfter ops) ∧
      ∀ op : FriendOp, op.PlainIds → ∀ a,
        hasGroup (friendAfter ops) a defaultFriendGroupId = true →
          hasGroup (friendStep (friendAfter ops) op) a defaultFriendGroupId = true := by
  have h := friendAfter_ok ops hops
  refine ⟨?_, ?_, fun op hop a ha => friendStep_keeps_default h hop ha⟩
  · intro u g hok
    rcases deleteFriendGroup_cases h.filed u g with ⟨hg, hne, heq⟩ | ⟨_, hfailed⟩
    · obtain ⟨hu, hid⟩ := h.filed.groups hg
      rw [heq]
      exact groupDeleted h hu hid hne
    · exact absurd hok hfailed
  · intro u g hfailed
    rcases deleteFriendGroup_cases h.filed u g with ⟨_, _, heq⟩ | ⟨hsame, _⟩
    · rw [heq] at hfailed
      exact absurd rfl hfailed
    · exact hsame

/-- `b` has moved the friend `a` to a group of its own. -/
def groupOfOne : List FriendOp := askAndAccept ++
  [.createFriendGroup (str "b") (str "work") groupRandom,
    .moveFriend (str "b") (str "a") (generateShortId (str "g_") groupRandom)]

theorem deleteFriendGroup_effect_groupOfOne :
    friendIds (FriendService.getFriends (friendAfter groupOfOne) (str "b")
        (generateShortId (str "g_") groupRandom)) = [str "a"] ∧
      GroupDeleted (friendAfter groupOfOne)
        (FriendService.deleteFriendGroup (friendAfter groupOfOne) (str "b")
          (generateShortId (str "g_") groupRandom)).1
        (str "b") (generateShortId (str "g_") groupRandom) := by
  have hops : ∀ op ∈ groupOfOne, op.PlainIds := by decide
  exact ⟨by decide +kernel, (deleteFriendGroup_effect groupOfOne hops).1 _ _ (by decide +kernel)⟩

end SwiftChat.Friend
