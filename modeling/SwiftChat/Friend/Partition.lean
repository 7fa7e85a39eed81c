import SwiftChat.Friend.Friendship

/-! The groups of a user divide the user's friends among them. -/
namespace SwiftChat.Friend
open Base
variable {db : FriendDb} {u f g id : Bytes} {d : FriendData} {q : FriendRequestData}
  {x y : FriendGroupData} {V V' : View} {op : FriendOp} {now : Int}

/-- The users in a list of friends. -/
def friendIds (l : List FriendData) : List Bytes := l.map FriendData.friendId

/-- Everyone's list shows the friends, and each friend is in one of the groups. -/
structure Partitioned (db : FriendDb) : Prop where
  listed : ∀ u f, f ∈ friendIds (FriendService.getFriends db u []) ↔
    FriendStore.isFriend db u f = true
  grouped : ∀ u f, FriendStore.isFriend db u f = true →
    ∃! x, x ∈ (FriendService.getFriendGroups db u).2 ∧
      f ∈ friendIds (FriendService.getFriends db u x.groupId)

/-- The user has a group of this id. -/
def hasGroup (db : FriendDb) (u g : Bytes) : Bool :=
  (FriendStore.getGroups db u).any (fun x => x.groupId = g)

/-- The user may accept the request: it is pending, to the user, and from a stranger. -/
def acceptable (db : FriendDb) (u id : Bytes) : Bool :=
  match FriendStore.getRequest db id with
  | none => false
  | some q => q.toUserId = u ∧ q.status = 0 ∧ FriendStore.isFriend db u q.fromUserId = false

/-- The operation puts a friend into a group that the user does not have. The default group is made
when it is missing, and accepting with no group id means the default group. -/
def misplaces (db : FriendDb) : FriendOp → Bool
  | .moveFriend u f g => FriendStore.isFriend db u f = true ∧ g ≠ defaultFriendGroupId ∧
      hasGroup db u g = false
  | .handleRequest u id true g _ => acceptable db u id = true ∧ g ≠ [] ∧ g ≠ defaultFriendGroupId ∧
      hasGroup db u g = false
  | _ => false

/-! The same in the view: the group of a friend's record is one of the user's. -/

/-- The user has the group, or will have it when the groups are asked for. -/
def View.HasGroup (V : View) (u g : Bytes) : Prop := g = defaultFriendGroupId ∨ V.groups u g

def View.Grouped (V : View) : Prop := ∀ u f d, V.friends u f = some d → V.HasGroup u d.groupId

theorem View.setGroup_groups {a b : Bytes} :
    (V.setGroup u g True).groups a b ↔ a = u ∧ b = g ∨ V.groups a b := by
  unfold View.setGroup
  by_cases he : a = u ∧ b = g
  · simp [he]
  · simp [he]

/-- Asking for the groups makes the default one. -/
theorem View.ensured_groups :
    (V.setGroup u defaultFriendGroupId True).groups u g ↔ V.HasGroup u g := by
  rw [View.setGroup_groups, View.HasGroup]
  simp

theorem hasGroup_eq_false (h : AllFiled db) : hasGroup db u g = false ↔ ¬ (view db).groups u g := by
  rw [← h.any_group, Bool.not_eq_true]
  rfl

theorem acceptable_iff (h : AllFiled db) :
    acceptable db u id = true ↔ ∃ q, (view db).requests id = some q ∧ q.toUserId = u ∧ q.status = 0 ∧
      (view db).friends u q.fromUserId = none := by
  unfold acceptable
  cases hq : FriendStore.getRequest db id with
  | none =>
    have hnone : (view db).requests id = none := hq
    simp [hnone]
  | some q =>
    have hsome : (view db).requests id = some q := hq
    simp [hsome, h.isFriend_eq]

/-- Where the group of every friend is there, the list shows the friend in it. -/
theorem View.Grouped.ne_nil (h : AllFiled db) (hg : (view db).Grouped)
    (hd : (view db).friends u f = some d) : d.groupId ≠ [] := by
  rcases hg u f d hd with hdefault | hgroup
  · rw [hdefault]
    exact plain_default.ne_nil
  · exact (h.groups hgroup).2.ne_nil

theorem getFriends_eq (db : FriendDb) (u g : Bytes) :
    FriendService.getFriends db u g = FriendStore.getFriends db u g := by
  unfold FriendService.getFriends FriendStore.getFriends
  split
  · rfl
  · rfl

theorem mem_friendIds (h : AllFiled db) :
    f ∈ friendIds (FriendService.getFriends db u g) ↔
      ∃ d, (view db).friends u f = some d ∧ d.groupId ≠ [] ∧ (g = [] ∨ d.groupId = g) := by
  simp only [friendIds, List.mem_map, getFriends_eq, h.mem_getFriends]
  constructor
  · rintro ⟨d, ⟨hd, hshown⟩, rfl⟩
    exact ⟨d, hd, hshown⟩
  · rintro ⟨d, hd, hshown⟩
    obtain ⟨_, _, rfl, _⟩ := h.friends hd
    exact ⟨d, ⟨hd, hshown⟩, rfl⟩

/-- No user has two groups of one id. -/
theorem AllFiled.getGroups_unique (h : AllFiled db) (hx : x ∈ FriendStore.getGroups db u)
    (hy : y ∈ FriendStore.getGroups db u) (hid : x.groupId = y.groupId) : x = y := by
  have hread := h.mem_groupList.mp hx
  rw [hid, h.mem_groupList.mp hy] at hread
  exact (Option.some.inj hread).symm

theorem FriendsOk.partitioned (h : FriendsOk db) (hg : (view db).Grouped) : Partitioned db where
  listed u f := by
    rw [mem_friendIds h.filed, isFriend_iff h.filed]
    constructor
    · rintro ⟨d, hd, _⟩
      exact ⟨d, hd⟩
    · rintro ⟨d, hd⟩
      exact ⟨d, hd, hg.ne_nil h.filed hd, Or.inl rfl⟩
  grouped u f hf := by
    obtain ⟨d, hd⟩ := (isFriend_iff h.filed).mp hf
    obtain ⟨hok, rfl, _, _⟩ := h.filed.friends hd
    obtain ⟨hensure, hview⟩ := ensureDefaultGroup_view h hok.user
    have hgroups : (FriendService.getFriendGroups db d.userId).2 =
        FriendStore.getGroups (FriendService.ensureDefaultGroup db d.userId) d.userId := by
      rw [FriendService.getFriendGroups, if_neg hok.user.ne_nil]
    have hne := hg.ne_nil h.filed hd
    have hhas : (view (FriendService.ensureDefaultGroup db d.userId)).groups d.userId d.groupId := by
      rw [hview, View.ensured_groups]
      exact hg _ _ d hd
    obtain ⟨x, hx, hid⟩ := hensure.filed.mem_getGroups.mpr hhas
    rw [hgroups]
    refine ⟨x, ⟨hx, (mem_friendIds h.filed).mpr ⟨d, hd, hne, Or.inr hid.symm⟩⟩, ?_⟩
    rintro y ⟨hy, hlisted⟩
    obtain ⟨e, he, _, hgroup⟩ := (mem_friendIds h.filed).mp hlisted
    obtain rfl : d = e := Option.some.inj (hd.symm.trans he)
    have hplain := (hensure.filed.groups (hensure.filed.mem_getGroups.mp ⟨y, hy, rfl⟩)).2
    rcases hgroup with hnil | hgroup
    · exact absurd hnil hplain.ne_nil
    · exact hensure.filed.getGroups_unique hy hx (hgroup.symm.trans hid.symm)

/-- A friend whose group the user does not have is in no group of the list. -/
theorem FriendsOk.grouped (h : FriendsOk db) (hp : Partitioned db) : (view db).Grouped := by
  intro u f d hd
  obtain ⟨hok, rfl, _, _⟩ := h.filed.friends hd
  obtain ⟨x, ⟨hx, hlisted⟩, _⟩ := hp.grouped _ f ((isFriend_iff h.filed).mpr ⟨d, hd⟩)
  obtain ⟨hensure, hview⟩ := ensureDefaultGroup_view h hok.user
  rw [FriendService.getFriendGroups, if_neg hok.user.ne_nil] at hx
  have hhas := hensure.filed.mem_getGroups.mp ⟨x, hx, rfl⟩
  obtain ⟨e, he, _, hgroup⟩ := (mem_friendIds h.filed).mp hlisted
  obtain rfl : d = e := Option.some.inj (hd.symm.trans he)
  have hid : d.groupId = x.groupId := by
    rcases hgroup with hnil | hgroup
    · exact absurd hnil (hensure.filed.groups hhas).2.ne_nil
    · exact hgroup
  rw [hview, View.ensured_groups] at hhas
  rw [hid]
  exact hhas

/-! The steps. -/

theorem View.Grouped.setGroup (hg : V.Grouped) : (V.setGroup u g True).Grouped := by
  intro a b d hd
  rcases hg a b d hd with hdefault | hgroup
  · exact Or.inl hdefault
  · exact Or.inr (View.setGroup_groups.mpr (Or.inr hgroup))

/-- A record is in its place when its group is one of the user's. -/
theorem View.Grouped.setFriend_iff (hg : V.Grouped) :
    (V.setFriend u f (some d)).Grouped ↔ V.HasGroup u d.groupId := by
  constructor
  · intro hafter
    exact hafter u f d (by simp [View.setFriend])
  · intro hd a b e he
    simp only [View.setFriend] at he
    split at he
    · rename_i hab
      rw [hab.1, ← Option.some.inj he]
      exact hd
    · exact hg a b e he

theorem View.Grouped.part (hg : V.Grouped) : (V.part u f).Grouped := by
  intro a b d hd
  simp only [View.part, View.setFriend] at hd
  split at hd
  · cases hd
  · split at hd
    · cases hd
    · exact hg a b d hd

/-- The friends of a group that goes are in the default group. -/
theorem View.Grouped.dropGroup (hg : V.Grouped) : (V.dropGroup u g).Grouped := by
  intro a b d hd
  obtain ⟨e, he, rfl⟩ := Option.map_eq_some_iff.mp hd
  split
  · exact Or.inl rfl
  · rename_i hother
    rcases hg a b e he with hdefault | hgroup
    · exact Or.inl hdefault
    · refine Or.inr ?_
      simp only [View.dropGroup, if_neg hother]
      exact hgroup

/-- Of two new friends the one who was asked chooses a group, the other gets the default one. -/
theorem View.Grouped.befriend_iff (hg : V.Grouped) (hne : d.userId ≠ d.friendId) :
    (V.befriend d).Grouped ↔ V.HasGroup d.userId d.groupId := by
  constructor
  · intro hafter
    have hmade : (V.befriend d).friends d.userId d.friendId = some d.stored := by
      simp [View.befriend, View.setFriend, hne]
    exact hafter _ _ d.stored hmade
  · intro hd
    have hfirst : (V.setFriend d.userId d.friendId (some d.stored)).Grouped :=
      hg.setFriend_iff.mpr hd
    exact hfirst.setFriend_iff.mpr (Or.inl rfl)

/-- The group of an accepted friend is there, for accepting makes the default group. -/
theorem View.accepted_hasGroup :
    (V.setGroup u defaultFriendGroupId True).HasGroup u
        (FriendService.acceptedFriend u f g now).groupId ↔
      (g ≠ [] → g ≠ defaultFriendGroupId → V.groups u g) := by
  simp only [View.HasGroup, View.setGroup_groups, FriendService.acceptedFriend]
  by_cases hnil : g = []
  · simp [hnil]
  · by_cases hdefault : g = defaultFriendGroupId
    · simp [hdefault]
    · simp [hnil, hdefault]

/-- Every operation but moving a friend and accepting keeps friends in their groups. -/
theorem Does.grouped (h : Does V op V') (hg : V.Grouped)
    (hmove : ∀ u f g, op ≠ .moveFriend u f g)
    (haccept : ∀ u id g now, op ≠ .handleRequest u id true g now) : V'.Grouped := by
  cases h with
  | stay => exact hg
  | ask => exact hg
  | accept => exact absurd rfl (haccept _ _ _ _)
  | refuse => exact hg.setGroup
  | reject => exact hg
  | part => exact hg.part
  | createGroup => exact hg.setGroup
  | ensure => exact hg.setGroup
  | dropGroup => exact hg.dropGroup
  | move => exact absurd rfl (hmove _ _ _)
  | @remark u f text d hd => exact hg.setFriend_iff.mpr (hg u f d hd)

theorem moveFriend_grouped (h : FriendsOk db) (hg : (view db).Grouped) :
    (view (FriendService.moveFriend db u f g).1).Grouped ↔ misplaces db (.moveFriend u f g) = false := by
  simp only [misplaces, hasGroup_eq_false h.filed, isFriend_iff h.filed, decide_eq_false_iff_not]
  by_cases hf : ∃ d, (view db).friends u f = some d
  · obtain ⟨d, hd⟩ := hf
    rw [moveFriend_view h hd, hg.setFriend_iff, View.HasGroup]
    constructor
    · rintro hhas ⟨_, hne, hnone⟩
      exact hhas.elim hne hnone
    · intro hn
      by_contra hmiss
      push Not at hmiss
      exact hn ⟨⟨d, hd⟩, hmiss⟩
  · rw [moveFriend_stranger h hf]
    exact iff_of_true hg (fun hn => hf hn.1)

theorem accept_grouped (h : FriendsOk db) (hg : (view db).Grouped) :
    (view (FriendService.handleRequest db u id true g now).1).Grouped ↔
      misplaces db (.handleRequest u id true g now) = false := by
  simp only [misplaces, hasGroup_eq_false h.filed, acceptable_iff h.filed, decide_eq_false_iff_not]
  by_cases ha : ∃ q, (view db).requests id = some q ∧ q.toUserId = u ∧ q.status = 0 ∧
      (view db).friends u q.fromUserId = none
  · obtain ⟨q, hq, rfl, hpending, hstrangers⟩ := ha
    obtain ⟨_, _, hview⟩ := handleRequest_accept h hq hpending hstrangers g now
    obtain ⟨hok, _, _⟩ := h.filed.requests hq
    have hne : (FriendService.acceptedFriend q.toUserId q.fromUserId g now).userId ≠
        (FriendService.acceptedFriend q.toUserId q.fromUserId g now).friendId := hok.other
    have hafter : ((view db).setGroup q.toUserId defaultFriendGroupId True).Grouped := hg.setGroup
    rw [hview]
    refine ((hafter.befriend_iff hne).trans View.accepted_hasGroup).trans ?_
    constructor
    · rintro hhas ⟨_, hnil, hne, hnone⟩
      exact hnone (hhas hnil hne)
    · intro hn hnil hne
      by_contra hnone
      exact hn ⟨⟨q, hq, rfl, hpending, hstrangers⟩, hnil, hne, hnone⟩
  · refine iff_of_true ?_ (fun hn => ha hn.1)
    by_cases hmine : ∃ q, (view db).requests id = some q ∧ q.toUserId = u ∧ q.status = 0
    · obtain ⟨q, hq, rfl, hpending⟩ := hmine
      have hfriends : ((view db).friends q.toUserId q.fromUserId).isSome = true := by
        rw [Option.isSome_iff_ne_none]
        intro hnone
        exact ha ⟨q, hq, rfl, hpending, hnone⟩
      obtain ⟨_, _, hview⟩ := handleRequest_refuse h hq hpending hfriends g now
      rw [hview]
      exact hg.setGroup
    · rw [handleRequest_other]
      · exact hg
      · intro q hq hto hpending
        exact hmine ⟨q, hq, hto, hpending⟩

theorem friendStep_partitioned (h : FriendsOk db) (hop : op.PlainIds) (hp : Partitioned db) :
    Partitioned (friendStep db op) ↔ misplaces db op = false := by
  obtain ⟨hafter, hdoes⟩ := friendStep_does h op hop
  have hg := h.grouped hp
  have hiff : Partitioned (friendStep db op) ↔ (view (friendStep db op)).Grouped :=
    ⟨hafter.grouped, hafter.partitioned⟩
  rw [hiff]
  cases op with
  | moveFriend u f g => exact moveFriend_grouped h hg
  | handleRequest u i accept g now =>
    cases accept with
    | true => exact accept_grouped h hg
    | false => exact iff_of_true (hdoes.grouped hg (by intros; simp) (by intros; simp)) rfl
  | _ => exact iff_of_true (hdoes.grouped hg (by intros; simp) (by intros; simp)) rfl

theorem partitioned_empty : Partitioned OrderedMap.empty := by
  refine friendsOk_empty.partitioned ?_
  intro u f d hd
  cases hd

/-- Along a run with plain user ids the groups divide the friends exactly as long as no friend is put
into a group that is not there. -/
theorem groups_partition_iff (ops : List FriendOp) (hops : ∀ op ∈ ops, op.PlainIds) :
    Always friendStep Partitioned OrderedMap.empty ops ↔
      AllSteps friendStep (fun db op => misplaces db op = false) OrderedMap.empty ops :=
  always_iff_allSteps (fun _ op h hop => (friendStep_does h op hop).1)
    (fun _ _ h hop hp => friendStep_partitioned h hop hp) friendsOk_empty partitioned_empty
    (allSteps_of_mem hops)

/-- `b` moves the friend `a` to the group without a name. -/
def moveToNowhere : List FriendOp := askAndAccept ++ [.moveFriend (str "b") (str "a") []]

theorem moveToNowhere_hides : ¬ Always friendStep Partitioned OrderedMap.empty moveToNowhere := by
  intro h
  have hlisted := (h.last.listed (str "b") (str "a")).mpr (by decide +kernel)
  revert hlisted
  decide +kernel

def groupRandom : RandomString 8 := RandomString.replicate 8 73 rfl

/-- `b` makes a group, moves `a` there and deletes the group. -/
def moveAndDelete : List FriendOp := askAndAccept ++
  [.createFriendGroup (str "b") (str "work") groupRandom,
    .moveFriend (str "b") (str "a") (generateShortId (str "g_") groupRandom),
    .deleteFriendGroup (str "b") (generateShortId (str "g_") groupRandom)]

theorem moveAndDelete_partitioned :
    Always friendStep Partitioned OrderedMap.empty moveAndDelete ∧
      FriendStore.isFriend (friendAfter moveAndDelete) (str "b") (str "a") = true := by
  have hops : ∀ op ∈ moveAndDelete, op.PlainIds := by decide
  have hplaced : AllSteps friendStep (fun db op => misplaces db op = false) OrderedMap.empty
      moveAndDelete := by decide +kernel
  exact ⟨(groups_partition_iff moveAndDelete hops).mpr hplaced, by decide +kernel⟩

end SwiftChat.Friend
