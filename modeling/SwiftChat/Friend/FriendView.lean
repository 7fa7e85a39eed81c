import SwiftChat.Chat.Keys
import SwiftChat.Friend.FriendService
import Mathlib.Logic.Function.Basic

/-! What the friend database stands for: friendships, requests and groups, and what each call of the
store does to them. -/
namespace SwiftChat.Friend
open Base
open Chat (colon str_colon)
variable {db : FriendDb} {a b u f g k id : Bytes} {v : FriendValue} {d : FriendData}
  {r : FriendRequestData} {x : FriendGroupData}

/-- An id that can stand between separators. -/
structure Plain (u : Bytes) : Prop where
  ne_nil : u ≠ []
  free : colon ∉ u

/-- A friendship as it may be stored: between two users. -/
structure FriendData.Ok (d : FriendData) : Prop where
  user : Plain d.userId
  friend : Plain d.friendId
  other : d.userId ≠ d.friendId

structure FriendRequestData.Ok (r : FriendRequestData) : Prop where
  id : Plain r.requestId
  sender : Plain r.fromUserId
  receiver : Plain r.toUserId
  other : r.toUserId ≠ r.fromUserId
  status : 0 ≤ r.status ∧ r.status ≤ 2

theorem FriendData.Ok.stored (h : d.Ok) : d.stored.Ok := ⟨h.user, h.friend, h.other⟩

theorem FriendRequestData.Ok.stored (h : r.Ok) : r.stored.Ok where
  id := h.id
  sender := h.sender
  receiver := h.receiver
  other := h.other
  status := by
    have hs := h.status
    have hsame : wrap 32 r.status = r.status := by
      apply wrap_of_fits
      unfold Fits
      omega
    change 0 ≤ wrap 32 r.status ∧ wrap 32 r.status ≤ 2
    rwa [hsame]

structure FriendGroupData.Ok (x : FriendGroupData) : Prop where
  user : Plain x.userId
  id : Plain x.groupId

/-- Every entry is filed under the key that its own fields make. -/
inductive Filed : Bytes → FriendValue → Prop where
  | friend {d : FriendData} (h : d.Ok) : Filed (keyFriend d.userId d.friendId) (serializeFriend d)
  | request {r : FriendRequestData} (h : r.Ok) :
    Filed (keyFriendReq r.requestId) (serializeRequest r)
  | received {u id : Bytes} (hu : Plain u) (hid : Plain id) : Filed (keyFriendReqTo u id) (.text [])
  | sent {u id : Bytes} : Filed (keyFriendReqFrom u id) (.text [])
  | group {x : FriendGroupData} (h : x.Ok) :
    Filed (keyFriendGroup x.userId x.groupId) (serializeGroup x)
  | block {u t : Bytes} : Filed (keyBlock u t) (.text (str "1"))

def AllFiled (db : FriendDb) : Prop := ∀ k v, db.get k = some v → Filed k v

theorem allFiled_empty : AllFiled OrderedMap.empty := by
  intro k v h
  cases h

theorem AllFiled.put (h : AllFiled db) (hk : Filed k v) : AllFiled (db.put k v) := by
  intro k' v' hv
  rcases OrderedMap.get_put_some hv with ⟨rfl, rfl⟩ | ⟨_, hold⟩
  · exact hk
  · exact h k' v' hold

theorem AllFiled.delete (h : AllFiled db) : AllFiled (db.delete k) := by
  intro k' v' hv
  exact h k' v' (OrderedMap.get_delete_some hv).2

/-! The kinds of keys differ in their first bytes. -/

theorem kFriend_isPrefix (u f : Bytes) : kFriend <+: keyFriend u f := by
  simp [keyFriend, List.append_assoc]

theorem kFriendReq_isPrefix (id : Bytes) : kFriendReq <+: keyFriendReq id :=
  List.prefix_append _ _

theorem kFriendReqTo_isPrefix (u id : Bytes) : kFriendReqTo <+: keyFriendReqTo u id := by
  simp [keyFriendReqTo, List.append_assoc]

theorem kFriendReqFrom_isPrefix (u id : Bytes) : kFriendReqFrom <+: keyFriendReqFrom u id := by
  simp [keyFriendReqFrom, List.append_assoc]

theorem kFriendGroup_isPrefix (u g : Bytes) : kFriendGroup <+: keyFriendGroup u g := by
  simp [keyFriendGroup, List.append_assoc]

theorem kBlock_isPrefix (u t : Bytes) : kBlock <+: keyBlock u t := by
  simp [keyBlock, List.append_assoc]

/-- Keys of two kinds are different. -/
theorem ne_of_kinds {p q k' : Bytes} (hp : p <+: k) (hq : q <+: k') (hpq : ¬ (p <+: q ∨ q <+: p)) :
    k ≠ k' := by
  rintro rfl
  exact hpq (List.prefix_or_prefix_of_prefix hp hq)

theorem not_prefix_of_kinds {p q : Bytes} (hq : q <+: k) (hpq : ¬ (p <+: q ∨ q <+: p)) :
    ¬ p <+: k := fun hp => hpq (List.prefix_or_prefix_of_prefix hp hq)

theorem keyFriend_inj (hu : Plain u) (hf : Plain f) :
    keyFriend a b = keyFriend u f ↔ a = u ∧ b = f := by
  constructor
  · intro h
    simp only [keyFriend, str_colon, List.append_assoc] at h
    exact append_sep_inj_of_free hu.free hf.free (List.append_cancel_left h)
  · rintro ⟨rfl, rfl⟩
    rfl

theorem keyFriendReq_inj : keyFriendReq a = keyFriendReq b ↔ a = b :=
  List.append_right_inj _

theorem keyFriendReqTo_inj (hu : Plain u) (hid : Plain id) :
    keyFriendReqTo a b = keyFriendReqTo u id ↔ a = u ∧ b = id := by
  constructor
  · intro h
    simp only [keyFriendReqTo, str_colon, List.append_assoc] at h
    exact append_sep_inj_of_free hu.free hid.free (List.append_cancel_left h)
  · rintro ⟨rfl, rfl⟩
    rfl

theorem keyFriendGroup_inj (hu : Plain u) (hg : Plain g) :
    keyFriendGroup a b = keyFriendGroup u g ↔ a = u ∧ b = g := by
  constructor
  · intro h
    simp only [keyFriendGroup, str_colon, List.append_assoc] at h
    exact append_sep_inj_of_free hu.free hg.free (List.append_cancel_left h)
  · rintro ⟨rfl, rfl⟩
    rfl

/-! What is stored under each kind of key. -/

theorem Filed.of_friend (h : Filed k v) (hk : kFriend <+: k) :
    ∃ d : FriendData, d.Ok ∧ k = keyFriend d.userId d.friendId ∧ v = serializeFriend d := by
  cases h with
  | friend h => exact ⟨_, h, rfl, rfl⟩
  | request _ => exact absurd hk (not_prefix_of_kinds (kFriendReq_isPrefix _) (by decide))
  | received _ _ => exact absurd hk (not_prefix_of_kinds (kFriendReqTo_isPrefix _ _) (by decide))
  | sent => exact absurd hk (not_prefix_of_kinds (kFriendReqFrom_isPrefix _ _) (by decide))
  | group _ => exact absurd hk (not_prefix_of_kinds (kFriendGroup_isPrefix _ _) (by decide))
  | block => exact absurd hk (not_prefix_of_kinds (kBlock_isPrefix _ _) (by decide))

theorem Filed.of_request (h : Filed k v) (hk : kFriendReq <+: k) :
    ∃ r : FriendRequestData, r.Ok ∧ k = keyFriendReq r.requestId ∧ v = serializeRequest r := by
  cases h with
  | friend _ => exact absurd hk (not_prefix_of_kinds (kFriend_isPrefix _ _) (by decide))
  | request h => exact ⟨_, h, rfl, rfl⟩
  | received _ _ => exact absurd hk (not_prefix_of_kinds (kFriendReqTo_isPrefix _ _) (by decide))
  | sent => exact absurd hk (not_prefix_of_kinds (kFriendReqFrom_isPrefix _ _) (by decide))
  | group _ => exact absurd hk (not_prefix_of_kinds (kFriendGroup_isPrefix _ _) (by decide))
  | block => exact absurd hk (not_prefix_of_kinds (kBlock_isPrefix _ _) (by decide))

theorem Filed.of_group (h : Filed k v) (hk : kFriendGroup <+: k) :
    ∃ x : FriendGroupData, x.Ok ∧ k = keyFriendGroup x.userId x.groupId ∧ v = serializeGroup x := by
  cases h with
  | friend _ => exact absurd hk (not_prefix_of_kinds (kFriend_isPrefix _ _) (by decide))
  | request _ => exact absurd hk (not_prefix_of_kinds (kFriendReq_isPrefix _) (by decide))
  | received _ _ => exact absurd hk (not_prefix_of_kinds (kFriendReqTo_isPrefix _ _) (by decide))
  | sent => exact absurd hk (not_prefix_of_kinds (kFriendReqFrom_isPrefix _ _) (by decide))
  | group h => exact ⟨_, h, rfl, rfl⟩
  | block => exact absurd hk (not_prefix_of_kinds (kBlock_isPrefix _ _) (by decide))

/-! The view. -/

/-- Who has whom as a friend, with the record; the requests by id; the groups of each user. -/
structure View where
  friends : Bytes → Bytes → Option FriendData
  requests : Bytes → Option FriendRequestData
  groups : Bytes → Bytes → Prop

def view (db : FriendDb) : View where
  friends a b := (db.get (keyFriend a b)).bind deserializeFriend
  requests := FriendStore.getRequest db
  groups u g := (db.get (keyFriendGroup u g)).isSome

namespace View

/-- The record of `u` about `f` is `o` from now on. -/
def setFriend (V : View) (u f : Bytes) (o : Option FriendData) : View :=
  { V with friends := fun a b => if a = u ∧ b = f then o else V.friends a b }

def setRequest (V : View) (id : Bytes) (r : FriendRequestData) : View :=
  { V with requests := Function.update V.requests id (some r) }

def setGroup (V : View) (u g : Bytes) (p : Prop) : View :=
  { V with groups := fun a b => if a = u ∧ b = g then p else V.groups a b }

/-- The group goes, and the friends in it are in the default group. -/
def dropGroup (V : View) (u g : Bytes) : View where
  friends a b := (V.friends a b).map fun d =>
    if a = u ∧ d.groupId = g then { d with groupId := defaultFriendGroupId } else d
  requests := V.requests
  groups a b := if a = u ∧ b = g then False else V.groups a b

@[simp] theorem setFriend_requests {V : View} {o : Option FriendData} :
    (V.setFriend u f o).requests = V.requests := rfl

@[simp] theorem setFriend_groups {V : View} {o : Option FriendData} :
    (V.setFriend u f o).groups = V.groups := rfl

@[simp] theorem setRequest_friends {V : View} : (V.setRequest id r).friends = V.friends := rfl

@[simp] theorem setRequest_groups {V : View} : (V.setRequest id r).groups = V.groups := rfl

@[simp] theorem setGroup_friends {V : View} {p : Prop} : (V.setGroup u g p).friends = V.friends :=
  rfl

@[simp] theorem setGroup_requests {V : View} {p : Prop} :
    (V.setGroup u g p).requests = V.requests := rfl

/-- Rewriting a record makes no other one. -/
theorem setFriend_absent {V : View} {o : Option FriendData} (hd : V.friends u f ≠ none)
    (hnew : V.friends a b = none) : (V.setFriend u f o).friends a b = none := by
  simp only [setFriend]
  rw [if_neg]
  · exact hnew
  · rintro ⟨rfl, rfl⟩
    exact hd hnew

/-- A group that is there can be added again. -/
theorem setGroup_of_true {V : View} (h : V.groups u g) : V.setGroup u g True = V := by
  unfold setGroup
  congr
  funext a b
  split
  · rename_i he
    rw [he.1, he.2]
    exact propext ⟨fun _ => h, fun _ => trivial⟩
  · rfl

end View

theorem view_congr {db' : FriendDb}
    (hf : ∀ a b, db'.get (keyFriend a b) = db.get (keyFriend a b))
    (hr : ∀ id, db'.get (keyFriendReq id) = db.get (keyFriendReq id))
    (hg : ∀ u g, db'.get (keyFriendGroup u g) = db.get (keyFriendGroup u g)) :
    view db' = view db := by
  unfold view FriendStore.getRequest
  simp only [hf, hr, hg]

/-- Keys of other kinds do not count. -/
theorem view_put_other (hf : ¬ kFriend <+: k) (hr : ¬ kFriendReq <+: k) (hg : ¬ kFriendGroup <+: k) :
    view (db.put k v) = view db := by
  apply view_congr
  · intro a b
    exact OrderedMap.get_put_ne (fun he => hf (he ▸ kFriend_isPrefix a b))
  · intro id
    exact OrderedMap.get_put_ne (fun he => hr (he ▸ kFriendReq_isPrefix id))
  · intro u g
    exact OrderedMap.get_put_ne (fun he => hg (he ▸ kFriendGroup_isPrefix u g))

theorem view_delete_other (hf : ¬ kFriend <+: k) (hr : ¬ kFriendReq <+: k)
    (hg : ¬ kFriendGroup <+: k) : view (db.delete k) = view db := by
  apply view_congr
  · intro a b
    exact OrderedMap.get_delete_ne (fun he => hf (he ▸ kFriend_isPrefix a b))
  · intro id
    exact OrderedMap.get_delete_ne (fun he => hr (he ▸ kFriendReq_isPrefix id))
  · intro u g
    exact OrderedMap.get_delete_ne (fun he => hg (he ▸ kFriendGroup_isPrefix u g))

theorem keyFriend_ne_req : keyFriend a b ≠ keyFriendReq id :=
  ne_of_kinds (kFriend_isPrefix _ _) (kFriendReq_isPrefix _) (by decide)

theorem keyFriend_ne_group : keyFriend a b ≠ keyFriendGroup u g :=
  ne_of_kinds (kFriend_isPrefix _ _) (kFriendGroup_isPrefix _ _) (by decide)

theorem keyFriendReq_ne_group : keyFriendReq id ≠ keyFriendGroup u g :=
  ne_of_kinds (kFriendReq_isPrefix _) (kFriendGroup_isPrefix _ _) (by decide)

theorem view_put_friend (hu : Plain u) (hf : Plain f) :
    view (db.put (keyFriend u f) v) = (view db).setFriend u f (deserializeFriend v) := by
  unfold view View.setFriend FriendStore.getRequest
  congr
  · funext a b
    rw [OrderedMap.get_put]
    simp only [keyFriend_inj hu hf]
    split <;> rfl
  · funext id
    rw [OrderedMap.get_put_ne keyFriend_ne_req.symm]
  · funext a b
    rw [OrderedMap.get_put_ne keyFriend_ne_group.symm]

theorem view_delete_friend (hu : Plain u) (hf : Plain f) :
    view (db.delete (keyFriend u f)) = (view db).setFriend u f none := by
  unfold view View.setFriend FriendStore.getRequest
  congr
  · funext a b
    rw [OrderedMap.get_delete]
    simp only [keyFriend_inj hu hf]
    split <;> rfl
  · funext id
    rw [OrderedMap.get_delete_ne keyFriend_ne_req.symm]
  · funext a b
    rw [OrderedMap.get_delete_ne keyFriend_ne_group.symm]

theorem view_put_request (hid : id ≠ []) (hr : deserializeRequest v = some r) :
    view (db.put (keyFriendReq id) v) = (view db).setRequest id r := by
  unfold view View.setRequest FriendStore.getRequest
  congr
  · funext a b
    rw [OrderedMap.get_put_ne keyFriend_ne_req]
  · funext id'
    by_cases he : id' = id
    · rw [he, if_neg hid, OrderedMap.get_put_self, Function.update_self, Option.bind_some, hr]
    · rw [Function.update_of_ne he,
        OrderedMap.get_put_ne (fun hk => he (keyFriendReq_inj.mp hk))]
  · funext a b
    rw [OrderedMap.get_put_ne keyFriendReq_ne_group.symm]

theorem view_put_group (hu : Plain u) (hg : Plain g) :
    view (db.put (keyFriendGroup u g) v) = (view db).setGroup u g True := by
  unfold view View.setGroup FriendStore.getRequest
  congr
  · funext a b
    rw [OrderedMap.get_put_ne keyFriend_ne_group]
  · funext id
    rw [OrderedMap.get_put_ne keyFriendReq_ne_group]
  · funext a b
    rw [OrderedMap.get_put]
    simp only [keyFriendGroup_inj hu hg]
    split <;> simp

/-! What the reads of the store show of the view. -/

theorem AllFiled.friends (h : AllFiled db) (hd : (view db).friends a b = some d) :
    d.Ok ∧ d.userId = a ∧ d.friendId = b ∧ d.stored = d := by
  obtain ⟨v, hv, hread⟩ := Option.bind_eq_some_iff.mp hd
  obtain ⟨e, he, hk, rfl⟩ := (h _ _ hv).of_friend (kFriend_isPrefix a b)
  obtain ⟨rfl, rfl⟩ := (keyFriend_inj he.user he.friend).mp hk
  rw [deserialize_serializeFriend] at hread
  rw [← Option.some.inj hread]
  exact ⟨he.stored, rfl, rfl, FriendData.stored_stored⟩

theorem AllFiled.friend_value (h : AllFiled db) (hv : db.get (keyFriend a b) = some v) :
    ∃ d, (view db).friends a b = some d ∧ deserializeFriend v = some d := by
  obtain ⟨e, he, _, rfl⟩ := (h _ _ hv).of_friend (kFriend_isPrefix a b)
  refine ⟨_, ?_, deserialize_serializeFriend e⟩
  simp only [view, hv, Option.bind_some, deserialize_serializeFriend]

theorem AllFiled.isFriend_eq (h : AllFiled db) :
    FriendStore.isFriend db a b = ((view db).friends a b).isSome := by
  have hkey : (db.get (keyFriend a b)).isSome = ((view db).friends a b).isSome := by
    cases hv : db.get (keyFriend a b) with
    | none => simp [view, hv]
    | some v =>
      obtain ⟨d, hd, _⟩ := h.friend_value hv
      rw [hd]
      rfl
  unfold FriendStore.isFriend
  split
  · rename_i hnil
    cases hd : (view db).friends a b with
    | none => rfl
    | some d =>
      obtain ⟨hok, rfl, rfl, _⟩ := h.friends hd
      rcases hnil with hnil | hnil
      · exact absurd hnil hok.user.ne_nil
      · exact absurd hnil hok.friend.ne_nil
  · exact hkey

theorem AllFiled.requests (h : AllFiled db) (hr : (view db).requests id = some r) :
    r.Ok ∧ r.requestId = id ∧ r.stored = r := by
  unfold view FriendStore.getRequest at hr
  simp only at hr
  split at hr
  · cases hr
  · obtain ⟨v, hv, hr⟩ := Option.bind_eq_some_iff.mp hr
    obtain ⟨q, hq, hk, rfl⟩ := (h _ _ hv).of_request (kFriendReq_isPrefix id)
    rw [deserialize_serializeRequest] at hr
    rw [← Option.some.inj hr]
    exact ⟨hq.stored, (keyFriendReq_inj.mp hk).symm, FriendRequestData.stored_stored⟩

/-- The list of friends shows the friendships that have a group, by group if asked. -/
theorem AllFiled.mem_getFriends (h : AllFiled db) :
    d ∈ FriendStore.getFriends db u g ↔
      (view db).friends u d.friendId = some d ∧ d.groupId ≠ [] ∧ (g = [] ∨ d.groupId = g) := by
  have hkey : ∀ f, keyFriend u f = prefixFriend u ++ f := fun _ => rfl
  constructor
  · intro hd
    unfold FriendStore.getFriends at hd
    split at hd
    · cases hd
    · obtain ⟨⟨k, v⟩, he, hd⟩ := List.mem_filterMap.mp hd
      obtain ⟨hv, f, rfl⟩ := OrderedMap.mem_scan.mp he
      obtain ⟨e, hfriend, hread⟩ := h.friend_value (show db.get (keyFriend u f) = some v from hv)
      rw [hread] at hd
      simp only at hd
      split at hd
      · cases hd
      · rename_i hgroup
        split at hd
        · rename_i hg
          obtain rfl := Option.some.inj hd
          obtain ⟨_, _, rfl, _⟩ := h.friends hfriend
          exact ⟨hfriend, hgroup, hg⟩
        · cases hd
  · rintro ⟨hd, hgroup, hg⟩
    have hu : u ≠ [] := by
      obtain ⟨hok, rfl, _, _⟩ := h.friends hd
      exact hok.user.ne_nil
    obtain ⟨v, hv, hread⟩ := Option.bind_eq_some_iff.mp hd
    rw [FriendStore.getFriends, if_neg hu]
    refine List.mem_filterMap.mpr ⟨(keyFriend u d.friendId, v), ?_, ?_⟩
    · exact OrderedMap.mem_scan.mpr ⟨hv, hkey _ ▸ List.prefix_append _ _⟩
    · simp only [hread, hgroup, hg, if_false, if_true]

/-- The list of groups shows each group as it is filed. -/
theorem AllFiled.mem_groupList (h : AllFiled db) : x ∈ FriendStore.getGroups db u ↔
    (db.get (keyFriendGroup u x.groupId)).bind deserializeGroup = some x := by
  constructor
  · intro hx
    unfold FriendStore.getGroups at hx
    split at hx
    · cases hx
    · obtain ⟨⟨k, v⟩, he, hx⟩ := List.mem_filterMap.mp hx
      obtain ⟨hv, g, rfl⟩ := OrderedMap.mem_scan.mp he
      obtain ⟨w, hw, hk, rfl⟩ := (h _ _ hv).of_group (kFriendGroup_isPrefix u g)
      obtain ⟨rfl, rfl⟩ := (keyFriendGroup_inj hw.user hw.id).mp hk
      rw [deserialize_serializeGroup] at hx
      obtain rfl := Option.some.inj hx
      exact Option.bind_eq_some_iff.mpr ⟨_, hv, deserialize_serializeGroup w⟩
  · intro hx
    obtain ⟨v, hv, hread⟩ := Option.bind_eq_some_iff.mp hx
    obtain ⟨w, hw, hk, _⟩ := (h _ _ hv).of_group (kFriendGroup_isPrefix u x.groupId)
    obtain ⟨rfl, _⟩ := (keyFriendGroup_inj hw.user hw.id).mp hk
    rw [FriendStore.getGroups, if_neg hw.user.ne_nil]
    exact List.mem_filterMap.mpr
      ⟨(_, v), OrderedMap.mem_scan.mpr ⟨hv, List.prefix_append _ _⟩, hread⟩

/-- The list of groups shows the groups. -/
theorem AllFiled.mem_getGroups (h : AllFiled db) :
    (∃ x ∈ FriendStore.getGroups db u, x.groupId = g) ↔ (view db).groups u g := by
  constructor
  · rintro ⟨x, hx, rfl⟩
    obtain ⟨v, hv, _⟩ := Option.bind_eq_some_iff.mp (h.mem_groupList.mp hx)
    exact Option.isSome_iff_exists.mpr ⟨v, hv⟩
  · intro hg
    obtain ⟨v, hv⟩ := Option.isSome_iff_exists.mp hg
    obtain ⟨y, hy, hk, rfl⟩ := (h _ _ hv).of_group (kFriendGroup_isPrefix u g)
    obtain ⟨rfl, rfl⟩ := (keyFriendGroup_inj hy.user hy.id).mp hk
    refine ⟨y.stored, h.mem_groupList.mpr ?_, rfl⟩
    exact Option.bind_eq_some_iff.mpr ⟨_, hv, deserialize_serializeGroup y⟩

theorem AllFiled.any_group (h : AllFiled db) :
    (FriendStore.getGroups db u).any (fun x => x.groupId = g) = true ↔ (view db).groups u g := by
  rw [← h.mem_getGroups, List.any_eq_true]
  simp

end SwiftChat.Friend
