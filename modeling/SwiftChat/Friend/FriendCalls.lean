import SwiftChat.Friend.FriendView

/-! What each call of the friend store does to the view, and what all of them keep. -/
namespace SwiftChat.Friend
open Base
open Chat (colon str_colon)
variable {db : FriendDb} {a b u f g id : Bytes} {d : FriendData} {r : FriendRequestData}
  {x : FriendGroupData} {status : Int}

/-- The index of received requests lists each request under its receiver, and nothing else. -/
def ReqIndexed (db : FriendDb) : Prop :=
  ∀ u id, (db.get (keyFriendReqTo u id)).isSome ↔
    ∃ r, (view db).requests id = some r ∧ r.toUserId = u

/-- What holds of the friend database in every reachable state. -/
structure FriendsOk (db : FriendDb) : Prop where
  filed : AllFiled db
  indexed : ReqIndexed db
  both : ∀ a b, ((view db).friends a b).isSome → ((view db).friends b a).isSome

theorem friendsOk_empty : FriendsOk OrderedMap.empty where
  filed := allFiled_empty
  indexed u id := by simp [view, FriendStore.getRequest]
  both a b h := by simp [view] at h

theorem keyFriendReqTo_ne_friend : keyFriendReqTo u id ≠ keyFriend a b :=
  ne_of_kinds (kFriendReqTo_isPrefix _ _) (kFriend_isPrefix _ _) (by decide)

theorem keyFriendReqTo_ne_request {i : Bytes} : keyFriendReqTo u id ≠ keyFriendReq i :=
  ne_of_kinds (kFriendReqTo_isPrefix _ _) (kFriendReq_isPrefix _) (by decide)

theorem keyFriendReqTo_ne_group : keyFriendReqTo u id ≠ keyFriendGroup a g :=
  ne_of_kinds (kFriendReqTo_isPrefix _ _) (kFriendGroup_isPrefix _ _) (by decide)

/-- The index is right when its keys stay and so do the receivers. -/
theorem ReqIndexed.congr {db' : FriendDb} (h : ReqIndexed db)
    (hkey : ∀ u id, db'.get (keyFriendReqTo u id) = db.get (keyFriendReqTo u id))
    (hview : (view db').requests = (view db).requests) : ReqIndexed db' := by
  intro u id
  rw [hkey, hview]
  exact h u id

/-! Making and ending a friendship. -/

/-- Both sides of a new friendship. -/
def View.befriend (V : View) (d : FriendData) : View :=
  (V.setFriend d.userId d.friendId (some d.stored)).setFriend d.friendId d.userId
    (some (FriendStore.reverse d).stored)

def View.part (V : View) (u f : Bytes) : View := (V.setFriend u f none).setFriend f u none

theorem FriendData.Ok.reverse (h : d.Ok) : (FriendStore.reverse d).Ok :=
  ⟨h.friend, h.user, h.other.symm⟩

/-- Setting both sides alike keeps friendship mutual. -/
theorem mutual_setFriend {V : View} {o o' : Option FriendData} (huf : u ≠ f)
    (hsame : o.isSome ↔ o'.isSome)
    (h : ∀ a b, (V.friends a b).isSome → (V.friends b a).isSome) :
    ∀ a b, (((V.setFriend u f o).setFriend f u o').friends a b).isSome →
      (((V.setFriend u f o).setFriend f u o').friends b a).isSome := by
  intro a b
  simp only [View.setFriend]
  by_cases h₁ : a = f ∧ b = u
  · obtain ⟨rfl, rfl⟩ := h₁
    simp [huf, hsame]
  · by_cases h₂ : a = u ∧ b = f
    · obtain ⟨rfl, rfl⟩ := h₂
      simp [h₁, hsame]
    · have h₃ : ¬ (b = f ∧ a = u) := fun hc => h₂ ⟨hc.2, hc.1⟩
      have h₄ : ¬ (b = u ∧ a = f) := fun hc => h₁ ⟨hc.2, hc.1⟩
      simp only [h₁, h₂, h₃, h₄, if_false]
      exact h a b

theorem addFriend_view (hd : d.Ok) (hnew : FriendStore.isFriend db d.userId d.friendId = false) :
    (FriendStore.addFriend db d).2 = true ∧
      view (FriendStore.addFriend db d).1 = (view db).befriend d := by
  simp only [FriendStore.addFriend, hd.user.ne_nil, hd.friend.ne_nil, or_self, if_false, hnew,
    Bool.false_eq_true, OrderedMap.write_cons, OrderedMap.apply_put, OrderedMap.write_nil]
  refine ⟨trivial, ?_⟩
  rw [view_put_friend hd.reverse.user hd.reverse.friend, view_put_friend hd.user hd.friend,
    deserialize_serializeFriend, deserialize_serializeFriend]
  rfl

theorem FriendsOk.addFriend (h : FriendsOk db) (hd : d.Ok) :
    FriendsOk (FriendStore.addFriend db d).1 := by
  by_cases hnew : FriendStore.isFriend db d.userId d.friendId = true
  · have hsame : FriendStore.addFriend db d = (db, false) := by
      simp [FriendStore.addFriend, hnew]
    rw [hsame]
    exact h
  · have hview := (addFriend_view hd (by simpa using hnew)).2
    constructor
    · simp only [FriendStore.addFriend, hd.user.ne_nil, hd.friend.ne_nil, or_self, if_false, hnew]
      exact (h.filed.put (.friend hd)).put (.friend hd.reverse)
    · apply h.indexed.congr
      · intro u id
        simp only [FriendStore.addFriend, hd.user.ne_nil, hd.friend.ne_nil, or_self, if_false, hnew]
        exact (OrderedMap.get_put_ne keyFriendReqTo_ne_friend).trans
          (OrderedMap.get_put_ne keyFriendReqTo_ne_friend)
      · rw [hview]
        rfl
    · rw [hview]
      exact mutual_setFriend hd.other (by simp) h.both

theorem removeFriend_view (db : FriendDb) (hu : Plain u) (hf : Plain f) :
    view (FriendStore.removeFriend db u f).1 = (view db).part u f := by
  simp only [FriendStore.removeFriend, hu.ne_nil, hf.ne_nil, or_self, if_false,
    OrderedMap.write_cons, OrderedMap.apply_delete, OrderedMap.write_nil]
  rw [view_delete_friend hf hu, view_delete_friend hu hf]
  rfl

theorem FriendsOk.removeFriend (h : FriendsOk db) (hu : Plain u) (hf : Plain f) (hne : u ≠ f) :
    FriendsOk (FriendStore.removeFriend db u f).1 := by
  have hview := removeFriend_view db hu hf
  constructor
  · simp only [FriendStore.removeFriend, hu.ne_nil, hf.ne_nil, or_self, if_false]
    exact h.filed.delete.delete
  · apply h.indexed.congr
    · intro v id
      simp only [FriendStore.removeFriend, hu.ne_nil, hf.ne_nil, or_self, if_false]
      exact (OrderedMap.get_delete_ne keyFriendReqTo_ne_friend).trans
        (OrderedMap.get_delete_ne keyFriendReqTo_ne_friend)
    · rw [hview]
      rfl
  · rw [hview]
    exact mutual_setFriend hne Iff.rfl h.both

/-! Rewriting one side. -/

/-- A record rewritten by `fn` keeps its key. -/
def KeepsKey (fn : FriendData → FriendData) : Prop :=
  ∀ d, (fn d).userId = d.userId ∧ (fn d).friendId = d.friendId

theorem updateFriend_eq (fn : FriendData → FriendData) (h : AllFiled db)
    (hd : (view db).friends u f = some d) : FriendStore.updateFriend db u f fn =
      (db.put (keyFriend u f) (serializeFriend (fn d)), true) := by
  obtain ⟨hok, rfl, rfl, _⟩ := h.friends hd
  have hread : (db.get (keyFriend d.userId d.friendId)).bind deserializeFriend = some d := hd
  simp only [FriendStore.updateFriend, hok.user.ne_nil, hok.friend.ne_nil, or_self, if_false, hread]

theorem updateFriend_view (fn : FriendData → FriendData) (h : AllFiled db)
    (hd : (view db).friends u f = some d) :
    view (FriendStore.updateFriend db u f fn).1 = (view db).setFriend u f (some (fn d).stored) := by
  obtain ⟨hok, huser, hfriend, _⟩ := h.friends hd
  rw [updateFriend_eq fn h hd, view_put_friend (huser ▸ hok.user) (hfriend ▸ hok.friend),
    deserialize_serializeFriend]

/-- A record that is rewritten stays a record. -/
theorem View.setFriend_isSome {V : View} {e : FriendData} (hd : V.friends u f = some d) :
    ((V.setFriend u f (some e)).friends a b).isSome = (V.friends a b).isSome := by
  simp only [View.setFriend]
  split
  · rename_i he
    rw [he.1, he.2, hd]
    rfl
  · rfl

theorem FriendsOk.updateFriend {fn : FriendData → FriendData} (h : FriendsOk db)
    (hfn : KeepsKey fn) : FriendsOk (FriendStore.updateFriend db u f fn).1 := by
  cases hd : (view db).friends u f with
  | none =>
    have hsame : FriendStore.updateFriend db u f fn = (db, false) := by
      have hread : (db.get (keyFriend u f)).bind deserializeFriend = none := hd
      simp [FriendStore.updateFriend, hread]
    rw [hsame]
    exact h
  | some d =>
    have hview := updateFriend_view fn h.filed hd
    obtain ⟨hok, huser, hfriend, _⟩ := h.filed.friends hd
    obtain ⟨hu, hf⟩ := hfn d
    have hok' : (fn d).Ok := ⟨hu ▸ hok.user, hf ▸ hok.friend, hu ▸ hf ▸ hok.other⟩
    constructor
    · rw [updateFriend_eq fn h.filed hd]
      refine h.filed.put ?_
      rw [← huser, ← hfriend, ← hu, ← hf]
      exact .friend hok'
    · apply h.indexed.congr
      · intro v id
        rw [updateFriend_eq fn h.filed hd]
        exact OrderedMap.get_put_ne keyFriendReqTo_ne_friend
      · rw [hview]
        rfl
    · intro a b
      rw [hview, View.setFriend_isSome hd, View.setFriend_isSome hd]
      exact h.both a b

/-! Requests. -/

theorem AllFiled.request_key (h : AllFiled db) (hid : id ≠ []) :
    (db.get (keyFriendReq id)).isSome = ((view db).requests id).isSome := by
  simp only [view, FriendStore.getRequest, hid, if_false]
  cases hv : db.get (keyFriendReq id) with
  | none => rfl
  | some v =>
    obtain ⟨q, _, _, rfl⟩ := (h _ _ hv).of_request (kFriendReq_isPrefix id)
    rw [Option.bind_some, deserialize_serializeRequest]
    rfl

theorem createRequest_known (h : AllFiled db)
    (hr : ((view db).requests r.requestId).isSome = true) :
    FriendStore.createRequest db r = (db, false) := by
  by_cases hid : r.requestId = []
  · simp [FriendStore.createRequest, hid]
  · simp [FriendStore.createRequest, h.request_key hid, hr]

theorem createRequest_eq (h : AllFiled db) (hr : r.Ok) (hnew : (view db).requests r.requestId = none) :
    FriendStore.createRequest db r =
      (((db.put (keyFriendReq r.requestId) (serializeRequest r)).put
        (keyFriendReqTo r.toUserId r.requestId) (.text [])).put
        (keyFriendReqFrom r.fromUserId r.requestId) (.text []), true) := by
  have hkey := h.request_key hr.id.ne_nil
  rw [hnew] at hkey
  simp [FriendStore.createRequest, hr.id.ne_nil, hr.sender.ne_nil, hr.receiver.ne_nil, hkey]

theorem createRequest_view (h : AllFiled db) (hr : r.Ok)
    (hnew : (view db).requests r.requestId = none) :
    view (FriendStore.createRequest db r).1 = (view db).setRequest r.requestId r.stored := by
  rw [createRequest_eq h hr hnew, view_put_other, view_put_other,
    view_put_request hr.id.ne_nil (deserialize_serializeRequest r)]
  · exact not_prefix_of_kinds (kFriendReqTo_isPrefix _ _) (by decide)
  · exact not_prefix_of_kinds (kFriendReqTo_isPrefix _ _) (by decide)
  · exact not_prefix_of_kinds (kFriendReqTo_isPrefix _ _) (by decide)
  · exact not_prefix_of_kinds (kFriendReqFrom_isPrefix _ _) (by decide)
  · exact not_prefix_of_kinds (kFriendReqFrom_isPrefix _ _) (by decide)
  · exact not_prefix_of_kinds (kFriendReqFrom_isPrefix _ _) (by decide)

theorem keyFriendReqTo_ne_sent {i : Bytes} : keyFriendReqTo u id ≠ keyFriendReqFrom a i :=
  ne_of_kinds (kFriendReqTo_isPrefix _ _) (kFriendReqFrom_isPrefix _ _) (by decide)

theorem FriendsOk.createRequest (h : FriendsOk db) (hr : r.Ok) :
    FriendsOk (FriendStore.createRequest db r).1 := by
  cases hnew : (view db).requests r.requestId with
  | some q =>
    rw [createRequest_known h.filed (by rw [hnew]; rfl)]
    exact h
  | none =>
    have hview := createRequest_view h.filed hr hnew
    constructor
    · rw [createRequest_eq h.filed hr hnew]
      exact ((h.filed.put (.request hr)).put (.received hr.receiver hr.id)).put .sent
    · intro u id
      rw [hview, createRequest_eq h.filed hr hnew, OrderedMap.get_put_ne keyFriendReqTo_ne_sent,
        OrderedMap.get_put]
      simp only [keyFriendReqTo_inj hr.receiver hr.id, View.setRequest]
      by_cases hid : id = r.requestId
      · subst hid
        rw [Function.update_self]
        by_cases hu : u = r.toUserId
        · simp [hu, FriendRequestData.stored]
        · rw [if_neg (fun hc => hu hc.1), OrderedMap.get_put_ne keyFriendReqTo_ne_request,
            h.indexed, hnew]
          simp [FriendRequestData.stored, Ne.symm hu]
      · rw [if_neg (fun hc => hid hc.2), OrderedMap.get_put_ne keyFriendReqTo_ne_request,
          h.indexed, Function.update_of_ne hid]
    · rw [hview]
      exact h.both

theorem updateRequestStatus_view (h : AllFiled db) (hr : (view db).requests id = some r)
    (status : Int) (hs : 0 ≤ status ∧ status ≤ 2) :
    (FriendStore.updateRequestStatus db id status).2 = true ∧
      view (FriendStore.updateRequestStatus db id status).1 =
        (view db).setRequest id { r with status := status } := by
  obtain ⟨hok, rfl, hstored⟩ := h.requests hr
  have hread : FriendStore.getRequest db r.requestId = some r := hr
  simp only [FriendStore.updateRequestStatus, hread]
  refine ⟨trivial, ?_⟩
  rw [view_put_request hok.id.ne_nil (deserialize_serializeRequest _)]
  have hw : wrap 32 status = status := by
    apply wrap_of_fits
    unfold Fits
    omega
  have ht : wrap 32 r.createdAt = r.createdAt := congrArg FriendRequestData.createdAt hstored
  simp only [FriendRequestData.stored, hw, ht]

theorem FriendsOk.updateRequestStatus (h : FriendsOk db) (hs : 0 ≤ status ∧ status ≤ 2) :
    FriendsOk (FriendStore.updateRequestStatus db id status).1 := by
  cases hr : (view db).requests id with
  | none =>
    have hread : FriendStore.getRequest db id = none := hr
    simp only [FriendStore.updateRequestStatus, hread]
    exact h
  | some r =>
    have hview := (updateRequestStatus_view h.filed hr status hs).2
    obtain ⟨hok, rfl, _⟩ := h.filed.requests hr
    have hread : FriendStore.getRequest db r.requestId = some r := hr
    constructor
    · simp only [FriendStore.updateRequestStatus, hread]
      exact h.filed.put
        (.request (r := { r with status := status }) ⟨hok.id, hok.sender, hok.receiver, hok.other, hs⟩)
    · intro u id
      have hkey : (FriendStore.updateRequestStatus db r.requestId status).1.get
          (keyFriendReqTo u id) = db.get (keyFriendReqTo u id) := by
        simp only [FriendStore.updateRequestStatus, hread]
        exact OrderedMap.get_put_ne keyFriendReqTo_ne_request
      rw [hkey, h.indexed, hview]
      simp only [View.setRequest]
      by_cases hid : id = r.requestId
      · subst hid
        rw [Function.update_self, hr]
        simp
      · rw [Function.update_of_ne hid]
    · rw [hview]
      exact h.both

/-- The requests a user has received. -/
theorem FriendsOk.mem_getReceivedRequests (h : FriendsOk db) :
    r ∈ FriendStore.getReceivedRequests db u ↔
      (view db).requests r.requestId = some r ∧ r.toUserId = u := by
  have hkey : ∀ id, keyFriendReqTo u id = prefixFriendReqTo u ++ id := fun _ => rfl
  constructor
  · intro hr
    unfold FriendStore.getReceivedRequests at hr
    split at hr
    · cases hr
    · obtain ⟨id, hid, hr⟩ := List.mem_filterMap.mp hr
      obtain ⟨_, hs⟩ := OrderedMap.mem_scan_tails.mp hid
      rw [← hkey, h.indexed] at hs
      obtain ⟨q, hq, hto⟩ := hs
      have hsame : (view db).requests id = some r := hr
      obtain ⟨_, rfl, _⟩ := h.filed.requests hsame
      rw [hsame] at hq
      exact ⟨hsame, Option.some.inj hq ▸ hto⟩
  · rintro ⟨hr, rfl⟩
    obtain ⟨hok, _, _⟩ := h.filed.requests hr
    rw [FriendStore.getReceivedRequests, if_neg hok.receiver.ne_nil]
    refine List.mem_filterMap.mpr ⟨r.requestId, OrderedMap.mem_scan_tails.mpr ⟨hok.id.ne_nil, ?_⟩, hr⟩
    rw [← hkey, h.indexed]
    exact ⟨r, hr, rfl⟩

/-! Groups. -/

theorem createGroup_view (db : FriendDb) (hx : x.Ok) :
    view (FriendStore.createGroup db x).1 = (view db).setGroup x.userId x.groupId True := by
  unfold FriendStore.createGroup
  rw [if_neg (by simp [hx.user.ne_nil, hx.id.ne_nil])]
  split
  · rename_i hknown
    exact (View.setGroup_of_true hknown).symm
  · exact view_put_group hx.user hx.id

theorem FriendsOk.createGroup (h : FriendsOk db) (hx : x.Ok) :
    FriendsOk (FriendStore.createGroup db x).1 := by
  have hview := createGroup_view db hx
  constructor
  · unfold FriendStore.createGroup
    repeat' split
    · exact h.filed
    · exact h.filed
    · exact h.filed.put (.group hx)
  · apply h.indexed.congr
    · intro u id
      unfold FriendStore.createGroup
      repeat' split
      · rfl
      · rfl
      · exact OrderedMap.get_put_ne keyFriendReqTo_ne_group
    · rw [hview]
      rfl
  · rw [hview]
    exact h.both

/-- The record of a friend whose group is deleted. -/
def toDefault (d : FriendData) : FriendData := { d with groupId := defaultFriendGroupId }

theorem deleteGroup_eq (hu : u ≠ []) (hg : g ≠ []) :
    FriendStore.deleteGroup db u g = ((db.delete (keyFriendGroup u g)).write
      ((FriendStore.getFriends db u g).map fun d =>
        .put (keyFriend u d.friendId) (serializeFriend (toDefault d))), true) := by
  simp only [FriendStore.deleteGroup, hu, hg, or_self, if_false, OrderedMap.write_cons,
    OrderedMap.apply_delete]
  rfl

/-- The batch writes no key but those of the friends in the group. -/
theorem deleteGroup_get_ne {k : Bytes} (hu : u ≠ []) (hg : g ≠ []) (hgroup : k ≠ keyFriendGroup u g)
    (hk : ∀ d ∈ FriendStore.getFriends db u g, keyFriend u d.friendId ≠ k) :
    (FriendStore.deleteGroup db u g).1.get k = db.get k := by
  rw [deleteGroup_eq hu hg]
  exact (OrderedMap.get_write_puts_ne hk).trans (OrderedMap.get_delete_ne hgroup)

/-- Under those it writes the record with the default group. -/
theorem deleteGroup_get_friend (h : AllFiled db) (hu : u ≠ []) (hg : g ≠ [])
    (hd : d ∈ FriendStore.getFriends db u g) :
    (FriendStore.deleteGroup db u g).1.get (keyFriend u d.friendId) =
      some (serializeFriend (toDefault d)) := by
  rw [deleteGroup_eq hu hg]
  refine OrderedMap.get_write_puts ⟨d, hd, rfl⟩ ?_
  intro e he hkey
  obtain ⟨hd, _⟩ := h.mem_getFriends.mp hd
  obtain ⟨he, _⟩ := h.mem_getFriends.mp he
  have hfriend : e.friendId = d.friendId := List.append_cancel_left hkey
  rw [hfriend, hd] at he
  rw [Option.some.inj he]

/-- The friends in the group move, and no other record changes. -/
theorem deleteGroup_friends (h : AllFiled db) (hu : u ≠ []) (hg : g ≠ []) :
    (view (FriendStore.deleteGroup db u g).1).friends a b = ((view db).dropGroup u g).friends a b := by
  by_cases hmove : a = u ∧ ∃ d ∈ FriendStore.getFriends db u g, d.friendId = b
  · obtain ⟨rfl, d, hd, rfl⟩ := hmove
    obtain ⟨hfriend, _, hgroup⟩ := h.mem_getFriends.mp hd
    have hafter : (view (FriendStore.deleteGroup db a g).1).friends a d.friendId =
        some (toDefault d).stored := by
      simp only [view, deleteGroup_get_friend h hu hg hd, Option.bind_some,
        deserialize_serializeFriend]
    have hstored : (toDefault d).stored = toDefault d := by
      have ht := congrArg FriendData.addedAt (h.friends hfriend).2.2.2
      simp only [FriendData.stored] at ht
      simp only [toDefault, FriendData.stored, ht]
    rw [hafter, hstored]
    simp only [View.dropGroup, hfriend, Option.map_some, hgroup.resolve_left hg, and_self, if_true]
    rfl
  · have hsame : (view (FriendStore.deleteGroup db u g).1).friends a b = (view db).friends a b := by
      simp only [view]
      rw [deleteGroup_get_ne hu hg keyFriend_ne_group]
      intro d hd hkey
      obtain ⟨hok, rfl, _, _⟩ := h.friends (h.mem_getFriends.mp hd).1
      obtain ⟨rfl, rfl⟩ := (keyFriend_inj hok.user hok.friend).mp hkey.symm
      exact hmove ⟨rfl, d, hd, rfl⟩
    rw [hsame]
    cases hd : (view db).friends a b with
    | none => simp [View.dropGroup, hd]
    | some d =>
      have hkeep : ¬ (a = u ∧ d.groupId = g) := by
        rintro ⟨rfl, hgroup⟩
        obtain ⟨_, _, rfl, _⟩ := h.friends hd
        exact hmove ⟨rfl, d, h.mem_getFriends.mpr ⟨hd, hgroup ▸ hg, Or.inr hgroup⟩, rfl⟩
      simp [View.dropGroup, hd, hkeep]

theorem deleteGroup_view (h : AllFiled db) (hu : Plain u) (hg : Plain g) :
    view (FriendStore.deleteGroup db u g).1 = (view db).dropGroup u g := by
  have hfriends : (view (FriendStore.deleteGroup db u g).1).friends =
      ((view db).dropGroup u g).friends := by
    funext a b
    exact deleteGroup_friends h hu.ne_nil hg.ne_nil
  have hrequests : (view (FriendStore.deleteGroup db u g).1).requests = (view db).requests := by
    funext id
    simp only [view, FriendStore.getRequest]
    rw [deleteGroup_get_ne hu.ne_nil hg.ne_nil keyFriendReq_ne_group fun d _ => keyFriend_ne_req]
  have hgroups : (view (FriendStore.deleteGroup db u g).1).groups =
      ((view db).dropGroup u g).groups := by
    funext a b
    simp only [view, View.dropGroup]
    by_cases he : a = u ∧ b = g
    · obtain ⟨rfl, rfl⟩ := he
      rw [deleteGroup_eq hu.ne_nil hg.ne_nil]
      simp only [and_self, if_true, OrderedMap.get_write_puts_ne fun d _ => keyFriend_ne_group,
        OrderedMap.get_delete_self]
      simp
    · rw [if_neg he, deleteGroup_get_ne hu.ne_nil hg.ne_nil
        (fun hk => he ((keyFriendGroup_inj hu hg).mp hk)) fun d _ => keyFriend_ne_group]
  calc view (FriendStore.deleteGroup db u g).1
      = ⟨((view db).dropGroup u g).friends, (view db).requests,
          ((view db).dropGroup u g).groups⟩ := by rw [← hfriends, ← hrequests, ← hgroups]
    _ = (view db).dropGroup u g := rfl

theorem AllFiled.write_puts {X : Type} {key : X → Bytes} {val : X → FriendValue} {xs : List X}
    (h : AllFiled db) (hxs : ∀ x ∈ xs, Filed (key x) (val x)) :
    AllFiled (db.write (xs.map fun x => .put (key x) (val x))) := by
  induction xs generalizing db with
  | nil => exact h
  | cons x xs ih =>
    exact ih (h.put (hxs x List.mem_cons_self)) (fun y hy => hxs y (List.mem_cons_of_mem _ hy))

theorem FriendsOk.deleteGroup (h : FriendsOk db) (hu : Plain u) (hg : Plain g) :
    FriendsOk (FriendStore.deleteGroup db u g).1 := by
  have hview := deleteGroup_view h.filed hu hg
  constructor
  · rw [deleteGroup_eq hu.ne_nil hg.ne_nil]
    apply h.filed.delete.write_puts
    intro d hd
    obtain ⟨hok, rfl, _, _⟩ := h.filed.friends (h.filed.mem_getFriends.mp hd).1
    exact .friend (d := toDefault d) ⟨hok.user, hok.friend, hok.other⟩
  · apply h.indexed.congr
    · intro v id
      exact deleteGroup_get_ne hu.ne_nil hg.ne_nil keyFriendReqTo_ne_group
        fun d _ => keyFriendReqTo_ne_friend.symm
    · rw [hview]
      rfl
  · rw [hview]
    intro a b
    simp only [View.dropGroup, Option.isSome_map]
    exact h.both a b

/-! Blocks. -/

theorem keyFriendReqTo_ne_block {t : Bytes} : keyFriendReqTo u id ≠ keyBlock a t :=
  ne_of_kinds (kFriendReqTo_isPrefix _ _) (kBlock_isPrefix _ _) (by decide)

theorem block_view {t : Bytes} : view (FriendStore.block db u t).1 = view db := by
  unfold FriendStore.block
  split
  · rfl
  · apply view_put_other
    all_goals exact not_prefix_of_kinds (kBlock_isPrefix _ _) (by decide)

theorem FriendsOk.block {t : Bytes} (h : FriendsOk db) : FriendsOk (FriendStore.block db u t).1 := by
  refine ⟨?_, h.indexed.congr (fun v id => ?_) ?_, ?_⟩
  · unfold FriendStore.block
    split
    · exact h.filed
    · exact h.filed.put .block
  · unfold FriendStore.block
    split
    · rfl
    · exact OrderedMap.get_put_ne keyFriendReqTo_ne_block
  · rw [block_view]
  · rw [block_view]
    exact h.both

theorem unblock_view {t : Bytes} : view (FriendStore.unblock db u t).1 = view db := by
  unfold FriendStore.unblock
  split
  · rfl
  · apply view_delete_other
    all_goals exact not_prefix_of_kinds (kBlock_isPrefix _ _) (by decide)

theorem FriendsOk.unblock {t : Bytes} (h : FriendsOk db) :
    FriendsOk (FriendStore.unblock db u t).1 := by
  refine ⟨?_, h.indexed.congr (fun v id => ?_) ?_, ?_⟩
  · unfold FriendStore.unblock
    split
    · exact h.filed
    · exact h.filed.delete
  · unfold FriendStore.unblock
    split
    · rfl
    · exact OrderedMap.get_delete_ne keyFriendReqTo_ne_block
  · rw [unblock_view]
  · rw [unblock_view]
    exact h.both

end SwiftChat.Friend
