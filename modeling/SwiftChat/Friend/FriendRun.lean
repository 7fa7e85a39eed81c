import SwiftChat.Base.Run
import SwiftChat.Friend.FriendCalls

/-! The operations of the friend service one after the other, and what each of them does to the
view. -/
namespace SwiftChat.Friend
open Base
open Chat (colon str_colon)
variable {db : FriendDb} {a b u f g id remark name : Bytes} {d : FriendData} {r : FriendRequestData}
  {now : Int} {V V' : View} {op : FriendOp}

/-- The operations that can write. -/
inductive FriendOp where
  | addFriend (userId friendId remark : Bytes) (r : RandomString 12) (now : Int)
  | handleRequest (userId requestId : Bytes) (accept : Bool) (groupId : Bytes) (now : Int)
  | removeFriend (userId friendId : Bytes)
  | block (userId targetId : Bytes)
  | unblock (userId targetId : Bytes)
  | createFriendGroup (userId groupName : Bytes) (r : RandomString 8)
  | getFriendGroups (userId : Bytes)
  | deleteFriendGroup (userId groupId : Bytes)
  | moveFriend (userId friendId toGroupId : Bytes)
  | setRemark (userId friendId remark : Bytes)

def friendStep (db : FriendDb) : FriendOp → FriendDb
  | .addFriend userId friendId remark r now =>
    (FriendService.addFriend db userId friendId remark r now).1
  | .handleRequest userId requestId accept groupId now =>
    (FriendService.handleRequest db userId requestId accept groupId now).1
  | .removeFriend userId friendId => (FriendService.removeFriend db userId friendId).1
  | .block userId targetId => (FriendService.block db userId targetId).1
  | .unblock userId targetId => (FriendService.unblock db userId targetId).1
  | .createFriendGroup userId groupName r =>
    (FriendService.createFriendGroup db userId groupName r).1
  | .getFriendGroups userId => (FriendService.getFriendGroups db userId).1
  | .deleteFriendGroup userId groupId => (FriendService.deleteFriendGroup db userId groupId).1
  | .moveFriend userId friendId toGroupId =>
    (FriendService.moveFriend db userId friendId toGroupId).1
  | .setRemark userId friendId remark => (FriendService.setRemark db userId friendId remark).1

/-- The user ids an operation files are free of the separator. -/
def FriendOp.PlainIds : FriendOp → Prop
  | .addFriend userId friendId .. => colon ∉ userId ∧ colon ∉ friendId
  | .createFriendGroup userId .. => colon ∉ userId
  | .getFriendGroups userId => colon ∉ userId
  | _ => True

instance (op : FriendOp) : Decidable op.PlainIds := by
  cases op <;> unfold FriendOp.PlainIds <;> infer_instance

/-- The state after a list of operations on an empty database. -/
def friendAfter (ops : List FriendOp) : FriendDb := run friendStep OrderedMap.empty ops

/-- The request a successful `AddFriend` files. -/
def newRequest (u f remark : Bytes) (r : RandomString 12) (now : Int) : FriendRequestData where
  requestId := generateShortId (str "req_") r
  fromUserId := u
  toUserId := f
  remark := remark
  status := 0
  createdAt := now

/-- What an operation does to the view, with what its guards let through. -/
inductive Does (V : View) : FriendOp → View → Prop where
  | stay {op : FriendOp} : Does V op V
  | ask {u f remark : Bytes} {r : RandomString 12} {now : Int} (hne : u ≠ f)
      (hstrangers : V.friends u f = none)
      (hfirst : ∀ id q, V.requests id = some q → q.fromUserId = u → q.toUserId = f → q.status ≠ 0)
      (hnew : V.requests (generateShortId (str "req_") r) = none) :
      Does V (.addFriend u f remark r now)
        (V.setRequest (generateShortId (str "req_") r) (newRequest u f remark r now).stored)
  | accept {u id g : Bytes} {now : Int} {q : FriendRequestData} (hq : V.requests id = some q)
      (hto : q.toUserId = u) (hpending : q.status = 0) (hstrangers : V.friends u q.fromUserId = none) :
      Does V (.handleRequest u id true g now)
        (((V.setGroup u defaultFriendGroupId True).befriend
          (FriendService.acceptedFriend u q.fromUserId g now)).setRequest id { q with status := 1 })
  | refuse {u id g : Bytes} {now : Int} {q : FriendRequestData} (hq : V.requests id = some q)
      (hto : q.toUserId = u) (hpending : q.status = 0) :
      Does V (.handleRequest u id true g now) (V.setGroup u defaultFriendGroupId True)
  | reject {u id g : Bytes} {now : Int} {q : FriendRequestData} (hq : V.requests id = some q)
      (hto : q.toUserId = u) (hpending : q.status = 0) :
      Does V (.handleRequest u id false g now) (V.setRequest id { q with status := 2 })
  | part {u f : Bytes} (h : (V.friends u f).isSome) : Does V (.removeFriend u f) (V.part u f)
  | createGroup {u name : Bytes} {r : RandomString 8} :
      Does V (.createFriendGroup u name r) (V.setGroup u (generateShortId (str "g_") r) True)
  | ensure {u : Bytes} : Does V (.getFriendGroups u) (V.setGroup u defaultFriendGroupId True)
  | dropGroup {u g : Bytes} (hg : V.groups u g) (hne : g ≠ defaultFriendGroupId) :
      Does V (.deleteFriendGroup u g) (V.dropGroup u g)
  | move {u f g : Bytes} {d : FriendData} (hd : V.friends u f = some d) :
      Does V (.moveFriend u f g) (V.setFriend u f (some { d with groupId := g }))
  | remark {u f remark : Bytes} {d : FriendData} (hd : V.friends u f = some d) :
      Does V (.setRemark u f remark) (V.setFriend u f (some { d with remark := remark }))

/-- Where a record appears that was not there, a request was accepted. -/
theorem Does.made (h : Does V op V') (hnew : V.friends a b = none) (hmade : V'.friends a b ≠ none) :
    ∃ id g now q, op = .handleRequest q.toUserId id true g now ∧ V.requests id = some q ∧
      q.status = 0 ∧ (a = q.toUserId ∧ b = q.fromUserId ∨ a = q.fromUserId ∧ b = q.toUserId) ∧
      V'.requests id = some { q with status := 1 } := by
  cases h with
  | @accept u id g now q hq hto hpending _ =>
    subst hto
    refine ⟨id, g, now, q, rfl, hq, hpending, ?_, Function.update_self ..⟩
    by_contra hother
    push Not at hother
    apply hmade
    have h₁ : ¬ (a = q.fromUserId ∧ b = q.toUserId) := fun hc => hother.2 hc.1 hc.2
    have h₂ : ¬ (a = q.toUserId ∧ b = q.fromUserId) := fun hc => hother.1 hc.1 hc.2
    simp only [View.setRequest_friends, View.befriend, View.setFriend,
      FriendService.acceptedFriend, h₁, h₂, if_false, View.setGroup_friends, hnew]
  | @part u f _ =>
    refine absurd ?_ hmade
    simp only [View.part, View.setFriend]
    split
    · rfl
    · split
      · rfl
      · exact hnew
  | @dropGroup u g _ _ =>
    refine absurd ?_ hmade
    simp only [View.dropGroup, hnew, Option.map_none]
  | move hd => exact absurd (View.setFriend_absent (by simp [hd]) hnew) hmade
  | remark hd => exact absurd (View.setFriend_absent (by simp [hd]) hnew) hmade
  | _ => exact absurd hnew hmade

theorem plain_generate {pfx : Bytes} {n : Nat} (hne : pfx ≠ []) (hp : colon ∉ pfx)
    (r : RandomString n) : Plain (generateShortId pfx r) where
  ne_nil := by simp [generateShortId, hne]
  free := by
    intro h
    rcases List.mem_append.mp h with h | h
    · exact hp h
    · exact absurd (r.alphaNum _ h) (by decide)

theorem plain_default : Plain defaultFriendGroupId := ⟨by decide, by decide⟩

/-! The operations one by one. -/

/-- `AddFriend` passes its guards, and the id it draws is new. -/
structure Asks (db : FriendDb) (u f : Bytes) (r : RandomString 12) : Prop where
  user : u ≠ []
  friend : f ≠ []
  other : u ≠ f
  strangers : FriendStore.isFriend db u f = false
  unblocked : FriendStore.isBlocked db f u = false
  first : (FriendStore.getReceivedRequests db f).any
    (fun q => q.fromUserId = u ∧ q.status = 0) = false
  new : FriendStore.getRequest db (generateShortId (str "req_") r) = none

instance (db : FriendDb) (u f : Bytes) (r : RandomString 12) : Decidable (Asks db u f r) :=
  decidable_of_iff (u ≠ [] ∧ f ≠ [] ∧ u ≠ f ∧ FriendStore.isFriend db u f = false ∧
      FriendStore.isBlocked db f u = false ∧
      (FriendStore.getReceivedRequests db f).any (fun q => q.fromUserId = u ∧ q.status = 0) = false ∧
      FriendStore.getRequest db (generateShortId (str "req_") r) = none)
    ⟨fun ⟨h₁, h₂, h₃, h₄, h₅, h₆, h₇⟩ => ⟨h₁, h₂, h₃, h₄, h₅, h₆, h₇⟩,
      fun ⟨h₁, h₂, h₃, h₄, h₅, h₆, h₇⟩ => ⟨h₁, h₂, h₃, h₄, h₅, h₆, h₇⟩⟩

theorem addFriend_cases (h : AllFiled db) (u f remark : Bytes) (r : RandomString 12) (now : Int) :
    (FriendService.addFriend db u f remark r now).1 = db ∧ ¬ Asks db u f r ∨
      Asks db u f r ∧ FriendService.addFriend db u f remark r now =
        FriendStore.createRequest db (newRequest u f remark r now) := by
  by_cases ha : Asks db u f r
  · refine Or.inr ⟨ha, ?_⟩
    simp only [FriendService.addFriend, ha.user, ha.friend, ha.other, ha.strangers, ha.unblocked,
      ha.first, or_self, if_false, Bool.false_eq_true]
    rfl
  · refine Or.inl ⟨?_, ha⟩
    unfold FriendService.addFriend
    repeat' split
    · rfl
    · rfl
    · rfl
    · rfl
    · rfl
    · -- all checks are passed, so the id is what is in the way
      rename_i hids hne hf hb hr
      push Not at hids
      have hknown : ((view db).requests (generateShortId (str "req_") r)).isSome = true := by
        rw [Option.isSome_iff_ne_none]
        intro hnew
        exact ha ⟨hids.1, hids.2, hne, by simpa using hf, by simpa using hb,
          Bool.eq_false_iff.mpr hr, hnew⟩
      exact congrArg Prod.fst (createRequest_known (r := newRequest u f remark r now) h hknown)

theorem Asks.request_ok {r : RandomString 12} (h : Asks db u f r) (hu : colon ∉ u) (hf : colon ∉ f)
    (remark : Bytes) (now : Int) : (newRequest u f remark r now).Ok where
  id := plain_generate (by decide) (by decide) r
  sender := ⟨h.user, hu⟩
  receiver := ⟨h.friend, hf⟩
  other := h.other.symm
  status := by simp [newRequest]

theorem Asks.no_pending {r : RandomString 12} {q : FriendRequestData} (h : Asks db u f r)
    (hok : FriendsOk db) (hq : (view db).requests id = some q) (hfrom : q.fromUserId = u)
    (hto : q.toUserId = f) : q.status ≠ 0 := by
  intro hpending
  obtain ⟨_, rfl, _⟩ := hok.filed.requests hq
  have hmem := hok.mem_getReceivedRequests.mpr ⟨hq, hto⟩
  have hfirst := h.first
  rw [List.any_eq_false] at hfirst
  exact hfirst q hmem (by simp [hfrom, hpending])

theorem addFriend_does {remark : Bytes} {r : RandomString 12} (h : FriendsOk db) (hu : colon ∉ u)
    (hf : colon ∉ f) :
    FriendsOk (FriendService.addFriend db u f remark r now).1 ∧
      Does (view db) (.addFriend u f remark r now)
        (view (FriendService.addFriend db u f remark r now).1) := by
  rcases addFriend_cases h.filed u f remark r now with ⟨hs, _⟩ | ⟨ha, hs⟩
  · rw [hs]
    exact ⟨h, .stay⟩
  · have hreq := ha.request_ok hu hf remark now
    rw [hs, createRequest_view h.filed hreq ha.new]
    refine ⟨h.createRequest hreq, .ask ha.other ?_ ?_ ha.new⟩
    · have hstrangers := ha.strangers
      rw [h.filed.isFriend_eq] at hstrangers
      simpa using hstrangers
    · intro id q hq
      exact ha.no_pending h hq

theorem ensureDefaultGroup_view (h : FriendsOk db) (hu : Plain u) :
    FriendsOk (FriendService.ensureDefaultGroup db u) ∧
      view (FriendService.ensureDefaultGroup db u) =
        (view db).setGroup u defaultFriendGroupId True := by
  unfold FriendService.ensureDefaultGroup
  rw [if_neg hu.ne_nil]
  split
  · rename_i hknown
    exact ⟨h, (View.setGroup_of_true (h.filed.any_group.mp hknown)).symm⟩
  · exact ⟨h.createGroup ⟨hu, plain_default⟩, createGroup_view db ⟨hu, plain_default⟩⟩

theorem acceptedFriend_ok {q : FriendRequestData} (hq : q.Ok) (g : Bytes) (now : Int) :
    (FriendService.acceptedFriend q.toUserId q.fromUserId g now).Ok :=
  ⟨hq.receiver, hq.sender, hq.other⟩

/-- Accepting a pending request of strangers makes them friends. -/
theorem handleRequest_accept {q : FriendRequestData} (h : FriendsOk db)
    (hq : (view db).requests id = some q) (hpending : q.status = 0)
    (hstrangers : (view db).friends q.toUserId q.fromUserId = none) (g : Bytes) (now : Int) :
    (FriendService.handleRequest db q.toUserId id true g now).2 = true ∧
    FriendsOk (FriendService.handleRequest db q.toUserId id true g now).1 ∧
      view (FriendService.handleRequest db q.toUserId id true g now).1 =
        ((((view db).setGroup q.toUserId defaultFriendGroupId True).befriend
          (FriendService.acceptedFriend q.toUserId q.fromUserId g now)).setRequest id
            { q with status := 1 }) := by
  obtain ⟨hok, rfl, _⟩ := h.filed.requests hq
  obtain ⟨hensure, hview⟩ := ensureDefaultGroup_view h hok.receiver
  have hfriend := acceptedFriend_ok hok g now
  have hnew : FriendStore.isFriend (FriendService.ensureDefaultGroup db q.toUserId)
      q.toUserId q.fromUserId = false := by
    rw [hensure.filed.isFriend_eq, hview, View.setGroup_friends, hstrangers]
    rfl
  obtain ⟨hadded, hmade⟩ := addFriend_view hfriend hnew
  have hafter := hensure.addFriend hfriend
  have hreq : (view (FriendStore.addFriend (FriendService.ensureDefaultGroup db q.toUserId)
      (FriendService.acceptedFriend q.toUserId q.fromUserId g now)).1).requests q.requestId =
      some q := by
    rw [hmade, hview]
    exact hq
  obtain ⟨hdone, hstatus⟩ := updateRequestStatus_view hafter.filed hreq 1 (by decide)
  have hread : FriendStore.getRequest db q.requestId = some q := hq
  simp only [FriendService.handleRequest, hok.receiver.ne_nil, hok.id.ne_nil, or_self, if_false, hread,
    ne_eq, not_true_eq_false, hpending, if_true, hadded]
  refine ⟨hdone, hafter.updateRequestStatus (by decide), ?_⟩
  rw [hstatus, hmade, hview]

/-- Accepting when the two are friends leaves the request pending. -/
theorem handleRequest_refuse {q : FriendRequestData} (h : FriendsOk db)
    (hq : (view db).requests id = some q) (hpending : q.status = 0)
    (hfriends : ((view db).friends q.toUserId q.fromUserId).isSome = true) (g : Bytes) (now : Int) :
    (FriendService.handleRequest db q.toUserId id true g now).2 = false ∧
    FriendsOk (FriendService.handleRequest db q.toUserId id true g now).1 ∧
      view (FriendService.handleRequest db q.toUserId id true g now).1 =
        (view db).setGroup q.toUserId defaultFriendGroupId True := by
  obtain ⟨hok, rfl, _⟩ := h.filed.requests hq
  obtain ⟨hensure, hview⟩ := ensureDefaultGroup_view h hok.receiver
  have hknown : FriendStore.isFriend (FriendService.ensureDefaultGroup db q.toUserId)
      q.toUserId q.fromUserId = true := by
    rw [hensure.filed.isFriend_eq, hview, View.setGroup_friends, hfriends]
  have hsame : FriendStore.addFriend (FriendService.ensureDefaultGroup db q.toUserId)
      (FriendService.acceptedFriend q.toUserId q.fromUserId g now) =
      (FriendService.ensureDefaultGroup db q.toUserId, false) := by
    simp [FriendStore.addFriend, FriendService.acceptedFriend, hknown]
  have hread : FriendStore.getRequest db q.requestId = some q := hq
  simp only [FriendService.handleRequest, hok.receiver.ne_nil, hok.id.ne_nil, or_self, if_false, hread,
    ne_eq, not_true_eq_false, hpending, if_true, hsame, Bool.false_eq_true, not_false_eq_true]
  exact ⟨trivial, hensure, hview⟩

theorem handleRequest_reject {q : FriendRequestData} (h : FriendsOk db)
    (hq : (view db).requests id = some q) (hpending : q.status = 0) (g : Bytes) (now : Int) :
    (FriendService.handleRequest db q.toUserId id false g now).2 = true ∧
    FriendsOk (FriendService.handleRequest db q.toUserId id false g now).1 ∧
      view (FriendService.handleRequest db q.toUserId id false g now).1 =
        (view db).setRequest id { q with status := 2 } := by
  obtain ⟨hok, rfl, _⟩ := h.filed.requests hq
  have hread : FriendStore.getRequest db q.requestId = some q := hq
  obtain ⟨hdone, hstatus⟩ := updateRequestStatus_view h.filed hq 2 (by decide)
  simp only [FriendService.handleRequest, hok.receiver.ne_nil, hok.id.ne_nil, or_self, if_false, hread,
    ne_eq, not_true_eq_false, hpending, Bool.false_eq_true]
  exact ⟨hdone, h.updateRequestStatus (by decide), hstatus⟩

/-- A request that is not there, not the user's or not pending is not handled. -/
theorem handleRequest_other {accept : Bool}
    (hother : ∀ q, (view db).requests id = some q → q.toUserId = u → q.status ≠ 0) :
    FriendService.handleRequest db u id accept g now = (db, false) := by
  unfold FriendService.handleRequest
  split
  · rfl
  · cases hq : FriendStore.getRequest db id with
    | none => rfl
    | some q =>
      simp only
      split
      · rfl
      · rename_i hto
        rw [if_pos (hother q hq (not_not.mp hto))]

theorem handleRequest_does {accept : Bool} (h : FriendsOk db) :
    FriendsOk (FriendService.handleRequest db u id accept g now).1 ∧
      Does (view db) (.handleRequest u id accept g now)
        (view (FriendService.handleRequest db u id accept g now).1) := by
  by_cases hmine : ∃ q, (view db).requests id = some q ∧ q.toUserId = u ∧ q.status = 0
  · obtain ⟨q, hq, rfl, hpending⟩ := hmine
    cases accept with
    | false =>
      obtain ⟨_, hok, hview⟩ := handleRequest_reject h hq hpending g now
      rw [hview]
      exact ⟨hok, .reject hq rfl hpending⟩
    | true =>
      cases hf : (view db).friends q.toUserId q.fromUserId with
      | none =>
        obtain ⟨_, hok, hview⟩ := handleRequest_accept h hq hpending hf g now
        rw [hview]
        exact ⟨hok, .accept hq rfl hpending hf⟩
      | some d =>
        have hfriends : ((view db).friends q.toUserId q.fromUserId).isSome = true := by
          rw [hf]
          rfl
        obtain ⟨_, hok, hview⟩ := handleRequest_refuse h hq hpending hfriends g now
        rw [hview]
        exact ⟨hok, .refuse hq rfl hpending⟩
  · rw [handleRequest_other]
    · exact ⟨h, .stay⟩
    · intro q hq hto hpending
      exact hmine ⟨q, hq, hto, hpending⟩

theorem isFriend_iff (h : AllFiled db) :
    FriendStore.isFriend db a b = true ↔ ∃ d, (view db).friends a b = some d := by
  rw [h.isFriend_eq, Option.isSome_iff_exists]

theorem removeFriend_does (h : FriendsOk db) :
    FriendsOk (FriendService.removeFriend db u f).1 ∧
      Does (view db) (.removeFriend u f) (view (FriendService.removeFriend db u f).1) := by
  unfold FriendService.removeFriend
  split
  · exact ⟨h, .stay⟩
  · split
    · exact ⟨h, .stay⟩
    · rename_i hf
      obtain ⟨d, hd⟩ := (isFriend_iff h.filed).mp (not_not.mp hf)
      obtain ⟨hok, rfl, rfl, _⟩ := h.filed.friends hd
      refine ⟨h.removeFriend hok.user hok.friend hok.other, ?_⟩
      rw [removeFriend_view db hok.user hok.friend]
      exact .part (by rw [hd]; rfl)

theorem createFriendGroup_does {r : RandomString 8} (h : FriendsOk db) (hu : colon ∉ u) :
    FriendsOk (FriendService.createFriendGroup db u name r).1 ∧
      Does (view db) (.createFriendGroup u name r)
        (view (FriendService.createFriendGroup db u name r).1) := by
  unfold FriendService.createFriendGroup
  split
  · exact ⟨h, .stay⟩
  · rename_i hne
    push Not at hne
    have hok : (FriendGroupData.mk (generateShortId (str "g_") r) u name 0).Ok :=
      ⟨⟨hne.1, hu⟩, plain_generate (by decide) (by decide) r⟩
    have hview := createGroup_view db hok
    refine ⟨h.createGroup hok, ?_⟩
    change Does _ _ (view (FriendStore.createGroup db _).1)
    rw [hview]
    exact .createGroup

theorem getFriendGroups_does (h : FriendsOk db) (hu : colon ∉ u) :
    FriendsOk (FriendService.getFriendGroups db u).1 ∧
      Does (view db) (.getFriendGroups u) (view (FriendService.getFriendGroups db u).1) := by
  unfold FriendService.getFriendGroups
  split
  · exact ⟨h, .stay⟩
  · rename_i hne
    obtain ⟨hok, hview⟩ := ensureDefaultGroup_view h ⟨hne, hu⟩
    exact ⟨hok, hview ▸ .ensure⟩

theorem AllFiled.groups (h : AllFiled db) (hg : (view db).groups u g) : Plain u ∧ Plain g := by
  obtain ⟨v, hv⟩ := Option.isSome_iff_exists.mp hg
  obtain ⟨x, hx, hk, _⟩ := (h _ _ hv).of_group (kFriendGroup_isPrefix u g)
  obtain ⟨rfl, rfl⟩ := (keyFriendGroup_inj hx.user hx.id).mp hk
  exact ⟨hx.user, hx.id⟩

/-- A group that the user has is deleted, but for the default one; in every other case nothing is
written. -/
theorem deleteFriendGroup_cases (h : AllFiled db) (u g : Bytes) :
    (view db).groups u g ∧ g ≠ defaultFriendGroupId ∧ FriendService.deleteFriendGroup db u g =
        ((FriendStore.deleteGroup db u g).1, ErrorCode.ok) ∨
      (FriendService.deleteFriendGroup db u g).1 = db ∧
        (FriendService.deleteFriendGroup db u g).2 ≠ ErrorCode.ok := by
  unfold FriendService.deleteFriendGroup
  split
  · exact Or.inr ⟨rfl, by simp⟩
  · split
    · exact Or.inr ⟨rfl, by simp⟩
    · rename_i hdefault
      push Not at hdefault
      split
      · exact Or.inr ⟨rfl, by simp⟩
      · rename_i hknown
        have hg := h.any_group.mp (not_not.mp hknown)
        obtain ⟨hu, hid⟩ := h.groups hg
        refine Or.inl ⟨hg, hdefault.2, ?_⟩
        simp only [deleteGroup_eq hu.ne_nil hid.ne_nil, if_true]

theorem deleteFriendGroup_does (h : FriendsOk db) :
    FriendsOk (FriendService.deleteFriendGroup db u g).1 ∧
      Does (view db) (.deleteFriendGroup u g) (view (FriendService.deleteFriendGroup db u g).1) := by
  rcases deleteFriendGroup_cases h.filed u g with ⟨hg, hne, heq⟩ | ⟨heq, _⟩
  · obtain ⟨hu, hid⟩ := h.filed.groups hg
    rw [heq]
    refine ⟨h.deleteGroup hu hid, ?_⟩
    rw [deleteGroup_view h.filed hu hid]
    exact .dropGroup hg hne
  · rw [heq]
    exact ⟨h, .stay⟩

/-- A friend's record that is rewritten is what it was but for the field that is meant. -/
theorem updateFriend_does (fn : FriendData → FriendData) (h : FriendsOk db)
    (hd : (view db).friends u f = some d) (hfn : KeepsKey fn)
    (htime : (fn d).addedAt = d.addedAt) :
    FriendsOk (FriendStore.updateFriend db u f fn).1 ∧
      view (FriendStore.updateFriend db u f fn).1 = (view db).setFriend u f (some (fn d)) := by
  refine ⟨h.updateFriend hfn, ?_⟩
  have ht := congrArg FriendData.addedAt (h.filed.friends hd).2.2.2
  simp only [FriendData.stored] at ht
  have hstored : (fn d).stored = fn d := by
    simp only [FriendData.stored, htime, ht]
    rw [← htime]
  rw [updateFriend_view fn h.filed hd, hstored]

theorem moveFriend_view (h : FriendsOk db) (hd : (view db).friends u f = some d) :
    view (FriendService.moveFriend db u f g).1 =
      (view db).setFriend u f (some { d with groupId := g }) := by
  obtain ⟨hok, rfl, rfl, _⟩ := h.filed.friends hd
  have hf := (isFriend_iff h.filed).mpr ⟨d, hd⟩
  have hview := (updateFriend_does (fun d => { d with groupId := g }) h hd
    (fun _ => ⟨rfl, rfl⟩) rfl).2
  simp only [FriendService.moveFriend, hok.user.ne_nil, hok.friend.ne_nil, or_self, if_false, hf,
    not_true_eq_false]
  exact hview

theorem moveFriend_stranger (h : FriendsOk db) (hf : ¬ ∃ d, (view db).friends u f = some d) :
    FriendService.moveFriend db u f g = (db, false) := by
  rw [← isFriend_iff h.filed] at hf
  simp [FriendService.moveFriend, hf]

theorem moveFriend_does (h : FriendsOk db) :
    FriendsOk (FriendService.moveFriend db u f g).1 ∧
      Does (view db) (.moveFriend u f g) (view (FriendService.moveFriend db u f g).1) := by
  by_cases hf : ∃ d, (view db).friends u f = some d
  · obtain ⟨d, hd⟩ := hf
    rw [moveFriend_view h hd]
    refine ⟨?_, .move hd⟩
    unfold FriendService.moveFriend
    repeat' split
    · exact h
    · exact h
    · exact h.updateFriend (fun _ => ⟨rfl, rfl⟩)
  · rw [moveFriend_stranger h hf]
    exact ⟨h, .stay⟩

theorem setRemark_does (h : FriendsOk db) :
    FriendsOk (FriendService.setRemark db u f remark).1 ∧
      Does (view db) (.setRemark u f remark) (view (FriendService.setRemark db u f remark).1) := by
  unfold FriendService.setRemark
  split
  · exact ⟨h, .stay⟩
  · split
    · exact ⟨h, .stay⟩
    · rename_i hf
      obtain ⟨d, hd⟩ := (isFriend_iff h.filed).mp (not_not.mp hf)
      obtain ⟨hok, hview⟩ := updateFriend_does (fun d => { d with remark := remark }) h hd
        (fun _ => ⟨rfl, rfl⟩) rfl
      exact ⟨hok, hview ▸ .remark hd⟩

theorem block_does (h : FriendsOk db) :
    FriendsOk (FriendService.block db u f).1 ∧
      Does (view db) (.block u f) (view (FriendService.block db u f).1) := by
  unfold FriendService.block
  repeat' split
  · exact ⟨h, .stay⟩
  · exact ⟨h, .stay⟩
  · rw [block_view]
    exact ⟨h.block, .stay⟩

theorem unblock_does (h : FriendsOk db) :
    FriendsOk (FriendService.unblock db u f).1 ∧
      Does (view db) (.unblock u f) (view (FriendService.unblock db u f).1) := by
  unfold FriendService.unblock
  split
  · exact ⟨h, .stay⟩
  · rw [unblock_view]
    exact ⟨h.unblock, .stay⟩

/-- Every operation keeps the database in order and does to the view what its kind may do. -/
theorem friendStep_does (h : FriendsOk db) (op : FriendOp) (hop : op.PlainIds) :
    FriendsOk (friendStep db op) ∧ Does (view db) op (view (friendStep db op)) := by
  cases op with
  | addFriend => exact addFriend_does h hop.1 hop.2
  | handleRequest => exact handleRequest_does h
  | removeFriend => exact removeFriend_does h
  | block => exact block_does h
  | unblock => exact unblock_does h
  | createFriendGroup => exact createFriendGroup_does h hop
  | getFriendGroups => exact getFriendGroups_does h hop
  | deleteFriendGroup => exact deleteFriendGroup_does h
  | moveFriend => exact moveFriend_does h
  | setRemark => exact setRemark_does h

theorem friendAfter_ok (ops : List FriendOp) (hops : ∀ op ∈ ops, op.PlainIds) :
    FriendsOk (friendAfter ops) :=
  run_invariant (fun _ op h hop => (friendStep_does h op hop).1) friendsOk_empty hops

end SwiftChat.Friend
