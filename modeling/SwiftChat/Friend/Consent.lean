import SwiftChat.Friend.FriendRun

/-! Friendships rest on consent: one of the two users asked, and the other accepted. Nothing is asked
of the ids that an operation names, only that those who act have ids of users. -/
namespace SwiftChat.Friend
open Base
open Chat (colon str_colon)

/-- The user who issues an operation of the friend service. -/
def FriendOp.actor : FriendOp → Bytes
  | .addFriend userId .. => userId
  | .handleRequest userId .. => userId
  | .removeFriend userId _ => userId
  | .block userId _ => userId
  | .unblock userId _ => userId
  | .createFriendGroup userId .. => userId
  | .getFriendGroups userId => userId
  | .deleteFriendGroup userId _ => userId
  | .moveFriend userId .. => userId
  | .setRemark userId .. => userId

/-- The user `x` asked `y`, and later `y` accepted that request. -/
def Accepted (ops : List FriendOp) (x y : Bytes) : Prop :=
  ∃ remark r asked g accepted,
    List.Sublist [.addFriend x y remark r asked,
      .handleRequest y (generateShortId (str "req_") r) true g accepted] ops

def Agreed (ops : List FriendOp) (a b : Bytes) : Prop := Accepted ops a b ∨ Accepted ops b a

/-- An operation asks what the request asks. -/
def Asked (ops : List FriendOp) (q : FriendRequestData) : Prop :=
  ∃ remark r now, .addFriend q.fromUserId q.toUserId remark r now ∈ ops ∧
    q.requestId = generateShortId (str "req_") r

/-- Operations account for the friendships and the requests in the database. -/
inductive Backed (ops : List FriendOp) : Bytes → FriendValue → Prop where
  | friend {d : FriendData} (h : d.Ok) (hagreed : Agreed ops d.userId d.friendId) :
    Backed ops (keyFriend d.userId d.friendId) (serializeFriend d)
  | request {q : FriendRequestData} (hfrom : Plain q.fromUserId) (hne : q.toUserId ≠ q.fromUserId)
    (hasked : Asked ops q) : Backed ops (keyFriendReq q.requestId) (serializeRequest q)
  | other {k : Bytes} {v : FriendValue} (hf : ¬ kFriend <+: k) (hr : ¬ kFriendReq <+: k) :
    Backed ops k v

structure Consented (ops : List FriendOp) (db : FriendDb) : Prop where
  backed : ∀ k v, db.get k = some v → Backed ops k v
  both : ∀ a b, (db.get (keyFriend a b)).isSome → (db.get (keyFriend b a)).isSome

section
variable {ops later : List FriendOp} {op : FriendOp} {db : FriendDb} {k u f g id : Bytes}
  {v : FriendValue} {d : FriendData} {q : FriendRequestData} {now status : Int}

/-! What was agreed stays agreed. -/

theorem Agreed.mono (h : Agreed ops u f) (hops : ops.Sublist later) : Agreed later u f := by
  rcases h with ⟨remark, r, asked, g, accepted, h⟩ | ⟨remark, r, asked, g, accepted, h⟩
  · exact Or.inl ⟨remark, r, asked, g, accepted, h.trans hops⟩
  · exact Or.inr ⟨remark, r, asked, g, accepted, h.trans hops⟩

theorem Agreed.symm (h : Agreed ops u f) : Agreed ops f u := Or.symm h

theorem Asked.mono (h : Asked ops q) (hops : ops.Sublist later) : Asked later q := by
  obtain ⟨remark, r, now, h, hid⟩ := h
  exact ⟨remark, r, now, hops.subset h, hid⟩

/-- A request that was made and is then accepted by its receiver. -/
theorem Asked.accepted (h : Asked ops q) (g : Bytes) (now : Int) :
    Accepted (ops ++ [.handleRequest q.toUserId q.requestId true g now]) q.fromUserId q.toUserId := by
  obtain ⟨remark, r, asked, h, hid⟩ := h
  refine ⟨remark, r, asked, g, now, ?_⟩
  rw [hid]
  exact (List.singleton_sublist.mpr h).append (List.Sublist.refl _)

theorem Backed.mono (h : Backed ops k v) (hops : ops.Sublist later) : Backed later k v := by
  cases h with
  | friend h hagreed => exact .friend h (hagreed.mono hops)
  | request hfrom hne hasked => exact .request hfrom hne (hasked.mono hops)
  | other hf hr => exact .other hf hr

theorem Backed.of_friend (h : Backed ops k v) (hk : kFriend <+: k) :
    ∃ d : FriendData, d.Ok ∧ Agreed ops d.userId d.friendId ∧ k = keyFriend d.userId d.friendId ∧
      v = serializeFriend d := by
  cases h with
  | friend h hagreed => exact ⟨_, h, hagreed, rfl, rfl⟩
  | request _ _ _ => exact absurd hk (not_prefix_of_kinds (kFriendReq_isPrefix _) (by decide))
  | other hf _ => exact absurd hk hf

theorem Backed.of_request (h : Backed ops k v) (hk : kFriendReq <+: k) :
    ∃ q : FriendRequestData, Plain q.fromUserId ∧ q.toUserId ≠ q.fromUserId ∧ Asked ops q ∧
      k = keyFriendReq q.requestId ∧ v = serializeRequest q := by
  cases h with
  | friend _ _ => exact absurd hk (not_prefix_of_kinds (kFriend_isPrefix _ _) (by decide))
  | request hfrom hne hasked => exact ⟨_, hfrom, hne, hasked, rfl, rfl⟩
  | other _ hr => exact absurd hk hr

theorem consented_start : Consented ops OrderedMap.empty where
  backed _ _ h := by cases h
  both _ _ h := by simp at h

theorem Consented.mono (h : Consented ops db) (hops : ops.Sublist later) : Consented later db :=
  ⟨fun k v hv => (h.backed k v hv).mono hops, h.both⟩

theorem Consented.friend (h : Consented ops db) (hv : db.get (keyFriend u f) = some v) :
    ∃ d : FriendData, d.Ok ∧ Agreed ops u f ∧ d.userId = u ∧ d.friendId = f ∧
      v = serializeFriend d := by
  obtain ⟨d, hd, hagreed, hk, rfl⟩ := (h.backed _ _ hv).of_friend (kFriend_isPrefix u f)
  obtain ⟨rfl, rfl⟩ := (keyFriend_inj hd.user hd.friend).mp hk
  exact ⟨d, hd, hagreed, rfl, rfl, rfl⟩

theorem Consented.request (h : Consented ops db) (hq : FriendStore.getRequest db id = some q) :
    Plain q.fromUserId ∧ q.toUserId ≠ q.fromUserId ∧ Asked ops q ∧ q.requestId = id := by
  unfold FriendStore.getRequest at hq
  split at hq
  · cases hq
  · obtain ⟨v, hv, hread⟩ := Option.bind_eq_some_iff.mp hq
    obtain ⟨q', hfrom, hne, hasked, hk, rfl⟩ :=
      (h.backed _ _ hv).of_request (kFriendReq_isPrefix id)
    rw [deserialize_serializeRequest] at hread
    obtain rfl := Option.some.inj hread
    exact ⟨hfrom, hne, hasked, (keyFriendReq_inj.mp hk).symm⟩

/-! The writes. -/

theorem isSome_put {k' : Bytes} :
    ((db.put k v).get k').isSome = true ↔ k' = k ∨ (db.get k').isSome = true := by
  rw [OrderedMap.get_put]
  split
  · rename_i hk
    exact iff_of_true rfl (Or.inl hk)
  · rename_i hk
    exact (or_iff_right hk).symm

theorem isSome_delete {k' : Bytes} :
    ((db.delete k).get k').isSome = true ↔ k' ≠ k ∧ (db.get k').isSome = true := by
  rw [OrderedMap.get_delete]
  split
  · rename_i hk
    exact iff_of_false (by simp) (fun h => h.1 hk)
  · rename_i hk
    exact (and_iff_right hk).symm

theorem Consented.put (h : Consented ops db) (hk : ¬ kFriend <+: k) (hv : Backed ops k v) :
    Consented ops (db.put k v) := by
  have hkeep : ∀ a b, (db.put k v).get (keyFriend a b) = db.get (keyFriend a b) := by
    intro a b
    apply OrderedMap.get_put_ne
    rintro rfl
    exact hk (kFriend_isPrefix a b)
  constructor
  · intro k' v' hget
    rcases OrderedMap.get_put_some hget with ⟨rfl, rfl⟩ | ⟨_, hold⟩
    · exact hv
    · exact h.backed k' v' hold
  · intro a b
    rw [hkeep, hkeep]
    exact h.both a b

theorem Consented.putOther (h : Consented ops db) (hf : ¬ kFriend <+: k) (hr : ¬ kFriendReq <+: k) :
    Consented ops (db.put k v) :=
  h.put hf (.other hf hr)

theorem Consented.delete (h : Consented ops db) (hk : ¬ kFriend <+: k) :
    Consented ops (db.delete k) := by
  have hkeep : ∀ a b, (db.delete k).get (keyFriend a b) = db.get (keyFriend a b) := by
    intro a b
    apply OrderedMap.get_delete_ne
    rintro rfl
    exact hk (kFriend_isPrefix a b)
  constructor
  · intro k' v' hget
    exact h.backed k' v' (OrderedMap.get_delete_some hget).2
  · intro a b
    rw [hkeep, hkeep]
    exact h.both a b

/-- A friendship that is there gets another record. -/
theorem Consented.rewrite (h : Consented ops db)
    (hold : (db.get (keyFriend d.userId d.friendId)).isSome) (hd : d.Ok) :
    Consented ops (db.put (keyFriend d.userId d.friendId) (serializeFriend d)) := by
  obtain ⟨v, hv⟩ := Option.isSome_iff_exists.mp hold
  obtain ⟨_, _, hagreed, _⟩ := h.friend hv
  constructor
  · intro k' v' hget
    rcases OrderedMap.get_put_some hget with ⟨rfl, rfl⟩ | ⟨_, hold⟩
    · exact .friend hd hagreed
    · exact h.backed k' v' hold
  · intro a b
    simp only [isSome_put, keyFriend_inj hd.user hd.friend]
    rintro (⟨rfl, rfl⟩ | hab)
    · exact Or.inr (h.both _ _ hold)
    · exact Or.inr (h.both a b hab)

theorem Consented.addFriend (h : Consented ops db) (hd : d.Ok)
    (hagreed : Agreed ops d.userId d.friendId) :
    Consented ops (FriendStore.addFriend db d).1 := by
  unfold FriendStore.addFriend
  split
  · exact h
  split
  · exact h
  simp only [OrderedMap.write_cons, OrderedMap.write_nil, OrderedMap.apply_put]
  have hrev := hd.reverse
  constructor
  · intro k' v' hget
    rcases OrderedMap.get_put_some hget with ⟨rfl, rfl⟩ | ⟨_, hget⟩
    · exact .friend hrev hagreed.symm
    rcases OrderedMap.get_put_some hget with ⟨rfl, rfl⟩ | ⟨_, hold⟩
    · exact .friend hd hagreed
    · exact h.backed k' v' hold
  · intro a b
    simp only [isSome_put, keyFriend_inj hd.user hd.friend, keyFriend_inj hrev.user hrev.friend]
    rintro (⟨rfl, rfl⟩ | ⟨rfl, rfl⟩ | hab)
    · exact Or.inr (Or.inl ⟨rfl, rfl⟩)
    · exact Or.inl ⟨rfl, rfl⟩
    · exact Or.inr (Or.inr (h.both a b hab))

theorem Consented.removeFriend (h : Consented ops db) (hu : Plain u) (hf : Plain f) :
    Consented ops (FriendStore.removeFriend db u f).1 := by
  unfold FriendStore.removeFriend
  split
  · exact h
  simp only [OrderedMap.write_cons, OrderedMap.write_nil, OrderedMap.apply_delete]
  constructor
  · intro k' v' hget
    exact h.backed k' v' (OrderedMap.get_delete_some (OrderedMap.get_delete_some hget).2).2
  · intro a b
    simp only [isSome_delete, ne_eq, keyFriend_inj hu hf, keyFriend_inj hf hu]
    rintro ⟨hback, hforth, hab⟩
    exact ⟨fun hc => hforth hc.symm, fun hc => hback hc.symm, h.both a b hab⟩

/-- `fn` does not touch the two users of a record. -/
theorem Consented.updateFriend (h : Consented ops db) {fn : FriendData → FriendData}
    (huser : ∀ d, (fn d).userId = d.userId) (hfriend : ∀ d, (fn d).friendId = d.friendId) :
    Consented ops (FriendStore.updateFriend db u f fn).1 := by
  unfold FriendStore.updateFriend
  split
  · exact h
  · split
    · exact h
    · rename_i d hd
      obtain ⟨v, hv, hread⟩ := Option.bind_eq_some_iff.mp hd
      obtain ⟨e, he, _, rfl, rfl, rfl⟩ := h.friend hv
      rw [deserialize_serializeFriend] at hread
      obtain rfl := Option.some.inj hread
      have hold : (db.get (keyFriend (fn e.stored).userId (fn e.stored).friendId)).isSome := by
        rw [huser, hfriend]
        exact Option.isSome_iff_exists.mpr ⟨_, hv⟩
      have hok : (fn e.stored).Ok := by
        constructor
        · rw [huser]
          exact he.user
        · rw [hfriend]
          exact he.friend
        · rw [huser, hfriend]
          exact he.other
      have hafter := h.rewrite hold hok
      rw [huser, hfriend] at hafter
      exact hafter

/-- Friends of `u` who are there get other records, one after the other. -/
theorem Consented.rewriteAll {ds : List FriendData} (h : Consented ops db)
    (hold : ∀ d ∈ ds, (db.get (keyFriend d.userId d.friendId)).isSome) (hd : ∀ d ∈ ds, d.Ok) :
    Consented ops (db.write (ds.map fun d => .put (keyFriend d.userId d.friendId)
      (serializeFriend d))) := by
  induction ds generalizing db with
  | nil => exact h
  | cons d ds ih =>
    have hfirst := h.rewrite (hold d List.mem_cons_self) (hd d List.mem_cons_self)
    refine ih hfirst ?_ fun e he => hd e (List.mem_cons_of_mem _ he)
    intro e he
    exact isSome_put.mpr (Or.inr (hold e (List.mem_cons_of_mem _ he)))

/-- A friend who is listed is stored. -/
theorem Consented.listed (h : Consented ops db) (hd : d ∈ FriendStore.getFriends db u g) :
    d.Ok ∧ d.userId = u ∧ (db.get (keyFriend d.userId d.friendId)).isSome = true := by
  unfold FriendStore.getFriends at hd
  split at hd
  · cases hd
  · obtain ⟨⟨k, v⟩, he, hd⟩ := List.mem_filterMap.mp hd
    obtain ⟨hv, f, hk⟩ := OrderedMap.mem_scan.mp he
    have hkey : keyFriend u f = k := hk
    obtain ⟨e, hok, _, rfl, rfl, rfl⟩ := h.friend (hkey ▸ hv)
    simp only [deserialize_serializeFriend] at hd
    split at hd
    · cases hd
    · split at hd
      · obtain rfl := Option.some.inj hd
        exact ⟨hok.stored, rfl, Option.isSome_iff_exists.mpr ⟨_, hkey ▸ hv⟩⟩
      · cases hd

theorem Consented.deleteGroup (h : Consented ops db) :
    Consented ops (FriendStore.deleteGroup db u g).1 := by
  unfold FriendStore.deleteGroup
  split
  · exact h
  · simp only [OrderedMap.write_cons, OrderedMap.apply_delete]
    have hgroup : ¬ kFriend <+: keyFriendGroup u g :=
      not_prefix_of_kinds (kFriendGroup_isPrefix _ _) (by decide)
    let ds := (FriendStore.getFriends db u g).map toDefault
    have hds : ∀ d ∈ ds, d.Ok ∧ d.userId = u ∧
        (db.get (keyFriend d.userId d.friendId)).isSome = true := by
      intro d hd
      obtain ⟨e, he, rfl⟩ := List.mem_map.mp hd
      obtain ⟨hok, huser, hold⟩ := h.listed he
      exact ⟨⟨hok.user, hok.friend, hok.other⟩, huser, hold⟩
    have hafter := (h.delete hgroup).rewriteAll ?_ fun d hd => (hds d hd).1
    · have hsame : (FriendStore.getFriends db u g).map (fun f => OrderedMap.BatchOp.put
            (keyFriend u f.friendId) (serializeFriend { f with groupId := defaultFriendGroupId })) =
          ds.map fun d => OrderedMap.BatchOp.put (keyFriend d.userId d.friendId) (serializeFriend d) := by
        rw [List.map_map]
        refine List.map_congr_left fun d hd => ?_
        obtain ⟨_, rfl, _⟩ := h.listed hd
        rfl
      rw [hsame]
      exact hafter
    · intro d hd
      refine isSome_delete.mpr ⟨?_, (hds d hd).2.2⟩
      rintro hk
      exact hgroup (hk ▸ kFriend_isPrefix _ _)

/-! The operations. -/

theorem Consented.createRequest (h : Consented ops db) (hfrom : Plain q.fromUserId)
    (hne : q.toUserId ≠ q.fromUserId) (hasked : Asked ops q) :
    Consented ops (FriendStore.createRequest db q).1 := by
  unfold FriendStore.createRequest
  split
  · exact h
  split
  · exact h
  simp only [OrderedMap.write_cons, OrderedMap.write_nil, OrderedMap.apply_put]
  have hreq := h.put (not_prefix_of_kinds (kFriendReq_isPrefix q.requestId) (by decide))
    (.request hfrom hne hasked)
  have hto := hreq.putOther (v := .text [])
    (not_prefix_of_kinds (kFriendReqTo_isPrefix q.toUserId q.requestId) (by decide))
    (not_prefix_of_kinds (kFriendReqTo_isPrefix q.toUserId q.requestId) (by decide))
  exact hto.putOther
    (not_prefix_of_kinds (kFriendReqFrom_isPrefix q.fromUserId q.requestId) (by decide))
    (not_prefix_of_kinds (kFriendReqFrom_isPrefix q.fromUserId q.requestId) (by decide))

theorem Consented.updateRequestStatus (h : Consented ops db) :
    Consented ops (FriendStore.updateRequestStatus db id status).1 := by
  unfold FriendStore.updateRequestStatus
  split
  · exact h
  · rename_i q hq
    obtain ⟨hfrom, hne, hasked, rfl⟩ := h.request hq
    have hstatus : Asked ops { q with status := status } := hasked
    exact h.put (not_prefix_of_kinds (kFriendReq_isPrefix _) (by decide))
      (.request (q := { q with status := status }) hfrom hne hstatus)

theorem Consented.createGroup (h : Consented ops db) (x : FriendGroupData) :
    Consented ops (FriendStore.createGroup db x).1 := by
  unfold FriendStore.createGroup
  split
  · exact h
  split
  · exact h
  exact h.putOther (not_prefix_of_kinds (kFriendGroup_isPrefix _ _) (by decide))
    (not_prefix_of_kinds (kFriendGroup_isPrefix _ _) (by decide))

theorem Consented.ensureDefaultGroup (h : Consented ops db) :
    Consented ops (FriendService.ensureDefaultGroup db u) := by
  unfold FriendService.ensureDefaultGroup
  split
  · exact h
  split
  · exact h
  exact h.createGroup _

theorem Consented.ask {remark : Bytes} {r : RandomString 12} (h : Consented ops db)
    (hu : Plain u) :
    Consented (ops ++ [.addFriend u f remark r now])
      (FriendService.addFriend db u f remark r now).1 := by
  have hmono := h.mono (List.sublist_append_left ops [.addFriend u f remark r now])
  unfold FriendService.addFriend
  split
  · exact hmono
  split
  · exact hmono
  rename_i hne
  split
  · exact hmono
  split
  · exact hmono
  split
  · exact hmono
  refine hmono.createRequest hu (Ne.symm hne) ⟨remark, r, now, ?_, rfl⟩
  exact List.mem_append_right _ List.mem_cons_self

/-- The friendship that is made when a request is accepted has been agreed. -/
theorem Consented.handle {accept : Bool} (h : Consented ops db) (hu : Plain u) :
    Consented (ops ++ [.handleRequest u id accept g now])
      (FriendService.handleRequest db u id accept g now).1 := by
  have hsub := List.sublist_append_left ops [.handleRequest u id accept g now]
  unfold FriendService.handleRequest
  split
  · exact h.mono hsub
  split
  · exact h.mono hsub
  rename_i q hq
  obtain ⟨hfrom, hne, hasked, rfl⟩ := h.request hq
  split
  · exact h.mono hsub
  rename_i hto
  obtain rfl := not_not.mp hto
  split
  · exact h.mono hsub
  split
  · rename_i haccept
    subst haccept
    have hagreed : Agreed (ops ++ [.handleRequest q.toUserId q.requestId true g now])
        q.toUserId q.fromUserId := Or.inr (hasked.accepted g now)
    have hadded := (h.mono hsub).ensureDefaultGroup (u := q.toUserId) |>.addFriend
      (d := FriendService.acceptedFriend q.toUserId q.fromUserId g now) ⟨hu, hfrom, hne⟩ hagreed
    simp only
    split
    · exact hadded
    · exact hadded.updateRequestStatus
  · exact (h.mono hsub).updateRequestStatus

theorem Consented.step (h : Consented ops db) (hop : Plain op.actor) :
    Consented (ops ++ [op]) (friendStep db op) := by
  have hmono : Consented (ops ++ [op]) db := h.mono (List.sublist_append_left _ _)
  cases op with
  | addFriend u f remark r now => exact h.ask hop
  | handleRequest u id accept g now => exact h.handle hop
  | removeFriend u f =>
    simp only [friendStep, FriendService.removeFriend]
    split
    · exact hmono
    split
    · exact hmono
    · rename_i hids hfriends
      rw [not_not, FriendStore.isFriend, if_neg hids] at hfriends
      obtain ⟨v, hv⟩ := Option.isSome_iff_exists.mp hfriends
      obtain ⟨d, hd, _, rfl, rfl, _⟩ := h.friend hv
      exact hmono.removeFriend hd.user hd.friend
  | block u t =>
    simp only [friendStep, FriendService.block, FriendStore.block]
    repeat' split
    any_goals exact hmono
    exact hmono.putOther (not_prefix_of_kinds (kBlock_isPrefix _ _) (by decide))
      (not_prefix_of_kinds (kBlock_isPrefix _ _) (by decide))
  | unblock u t =>
    simp only [friendStep, FriendService.unblock, FriendStore.unblock]
    repeat' split
    any_goals exact hmono
    exact hmono.delete (not_prefix_of_kinds (kBlock_isPrefix _ _) (by decide))
  | createFriendGroup u name r =>
    simp only [friendStep, FriendService.createFriendGroup]
    split
    · exact hmono
    · exact hmono.createGroup _
  | getFriendGroups u =>
    simp only [friendStep, FriendService.getFriendGroups]
    split
    · exact hmono
    · exact hmono.ensureDefaultGroup
  | deleteFriendGroup u g =>
    simp only [friendStep, FriendService.deleteFriendGroup]
    repeat' split
    any_goals exact hmono
    all_goals exact hmono.deleteGroup
  | moveFriend u f g =>
    simp only [friendStep, FriendService.moveFriend, FriendStore.moveFriend]
    repeat' split
    any_goals exact hmono
    exact hmono.updateFriend (fun _ => rfl) fun _ => rfl
  | setRemark u f remark =>
    simp only [friendStep, FriendService.setRemark, FriendStore.updateRemark]
    repeat' split
    any_goals exact hmono
    exact hmono.updateFriend (fun _ => rfl) fun _ => rfl

end

/-- Whatever ids the operations name. -/
theorem friendAfter_consented (ops : List FriendOp) (hops : ∀ op ∈ ops, Plain op.actor) :
    Consented ops (friendAfter ops) := by
  induction ops using List.reverseRecOn with
  | nil => exact consented_start
  | append_singleton ops op ih =>
    have hlast : friendAfter (ops ++ [op]) = friendStep (friendAfter ops) op := by
      simp [friendAfter, run]
    rw [hlast]
    refine (ih fun op' hop' => hops op' (List.mem_append_left _ hop')).step ?_
    exact hops op (List.mem_append_right _ List.mem_cons_self)

/-- Friends are two users, each of them has the other, and they agreed. -/
theorem Consented.agreed {ops : List FriendOp} {db : FriendDb} {a b : Bytes}
    (h : Consented ops db) (hab : FriendStore.isFriend db a b = true) :
    a ≠ b ∧ FriendStore.isFriend db b a = true ∧ Agreed ops a b := by
  unfold FriendStore.isFriend at hab
  split at hab
  · cases hab
  · rename_i hids
    obtain ⟨v, hv⟩ := Option.isSome_iff_exists.mp hab
    obtain ⟨d, hd, hagreed, rfl, rfl, _⟩ := h.friend hv
    refine ⟨hd.other, ?_, hagreed⟩
    rw [FriendStore.isFriend, if_neg fun hc => hids (Or.symm hc)]
    exact h.both _ _ hab

end SwiftChat.Friend
