import SwiftChat.Friend.FriendRun

/-! Friendship is mutual and never with oneself, and only its receiver's acceptance of a request
makes one. -/
namespace SwiftChat.Friend
open Base
variable {db : FriendDb} {a b : Bytes} {op : FriendOp}

/-- What the records of friendships are at any time. -/
structure FriendshipOk (db : FriendDb) : Prop where
  symm : ∀ a b, FriendStore.isFriend db a b = FriendStore.isFriend db b a
  irrefl : ∀ a, FriendStore.isFriend db a a = false
  keyed : ∀ a b v, db.get (keyFriend a b) = some v →
    ∃ d, deserializeFriend v = some d ∧ d.userId = a ∧ d.friendId = b

/-- A friendship that the operation makes is accepted by the receiver of a pending request between
the two. -/
def MadeByReceiver (db : FriendDb) (op : FriendOp) : Prop :=
  ∀ a b, FriendStore.isFriend db a b = false → FriendStore.isFriend (friendStep db op) a b = true →
    ∃ id g now r, op = .handleRequest r.toUserId id true g now ∧
      FriendStore.getRequest db id = some r ∧ r.status = 0 ∧
      (a = r.toUserId ∧ b = r.fromUserId ∨ a = r.fromUserId ∧ b = r.toUserId)

theorem FriendsOk.friendshipOk (h : FriendsOk db) : FriendshipOk db where
  symm a b := by
    rw [h.filed.isFriend_eq, h.filed.isFriend_eq]
    exact Bool.eq_iff_iff.mpr ⟨h.both a b, h.both b a⟩
  irrefl a := by
    rw [h.filed.isFriend_eq]
    cases hd : (view db).friends a a with
    | none => rfl
    | some d =>
      obtain ⟨hok, huser, hfriend, _⟩ := h.filed.friends hd
      exact absurd (huser.trans hfriend.symm) hok.other
  keyed a b v hv := by
    obtain ⟨d, hd, hread⟩ := h.filed.friend_value hv
    obtain ⟨_, huser, hfriend, _⟩ := h.filed.friends hd
    exact ⟨d, hread, huser, hfriend⟩

theorem FriendsOk.madeByReceiver (h : FriendsOk db) (hop : op.PlainIds) : MadeByReceiver db op := by
  obtain ⟨hafter, hdoes⟩ := friendStep_does h op hop
  intro a b hnew hmade
  rw [h.filed.isFriend_eq] at hnew
  rw [hafter.filed.isFriend_eq] at hmade
  have hmade' : (view (friendStep db op)).friends a b ≠ none := by
    intro hnone
    rw [hnone] at hmade
    cases hmade
  obtain ⟨id, g, now, q, hop, hq, hpending, hpair, _⟩ := hdoes.made (by simpa using hnew) hmade'
  exact ⟨id, g, now, q, hop, hq, hpending, hpair⟩

/-- Along every run with plain user ids, friendships are mutual, irreflexive and filed under their
users, and each is made by the receiver of a request. -/
theorem friendship_sound (ops : List FriendOp) (hops : ∀ op ∈ ops, op.PlainIds) :
    Always friendStep FriendshipOk OrderedMap.empty ops ∧
      AllSteps friendStep MadeByReceiver OrderedMap.empty ops := by
  have hplain : AllSteps friendStep (fun _ op => op.PlainIds) OrderedMap.empty ops :=
    allSteps_of_mem hops
  constructor
  · have hok : Always friendStep FriendsOk OrderedMap.empty ops :=
      always_of_allSteps (fun db op h hop => (friendStep_does h op hop).1) friendsOk_empty hplain
    exact fun pre hpre => (hok pre hpre).friendshipOk
  · exact hplain.imp (fun db op h hop => (friendStep_does h op hop).1)
      (fun db op h hop => h.madeByReceiver hop) friendsOk_empty

def requestRandom : RandomString 12 := RandomString.replicate 12 68 rfl

def sampleRequestId : Bytes := generateShortId (str "req_") requestRandom

/-- `a` asks `b`, who accepts. -/
def askAndAccept : List FriendOp :=
  [.addFriend (str "a") (str "b") [] requestRandom 5,
    .handleRequest (str "b") sampleRequestId true [] 6]

theorem askAndAccept_friends :
    FriendStore.isFriend (friendAfter askAndAccept) (str "b") (str "a") = true ∧
      FriendshipOk (friendAfter askAndAccept) := by
  have hops : ∀ op ∈ askAndAccept, op.PlainIds := by decide
  exact ⟨by decide +kernel, (friendship_sound askAndAccept hops).1.last⟩

end SwiftChat.Friend
