import SwiftChat.Friend.Friendship

/-! Pending requests: one between two users, none between friends, and each can be handled. -/
namespace SwiftChat.Friend
open Base
open Chat (colon)
variable {db : FriendDb} {u f i j id remark : Bytes} {q r : FriendRequestData} {V V' : View}
  {op : FriendOp} {now : Int}

/-- The two requests are between the same users, whichever of them asked. -/
def SamePair (q r : FriendRequestData) : Prop :=
  q.fromUserId = r.fromUserId ∧ q.toUserId = r.toUserId ∨
    q.fromUserId = r.toUserId ∧ q.toUserId = r.fromUserId

/-- The request is stored under the id and waits for its receiver. -/
def Pending (db : FriendDb) (id : Bytes) (q : FriendRequestData) : Prop :=
  FriendStore.getRequest db id = some q ∧ q.status = 0

structure PendingOk (db : FriendDb) : Prop where
  single : ∀ i j q r, Pending db i q → Pending db j r → SamePair q r → i = j
  strangers : ∀ i q, Pending db i q →
    FriendStore.isFriend db q.fromUserId q.toUserId = false ∧
      FriendStore.isFriend db q.toUserId q.fromUserId = false
  handled : ∀ i q, Pending db i q → ∀ accept groupId now,
    (FriendService.handleRequest db q.toUserId i accept groupId now).2 = true ∧
      ∃ r, FriendStore.getRequest (FriendService.handleRequest db q.toUserId i accept groupId now).1 i =
        some r ∧ r.status ≠ 0

/-- The check of `AddFriend` the other way round: `f` has asked `u` and waits. -/
def asked (db : FriendDb) (u f : Bytes) : Bool :=
  (FriendStore.getReceivedRequests db u).any (fun q => q.fromUserId = f ∧ q.status = 0)

/-- An `AddFriend` goes through while the friend's own request to the user is pending. -/
def crosses (db : FriendDb) : FriendOp → Bool
  | .addFriend u f _ r _ => Asks db u f r ∧ asked db u f = true
  | _ => false

theorem asked_iff (h : FriendsOk db) :
    asked db u f = true ↔ ∃ i q, Pending db i q ∧ q.fromUserId = f ∧ q.toUserId = u := by
  simp only [asked, List.any_eq_true, decide_eq_true_eq, h.mem_getReceivedRequests]
  constructor
  · rintro ⟨q, ⟨hq, hto⟩, hfrom, hpending⟩
    exact ⟨q.requestId, q, ⟨hq, hpending⟩, hfrom, hto⟩
  · rintro ⟨i, q, ⟨hq, hpending⟩, hfrom, hto⟩
    obtain ⟨_, rfl, _⟩ := h.filed.requests hq
    exact ⟨q, ⟨hq, hto⟩, hfrom, hpending⟩

/-! The same in the view. -/

namespace View

def Pending (V : View) (id : Bytes) (q : FriendRequestData) : Prop :=
  V.requests id = some q ∧ q.status = 0

structure PendingOk (V : View) : Prop where
  single : ∀ i j q r, V.Pending i q → V.Pending j r → SamePair q r → i = j
  strangers : ∀ i q, V.Pending i q →
    V.friends q.fromUserId q.toUserId = none ∧ V.friends q.toUserId q.fromUserId = none

end View

/-- Where no request of friends is pending, each pending request can be handled. -/
theorem FriendsOk.handled (h : FriendsOk db) (hq : Pending db i q)
    (hstrangers : (view db).friends q.toUserId q.fromUserId = none) (accept : Bool) (groupId : Bytes)
    (now : Int) :
    (FriendService.handleRequest db q.toUserId i accept groupId now).2 = true ∧
      ∃ r, FriendStore.getRequest (FriendService.handleRequest db q.toUserId i accept groupId now).1 i =
        some r ∧ r.status ≠ 0 := by
  obtain ⟨hreq, hpending⟩ := hq
  cases accept with
  | true =>
    obtain ⟨hdone, _, hview⟩ :=
      handleRequest_accept h hreq hpending hstrangers groupId now
    refine ⟨hdone, { q with status := 1 }, ?_, show (1 : Int) ≠ 0 by decide⟩
    have hafter := congrArg (fun V => V.requests i) hview
    exact hafter.trans (Function.update_self ..)
  | false =>
    obtain ⟨hdone, _, hview⟩ := handleRequest_reject h hreq hpending groupId now
    refine ⟨hdone, { q with status := 2 }, ?_, show (2 : Int) ≠ 0 by decide⟩
    have hafter := congrArg (fun V => V.requests i) hview
    exact hafter.trans (Function.update_self ..)

theorem FriendsOk.pendingOk_iff (h : FriendsOk db) : PendingOk db ↔ (view db).PendingOk := by
  constructor
  · intro hp
    refine ⟨hp.single, fun i q hq => ?_⟩
    obtain ⟨hto, hfrom⟩ := hp.strangers i q hq
    rw [h.filed.isFriend_eq] at hto hfrom
    exact ⟨by simpa using hto, by simpa using hfrom⟩
  · intro hp
    refine ⟨hp.single, fun i q hq => ?_, fun i q hq => h.handled hq (hp.strangers i q hq).2⟩
    obtain ⟨hto, hfrom⟩ := hp.strangers i q hq
    rw [h.filed.isFriend_eq, h.filed.isFriend_eq, hto, hfrom]
    exact ⟨rfl, rfl⟩

/-! What a step does to the pending requests. -/

theorem View.pending_setRequest {x : FriendRequestData} (h : (V.setRequest id x).Pending i r) :
    i = id ∧ r = x ∨ V.Pending i r := by
  obtain ⟨hreq, hpending⟩ := h
  change Function.update V.requests id (some x) i = some r at hreq
  by_cases hi : i = id
  · subst hi
    rw [Function.update_self] at hreq
    exact Or.inl ⟨rfl, (Option.some.inj hreq).symm⟩
  · rw [Function.update_of_ne hi] at hreq
    exact Or.inr ⟨hreq, hpending⟩

/-- A request that the step answers is no longer pending. -/
theorem View.pending_answer {x : FriendRequestData} (hx : x.status ≠ 0)
    (h : (V.setRequest id x).Pending i r) : V.Pending i r := by
  rcases View.pending_setRequest h with ⟨_, rfl⟩ | h'
  · exact absurd h.2 hx
  · exact h'

/-- Only `AddFriend` adds to the pending requests. -/
theorem Does.pending (h : Does V op V') (hop : ∀ u f remark x now, op ≠ .addFriend u f remark x now)
    (hr : V'.Pending i r) : V.Pending i r := by
  cases h with
  | ask => exact absurd rfl (hop _ _ _ _ _)
  | accept => exact View.pending_answer (show (1 : Int) ≠ 0 by decide) hr
  | reject => exact View.pending_answer (show (2 : Int) ≠ 0 by decide) hr
  | _ => exact hr

/-- A request that stays pending over a step stays one between strangers: accepting makes friends of
its own pair only, and no other request of that pair is pending. -/
theorem Does.strangers (h : Does V op V') (hp : V.PendingOk) (hr : V.Pending i r)
    (hr' : V'.Pending i r) :
    V'.friends r.fromUserId r.toUserId = none ∧ V'.friends r.toUserId r.fromUserId = none := by
  have hopen : ∀ {id q}, V.requests id = some q → q.status = 0 → SamePair r q →
      V'.requests id ≠ some { q with status := 1 } := by
    intro id q hq hpending hpair hdone
    obtain rfl := hp.single i id r q hr ⟨hq, hpending⟩ hpair
    rw [hr'.1] at hdone
    cases hdone
    exact absurd hr'.2 (show (1 : Int) ≠ 0 by decide)
  obtain ⟨hto, hfrom⟩ := hp.strangers i r hr
  constructor
  · by_contra hmade
    obtain ⟨id, g, now, q, _, hq, hpending, hpair, hdone⟩ := h.made hto hmade
    exact hopen hq hpending hpair.symm hdone
  · by_contra hmade
    obtain ⟨id, g, now, q, _, hq, hpending, hpair, hdone⟩ := h.made hfrom hmade
    refine hopen hq hpending ?_ hdone
    rcases hpair with hpair | hpair
    · exact Or.inl hpair.symm
    · exact Or.inr hpair.symm

theorem Does.pendingOk (h : Does V op V') (hp : V.PendingOk)
    (hop : ∀ u f remark x now, op ≠ .addFriend u f remark x now) : V'.PendingOk where
  single _ _ _ _ hq hr := hp.single _ _ _ _ (h.pending hop hq) (h.pending hop hr)
  strangers _ _ hr := h.strangers hp (h.pending hop hr) hr

/-- A new request between strangers is in order when none of the pair is pending. -/
theorem View.PendingOk.ask (hp : V.PendingOk)
    (hstrangers : V.friends r.fromUserId r.toUserId = none ∧ V.friends r.toUserId r.fromUserId = none)
    (hfirst : ∀ i q, V.Pending i q → ¬ SamePair q r) : (V.setRequest id r).PendingOk where
  single i j q x hq hx hpair := by
    rcases View.pending_setRequest hq with ⟨rfl, rfl⟩ | hq'
    · rcases View.pending_setRequest hx with ⟨rfl, rfl⟩ | hx'
      · rfl
      · refine absurd ?_ (hfirst j x hx')
        rcases hpair with hpair | hpair
        · exact Or.inl ⟨hpair.1.symm, hpair.2.symm⟩
        · exact Or.inr ⟨hpair.2.symm, hpair.1.symm⟩
    · rcases View.pending_setRequest hx with ⟨rfl, rfl⟩ | hx'
      · exact absurd hpair (hfirst i q hq')
      · exact hp.single i j q x hq' hx' hpair
  strangers i q hq := by
    rcases View.pending_setRequest hq with ⟨rfl, rfl⟩ | hq'
    · exact hstrangers
    · exact hp.strangers i q hq'

/-- `AddFriend` that goes through keeps the requests in order exactly when it crosses none. -/
theorem addFriend_pendingOk {x : RandomString 12} (h : FriendsOk db) (hu : colon ∉ u) (hf : colon ∉ f)
    (hp : (view db).PendingOk) (ha : Asks db u f x) :
    (view (FriendService.addFriend db u f remark x now).1).PendingOk ↔
      ∀ i q, Pending db i q → ¬ (q.fromUserId = f ∧ q.toUserId = u) := by
  have hreq := ha.request_ok hu hf remark now
  have hview : view (FriendService.addFriend db u f remark x now).1 = (view db).setRequest
      (generateShortId (str "req_") x) (newRequest u f remark x now).stored := by
    rcases addFriend_cases h.filed u f remark x now with ⟨_, hn⟩ | ⟨_, hs⟩
    · exact absurd ha hn
    · rw [hs, createRequest_view h.filed hreq ha.new]
      rfl
  rw [hview]
  constructor
  · rintro hp' i q ⟨hq, hpending⟩ ⟨hfrom, hto⟩
    have hne : i ≠ generateShortId (str "req_") x := by
      rintro rfl
      rw [ha.new] at hq
      cases hq
    refine hne (hp'.single i _ q (newRequest u f remark x now).stored ⟨?_, hpending⟩ ⟨?_, ?_⟩
      (Or.inr ⟨hfrom, hto⟩))
    · exact (Function.update_of_ne hne ..).trans hq
    · exact Function.update_self ..
    · exact show wrap 32 0 = 0 by decide
  · intro hcross
    have huf : (view db).friends u f = none := by
      have hs := ha.strangers
      rw [h.filed.isFriend_eq] at hs
      simpa using hs
    have hfu : (view db).friends f u = none := by
      by_contra hsome
      have hs := h.both f u (Option.isSome_iff_ne_none.mpr hsome)
      rw [huf] at hs
      cases hs
    refine hp.ask ⟨huf, hfu⟩ ?_
    rintro i q hq (hpair | hpair)
    · exact ha.no_pending h hq.1 hpair.1 hpair.2 hq.2
    · exact hcross i q hq hpair

theorem friendStep_pendingOk (h : FriendsOk db) (hop : op.PlainIds) (hp : PendingOk db) :
    PendingOk (friendStep db op) ↔ crosses db op = false := by
  obtain ⟨hafter, hdoes⟩ := friendStep_does h op hop
  rw [h.pendingOk_iff] at hp
  rw [hafter.pendingOk_iff]
  cases op with
  | addFriend u f remark x now =>
    by_cases ha : Asks db u f x
    · refine (addFriend_pendingOk h hop.1 hop.2 hp ha).trans ?_
      simp only [crosses, asked_iff h, ha, true_and, decide_eq_false_iff_not, not_exists, not_and]
    · have hsame : friendStep db (.addFriend u f remark x now) = db := by
        rcases addFriend_cases h.filed u f remark x now with ⟨hs, _⟩ | ⟨ha', _⟩
        · exact hs
        · exact absurd ha' ha
      rw [hsame]
      exact iff_of_true hp (by simp [crosses, ha])
  | _ => exact iff_of_true (hdoes.pendingOk hp (by intros; simp)) rfl

theorem pendingOk_empty : PendingOk OrderedMap.empty := by
  have hnone : ∀ i q, ¬ Pending OrderedMap.empty i q := by
    rintro i q ⟨hq, _⟩
    unfold FriendStore.getRequest at hq
    split at hq
    · cases hq
    · cases hq
  exact ⟨fun i _ q _ hq => absurd hq (hnone i q), fun i q hq => absurd hq (hnone i q),
    fun i q hq => absurd hq (hnone i q)⟩

/-- Along a run with plain user ids the pending requests stay in order exactly as long as nobody asks
a user whose own request to them is pending. -/
theorem pending_requests_iff (ops : List FriendOp) (hops : ∀ op ∈ ops, op.PlainIds) :
    Always friendStep PendingOk OrderedMap.empty ops ↔
      AllSteps friendStep (fun db op => crosses db op = false) OrderedMap.empty ops :=
  always_iff_allSteps (fun _ op h hop => (friendStep_does h op hop).1)
    (fun _ _ h hop hp => friendStep_pendingOk h hop hp) friendsOk_empty pendingOk_empty
    (allSteps_of_mem hops)

def otherRandom : RandomString 12 := RandomString.replicate 12 72 rfl

/-- `a` and `b` ask each other; each of the two requests is pending. -/
def askBothWays : List FriendOp :=
  [.addFriend (str "a") (str "b") [] requestRandom 5,
    .addFriend (str "b") (str "a") [] otherRandom 6]

theorem askBothWays_pending : ¬ Always friendStep PendingOk OrderedMap.empty askBothWays := by
  intro h
  have hfirst : Pending (friendAfter askBothWays) sampleRequestId
      (newRequest (str "a") (str "b") [] requestRandom 5) := by
    unfold Pending
    decide +kernel
  have hsecond : Pending (friendAfter askBothWays) (generateShortId (str "req_") otherRandom)
      (newRequest (str "b") (str "a") [] otherRandom 6) := by
    unfold Pending
    decide +kernel
  have hsame := h.last.single _ _ _ _ hfirst hsecond (Or.inr ⟨rfl, rfl⟩)
  exact absurd hsame (by decide)

/-- `b` asks `a` once `a`'s request is rejected. -/
def askAfterRejection : List FriendOp :=
  [.addFriend (str "a") (str "b") [] requestRandom 5,
    .handleRequest (str "b") sampleRequestId false [] 6,
    .addFriend (str "b") (str "a") [] otherRandom 7]

theorem askAfterRejection_pendingOk :
    PendingOk (friendAfter askAfterRejection) ∧
      Pending (friendAfter askAfterRejection) (generateShortId (str "req_") otherRandom)
        (newRequest (str "b") (str "a") [] otherRandom 7) := by
  have hops : ∀ op ∈ askAfterRejection, op.PlainIds := by decide
  have hfree : AllSteps friendStep (fun db op => crosses db op = false) OrderedMap.empty
      askAfterRejection := by decide +kernel
  refine ⟨((pending_requests_iff askAfterRejection hops).mpr hfree).last, ?_⟩
  unfold Pending
  decide +kernel

end SwiftChat.Friend
