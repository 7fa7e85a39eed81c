import SwiftChat.Friend.Requests
import SwiftChat.Friend.HandleStages

/-! Calls that take turns on one request, and when exactly one of them decides it. -/
namespace SwiftChat.Friend
open Base
variable {db : FriendDb} {id : Bytes} {q r : FriendRequestData} {ι : Type} {calls : ι → HandleCall}
  {call : HandleCall} {s s' : Int} {fr fr' : Bool} {st st' : Stage}

abbrev HandleRun (ι : Type) := Config FriendAct FriendReply FriendDb Bool ι

/-- Calls on one request, none of which has begun. -/
def beginHandling (id : Bytes) (calls : ι → HandleCall) (db : FriendDb) : HandleRun ι where
  state := db
  calls i := (calls i).prog id

/-- The request waits for its receiver, and the two users are not friends. -/
structure Waits (db : FriendDb) (id : Bytes) (q : FriendRequestData) : Prop where
  pending : Pending db id q
  sender : q.fromUserId ≠ []
  receiver : q.toUserId ≠ []
  strangers : FriendStore.isFriend db q.toUserId q.fromUserId = false

/-- A reply that lets the call pass its last check: a pending request for a call that rejects, no
friendship yet for one that accepts. -/
def HandleCall.passes (call : HandleCall) : (Σ o, FriendReply o) → Bool
  | ⟨.getRequest _, some r⟩ => call.accept = false ∧ r.toUserId = call.userId ∧ r.status = 0
  | ⟨.isFriend _ _, known⟩ => call.accept = true ∧ known = false
  | _ => false

def Friends (db : FriendDb) (q : FriendRequestData) : Prop :=
  FriendStore.isFriend db q.toUserId q.fromUserId = true ∧
    FriendStore.isFriend db q.fromUserId q.toUserId = true

/-- One call at most has succeeded; once all have returned, the status of the request says whether
the two users are friends. -/
structure HandledOnce (id : Bytes) (q : FriendRequestData) (c : HandleRun ι) : Prop where
  once : ∀ i j, c.answer i = some true → c.answer j = some true → i = j
  settled : c.Returned → ∃ r, FriendStore.getRequest c.state id = some r ∧
    (r.status = 1 ↔ Friends c.state q) ∧ (r.status = 2 ↔ ¬ Friends c.state q)

/-! What the calls see of the database. -/

/-- The status of the request and whether the two are friends. -/
structure Seen (db : FriendDb) (id : Bytes) (q : FriendRequestData) (s : Int) (fr : Bool) : Prop where
  request : ∃ r, FriendStore.getRequest db id = some r ∧ r.fromUserId = q.fromUserId ∧
    r.toUserId = q.toUserId ∧ r.status = s
  friends : FriendStore.isFriend db q.toUserId q.fromUserId = fr
  both : fr = true → FriendStore.isFriend db q.fromUserId q.toUserId = true

theorem Seen.friends_iff (h : Seen db id q s fr) : Friends db q ↔ fr = true := by
  unfold Friends
  rw [h.friends]
  exact ⟨fun hf => hf.1, fun hf => ⟨hf, h.both hf⟩⟩

theorem Seen.putGroup {x : FriendGroupData} (h : Seen db id q s fr) :
    Seen (friendExec (.putGroup x) db).1 id q s fr := by
  have hreq : FriendStore.getRequest (friendExec (.putGroup x) db).1 id =
      FriendStore.getRequest db id := by
    simp only [FriendStore.getRequest, friendExec, OrderedMap.get_put_ne keyFriendReq_ne_group]
  have hfriend : ∀ a b, FriendStore.isFriend (friendExec (.putGroup x) db).1 a b =
      FriendStore.isFriend db a b := by
    intro a b
    simp only [FriendStore.isFriend, friendExec, OrderedMap.get_put_ne keyFriend_ne_group]
  refine ⟨?_, ?_, ?_⟩
  · rw [hreq]
    exact h.request
  · rw [hfriend]
    exact h.friends
  · rw [hfriend]
    exact h.both

theorem Seen.putFriends {d : FriendData} (h : Seen db id q s fr) (huser : d.userId = q.toUserId)
    (hfriend : d.friendId = q.fromUserId) (hsender : q.fromUserId ≠ []) (hreceiver : q.toUserId ≠ []) :
    Seen (friendExec (.putFriends d) db).1 id q s true := by
  have hreq : FriendStore.getRequest (friendExec (.putFriends d) db).1 id =
      FriendStore.getRequest db id := by
    simp only [FriendStore.getRequest, friendExec, OrderedMap.write, List.foldl_cons, List.foldl_nil,
      OrderedMap.apply, OrderedMap.get_put_ne keyFriend_ne_req.symm]
  have hsecond : (friendExec (.putFriends d) db).1.get (keyFriend d.friendId d.userId) =
      some (serializeFriend (FriendStore.reverse d)) := OrderedMap.get_put_self
  have hfirst : ((friendExec (.putFriends d) db).1.get (keyFriend d.userId d.friendId)).isSome =
      true := by
    change (((db.put _ _).put _ _).get _).isSome = true
    rw [OrderedMap.get_put]
    split
    · rfl
    · rw [OrderedMap.get_put_self]
      rfl
  rw [huser, hfriend] at hfirst hsecond
  refine ⟨?_, ?_, fun _ => ?_⟩
  · rw [hreq]
    exact h.request
  · simp only [FriendStore.isFriend, hsender, hreceiver, or_self, if_false, hfirst]
  · simp only [FriendStore.isFriend, hsender, hreceiver, or_self, if_false, hsecond,
      Option.isSome_some]

theorem Seen.putRequest (h : Seen db id q s fr) (hfrom : r.fromUserId = q.fromUserId)
    (hto : r.toUserId = q.toUserId) {n : Int} (hn : wrap 32 n = n) :
    Seen (friendExec (.putRequest id { r with status := n }) db).1 id q n fr := by
  have hfriend : ∀ a b, FriendStore.isFriend
      (friendExec (.putRequest id { r with status := n }) db).1 a b = FriendStore.isFriend db a b := by
    intro a b
    simp only [FriendStore.isFriend, friendExec, OrderedMap.get_put_ne keyFriend_ne_req]
  refine ⟨?_, ?_, ?_⟩
  · obtain ⟨r₀, hr₀, _⟩ := h.request
    have hid : id ≠ [] := by
      rintro rfl
      cases hr₀
    refine ⟨({ r with status := n } : FriendRequestData).stored, ?_, hfrom, hto, hn⟩
    rw [FriendStore.getRequest, if_neg hid, friendExec, OrderedMap.get_put_self, Option.bind_some,
      deserialize_serializeRequest]
  · rw [hfriend]
    exact h.friends
  · rw [hfriend]
    exact h.both

theorem Waits.seen (h : Waits db id q) : Seen db id q 0 false :=
  ⟨⟨q, h.pending.1, rfl, rfl, h.pending.2⟩, h.strangers, fun hf => by cases hf⟩

/-! The program of a call at each stage. -/

/-- The friendship that the call makes when it accepts. -/
def HandleCall.friendship (call : HandleCall) (q : FriendRequestData) : FriendData :=
  FriendService.acceptedFriend call.userId q.fromUserId call.groupId call.now

def defaultGroupOf (userId : Bytes) : FriendGroupData where
  groupId := defaultFriendGroupId
  userId := userId
  groupName := defaultFriendGroupName
  sortOrder := 0

/-- What is left of a call at a stage. -/
inductive At (call : HandleCall) (id : Bytes) (q : FriendRequestData) : Stage → FriendProg → Prop where
  | fresh : At call id q .fresh (.act (.getRequest id)
      (FriendProg.afterRead call.userId id call.accept call.groupId call.now))
  | ensure (haccept : call.accept = true) (hto : call.userId = q.toUserId) :
    At call id q .waiting (.act (.getGroups call.userId) (FriendProg.createDefaultGroup call.userId
      (FriendProg.addFriend (call.friendship q) (FriendProg.afterAdd id))))
  | create (haccept : call.accept = true) (hto : call.userId = q.toUserId) :
    At call id q .waiting (.act (.groupExists call.userId defaultFriendGroupId)
      (FriendProg.putGroupUnless (defaultGroupOf call.userId)
        fun _ => FriendProg.addFriend (call.friendship q) (FriendProg.afterAdd id)))
  | put (haccept : call.accept = true) (hto : call.userId = q.toUserId) :
    At call id q .waiting (.act (.putGroup (defaultGroupOf call.userId))
      fun _ => FriendProg.addFriend (call.friendship q) (FriendProg.afterAdd id))
  | test (haccept : call.accept = true) (hto : call.userId = q.toUserId) :
    At call id q .waiting (.act (.isFriend call.userId q.fromUserId)
      (FriendProg.putFriendsUnless (call.friendship q) (FriendProg.afterAdd id)))
  | befriend (haccept : call.accept = true) (hto : call.userId = q.toUserId) :
    At call id q .passed (.act (.putFriends (call.friendship q)) fun _ => FriendProg.afterAdd id true)
  | reread : At call id q .deciding (FriendProg.updateRequestStatus id call.outcome)
  | decide {r : FriendRequestData} (hfrom : r.fromUserId = q.fromUserId)
      (hto : r.toUserId = q.toUserId) :
    At call id q .deciding (.act (.putRequest id { r with status := call.outcome }) fun _ => .ret true)
  | done : At call id q .done (.ret true)
  | refused : At call id q .refused (.ret false)

theorem At.ret {b : Bool} (h : At call id q st (.ret b)) :
    b = true ∧ st = .done ∨ b = false ∧ st = .refused := by
  cases h with
  | done => exact Or.inl ⟨rfl, rfl⟩
  | refused => exact Or.inr ⟨rfl, rfl⟩

theorem addFriend_act (hto : call.userId = q.toUserId) (hsender : q.fromUserId ≠ [])
    (hreceiver : q.toUserId ≠ []) :
    FriendProg.addFriend (call.friendship q) (FriendProg.afterAdd id) =
      .act (.isFriend call.userId q.fromUserId)
        (FriendProg.putFriendsUnless (call.friendship q) (FriendProg.afterAdd id)) := by
  rw [FriendProg.addFriend, if_neg]
  · rfl
  · rintro (hnil | hnil)
    · exact hreceiver (hto ▸ hnil)
    · exact hsender hnil

/-- What the call's next turn leads to. -/
def TurnsTo (call : HandleCall) (id : Bytes) (q : FriendRequestData) (st : Stage) (s : Int) (fr : Bool)
    (e : Σ o, FriendReply o) (p : FriendProg) (db : FriendDb) : Prop :=
  ∃ st' s' fr', At call id q st' p ∧ Seen db id q s' fr' ∧ Turn call q st s fr st' s' fr' ∧
    (st'.Past ↔ call.passes e = true ∨ st.Past)

/-- The first read: the call is refused, waits, or goes on to reject. -/
theorem read_turns (h : Seen db id q s fr) (hreceiver : q.toUserId ≠ []) :
    TurnsTo call id q .fresh s fr ⟨.getRequest id, FriendStore.getRequest db id⟩
      (FriendProg.afterRead call.userId id call.accept call.groupId call.now
        (FriendStore.getRequest db id)) db := by
  obtain ⟨r, hr, hfrom, hto, rfl⟩ := h.request
  rw [hr]
  simp only [FriendProg.afterRead]
  split
  · rename_i hother
    refine ⟨.refused, r.status, fr, .refused, h, .refuse ?_, ?_⟩
    · intro hmine
      exact absurd (hto.trans hmine.symm) hother
    · simp [Stage.Past, HandleCall.passes, hother]
  · rename_i hmine
    rw [not_not] at hmine
    split
    · rename_i hclosed
      refine ⟨.refused, r.status, fr, .refused, h, .refuse (fun _ => hclosed), ?_⟩
      simp [Stage.Past, HandleCall.passes, hclosed]
    · rename_i hopen
      rw [not_not] at hopen
      have huser : call.userId = q.toUserId := hmine.symm.trans hto
      rw [hopen] at h ⊢
      cases haccept : call.accept with
      | true =>
        refine ⟨.waiting, 0, fr, ?_, h, .enter haccept, ?_⟩
        · rw [if_pos rfl, FriendProg.ensureDefaultGroup, if_neg (huser ▸ hreceiver), hfrom]
          exact .ensure haccept huser
        · simp [Stage.Past, HandleCall.passes, haccept]
      | false =>
        refine ⟨.deciding, 0, fr, ?_, h, .reject haccept, ?_⟩
        · have hreread : At call id q .deciding (FriendProg.updateRequestStatus id call.outcome) :=
            .reread
          simpa [HandleCall.outcome, haccept] using hreread
        · simp [Stage.Past, HandleCall.passes, haccept, hmine, hopen]

/-- Every turn of a call is one of its stage. -/
theorem At.turn {o : FriendAct} {next : FriendReply o → FriendProg}
    (h : At call id q st (.act o next)) (hdb : Seen db id q s fr) (hsender : q.fromUserId ≠ [])
    (hreceiver : q.toUserId ≠ []) :
    TurnsTo call id q st s fr ⟨o, (friendExec o db).2⟩ (next (friendExec o db).2)
      (friendExec o db).1 := by
  cases h with
  | fresh => exact read_turns hdb hreceiver
  | ensure haccept hto =>
    refine ⟨.waiting, s, fr, ?_, hdb, .wait, by simp [HandleCall.passes]⟩
    change At call id q .waiting (FriendProg.createDefaultGroup _ _ (FriendStore.getGroups db _))
    unfold FriendProg.createDefaultGroup
    split
    · rw [addFriend_act hto hsender hreceiver]
      exact .test haccept hto
    · rw [FriendProg.createGroup, if_neg]
      · exact .create haccept hto
      · rintro (hnil | hnil)
        · exact hreceiver (hto ▸ hnil)
        · exact plain_default.ne_nil hnil
  | create haccept hto =>
    refine ⟨.waiting, s, fr, ?_, hdb, .wait, by simp [HandleCall.passes]⟩
    unfold FriendProg.putGroupUnless
    split
    · rw [addFriend_act hto hsender hreceiver]
      exact .test haccept hto
    · exact .put haccept hto
  | put haccept hto =>
    refine ⟨.waiting, s, fr, ?_, hdb.putGroup, .wait, by simp [HandleCall.passes]⟩
    simp only [addFriend_act hto hsender hreceiver]
    exact .test haccept hto
  | test haccept hto =>
    have hreply : (friendExec (.isFriend call.userId q.fromUserId) db).2 = fr := by
      rw [hto]
      exact hdb.friends
    rw [hreply]
    cases fr with
    | true =>
      exact ⟨.refused, s, true, .refused, hdb, .known, by simp [HandleCall.passes, Stage.Past]⟩
    | false =>
      exact ⟨.passed, s, false, .befriend haccept hto, hdb, .test,
        by simp [HandleCall.passes, Stage.Past, haccept]⟩
  | befriend haccept hto =>
    refine ⟨.deciding, s, true, ?_, hdb.putFriends hto rfl hsender hreceiver, .befriend haccept,
      by simp [Stage.Past]⟩
    have hreread : At call id q .deciding (FriendProg.updateRequestStatus id call.outcome) := .reread
    simpa [FriendProg.afterAdd, HandleCall.outcome, haccept] using hreread
  | reread =>
    obtain ⟨r, hr, hfrom, hto, _⟩ := hdb.request
    have hreply : (friendExec (.getRequest id) db).2 = some r := hr
    rw [hreply]
    exact ⟨.deciding, s, fr, .decide hfrom hto, hdb, .reread, by simp [Stage.Past]⟩
  | decide hfrom hto =>
    refine ⟨.done, call.outcome, fr, .done, hdb.putRequest hfrom hto ?_, .decide, by simp [Stage.Past]⟩
    unfold HandleCall.outcome
    split
    · decide
    · decide

/-! The calls together. -/

section
variable [DecidableEq ι] {c : HandleRun ι} {i j : ι} {o : FriendAct} {next : FriendReply o → FriendProg}

/-- The calls are at stages that fit the database and what they have read. -/
def Racing (id : Bytes) (q : FriendRequestData) (calls : ι → HandleCall) (c : HandleRun ι) : Prop :=
  ∃ σ s fr, (∀ i, At (calls i) id q (σ i) (c.calls i)) ∧ Seen c.state id q s fr ∧
    RaceOk calls q σ s fr ∧ ∀ i, c.hasPassed (fun i => (calls i).passes) i = true ↔ (σ i).Past

theorem Racing.perform (hsender : q.fromUserId ≠ []) (hreceiver : q.toUserId ≠ [])
    (h : Racing id q calls c) (hcall : c.calls i = .act o next) :
    Racing id q calls (c.perform friendExec i o next) := by
  obtain ⟨σ, s, fr, hat, hseen, hok, hpast⟩ := h
  have hi := hat i
  rw [hcall] at hi
  obtain ⟨st', s', fr', hat', hseen', hturn, hpast'⟩ := hi.turn hseen hsender hreceiver
  refine ⟨Function.update σ i st', s', fr', ?_, hseen', hok.turn hturn, ?_⟩
  · exact Config.stages_perform (P := fun i => At (calls i) id q) hat hat'
  · exact Config.hasPassed_stages hpast hpast'

/-- A call without a user is refused before it begins. -/
def HandleCall.start (call : HandleCall) : Stage := if call.userId = [] then .refused else .fresh

theorem HandleCall.start_cases (call : HandleCall) :
    call.start = .refused ∧ call.userId = [] ∨ call.start = .fresh := by
  unfold HandleCall.start
  split
  · rename_i hnil
    exact Or.inl ⟨rfl, hnil⟩
  · exact Or.inr rfl

theorem HandleCall.not_past_start (call : HandleCall) : ¬ call.start.Past := by
  rcases call.start_cases with ⟨hs, _⟩ | hs
  · simp [hs, Stage.Past]
  · simp [hs, Stage.Past]

theorem Waits.racing (h : Waits db id q) (calls : ι → HandleCall) :
    Racing id q calls (beginHandling id calls db) := by
  have hid : id ≠ [] := by
    rintro rfl
    cases h.pending.1
  refine ⟨fun i => (calls i).start, 0, false, ?_, h.seen, ⟨Or.inl ⟨rfl, ?_⟩, ?_, ?_⟩, ?_⟩
  · intro i
    simp only [beginHandling, HandleCall.prog, FriendProg.handleRequest, hid, or_false,
      HandleCall.start]
    split
    · exact .refused
    · exact .fresh
  · intro i hdone
    exact (calls i).not_past_start (by rw [hdone]; trivial)
  · refine iff_of_false (by simp) ?_
    rintro ⟨i, _, hwrote⟩
    exact (calls i).not_past_start hwrote.past
  · intro i hi hto
    rcases (calls i).start_cases with ⟨_, hnil⟩ | hfresh
    · exact absurd (hto.symm.trans hnil) h.receiver
    · rw [hfresh] at hi
      cases hi
  · intro i
    exact iff_of_false (by simp [Config.hasPassed, beginHandling]) (calls i).not_past_start

/-- A call that has returned succeeded exactly when it is past its last check. -/
theorem At.answer {p : FriendProg} {b : Bool} (h : At call id q st p) (hp : p.answer = some b) :
    (b = true ↔ st.Past) ∧ (st = .done ∨ st = .refused) := by
  cases p with
  | act o next => cases hp
  | ret a =>
    obtain rfl := Option.some.inj hp
    rcases h.ret with ⟨rfl, rfl⟩ | ⟨rfl, rfl⟩
    · exact ⟨iff_of_true rfl trivial, Or.inl rfl⟩
    · exact ⟨iff_of_false (by simp) (by simp [Stage.Past]), Or.inr rfl⟩

theorem Racing.handledOnce (h : Racing id q calls c)
    (hreceiver : ∃ i, (calls i).userId = q.toUserId) (honce : c.PassedOnce fun i => (calls i).passes) :
    HandledOnce id q c := by
  obtain ⟨σ, s, fr, hat, hseen, hok, hpast⟩ := h
  constructor
  · intro i j hi hj
    exact honce i j ((hpast i).mpr (((hat i).answer hi).1.mp rfl))
      ((hpast j).mpr (((hat j).answer hj).1.mp rfl))
  · intro hret
    have hend : ∀ i, σ i = .done ∨ σ i = .refused := by
      intro i
      obtain ⟨b, hb⟩ := Option.isSome_iff_exists.mp (hret i)
      exact ((hat i).answer hb).2
    obtain ⟨r, hr, _, _, rfl⟩ := hseen.request
    refine ⟨r, hr, ?_⟩
    rw [hseen.friends_iff]
    refine hok.settled hend hreceiver ?_
    intro i j hi hj
    exact honce i j ((hpast i).mpr hi) ((hpast j).mpr hj)

/-- Two calls that pass their checks both succeed. -/
theorem Racing.passedOnce (h : Racing id q calls c) (hret : c.Returned) (hc : HandledOnce id q c) :
    c.PassedOnce fun i => (calls i).passes := by
  obtain ⟨σ, s, fr, hat, _, _, hpast⟩ := h
  have hanswer : ∀ i, c.hasPassed (fun i => (calls i).passes) i = true →
      c.answer i = some true := by
    intro i hi
    obtain ⟨b, hb⟩ := Option.isSome_iff_exists.mp (hret i)
    have htrue := ((hat i).answer hb).1.mpr ((hpast i).mp hi)
    rw [hb, htrue]
  intro i j hi hj
  exact hc.once i j (hanswer i hi) (hanswer j hj)

/-- Whatever calls take turns on a request that waits, one of them its receiver's: while no two of
them pass their last checks, one call at most succeeds and the status says in the end whether the two
are friends; and when all have returned, it is so only if no two passed. -/
theorem handled_once_iff (db : FriendDb) (id : Bytes) (q : FriendRequestData) (hwaits : Waits db id q)
    (calls : ι → HandleCall) (hreceiver : ∃ i, (calls i).userId = q.toUserId) (schedule : List ι) :
    (AllSteps (Config.tick friendExec) (Config.OneAtATime friendExec fun i => (calls i).passes)
        (beginHandling id calls db) schedule →
      Always (Config.tick friendExec) (HandledOnce id q) (beginHandling id calls db) schedule) ∧
    ((run (Config.tick friendExec) (beginHandling id calls db) schedule).Returned →
      HandledOnce id q (run (Config.tick friendExec) (beginHandling id calls db) schedule) →
      AllSteps (Config.tick friendExec) (Config.OneAtATime friendExec fun i => (calls i).passes)
        (beginHandling id calls db) schedule) := by
  have hracing : Always (Config.tick friendExec) (Racing id q calls) (beginHandling id calls db)
      schedule :=
    Config.always_of_perform
      (fun _ _ _ _ h hcall _ => Racing.perform hwaits.sender hwaits.receiver h hcall)
      (hwaits.racing calls) (allSteps_of_forall (C := fun _ _ => True) (fun _ _ => trivial))
  constructor
  · intro hone pre hpre
    exact (hracing pre hpre).handledOnce hreceiver
      ((Config.always_passedOnce_iff rfl).mpr hone pre hpre)
  · intro hret hc
    exact Config.allSteps_of_passedOnce rfl (hracing.last.passedOnce hret hc)

end

/-- Requests between strangers wait in every database that the service builds for plain user ids. -/
theorem waits_after {ops : List FriendOp} (hops : ∀ op ∈ ops, op.PlainIds)
    (hq : Pending (friendAfter ops) id q)
    (hstrangers : FriendStore.isFriend (friendAfter ops) q.toUserId q.fromUserId = false) :
    Waits (friendAfter ops) id q := by
  obtain ⟨hok, _, _⟩ := (friendAfter_ok ops hops).filed.requests hq.1
  exact ⟨hq, hok.sender.ne_nil, hok.receiver.ne_nil, hstrangers⟩

def askOnce : List FriendOp := [.addFriend (str "a") (str "b") [] requestRandom 5]

def sampleRequest : FriendRequestData := newRequest (str "a") (str "b") [] requestRandom 5

theorem sampleRequest_waits : Waits (friendAfter askOnce) sampleRequestId sampleRequest := by
  refine waits_after (by decide) ?_ (by decide +kernel)
  unfold Pending
  decide +kernel

/-- `b` accepts twice and rejects once. -/
def answerThrice : Fin 3 → HandleCall
  | 0 => { userId := str "b", accept := true, now := 6 }
  | 1 => { userId := str "b", accept := true, now := 7 }
  | 2 => { userId := str "b", accept := false, now := 8 }

/-- The second call begins beside the first and looks for the friendship when it is there. -/
def acceptFirst : List (Fin 3) := [0, 1, 0, 0, 0, 0, 0, 1, 1, 0, 0, 2]

def acceptedOnce : HandleRun (Fin 3) := run (Config.tick friendExec)
  (beginHandling sampleRequestId answerThrice (friendAfter askOnce)) acceptFirst

theorem acceptedOnce_right :
    acceptedOnce.Returned ∧ HandledOnce sampleRequestId sampleRequest acceptedOnce := by
  constructor
  · unfold Config.Returned
    decide +kernel
  · have hone : AllSteps (Config.tick friendExec)
        (Config.OneAtATime friendExec fun i => (answerThrice i).passes)
        (beginHandling sampleRequestId answerThrice (friendAfter askOnce)) acceptFirst := by
      decide +kernel
    exact ((handled_once_iff (friendAfter askOnce) sampleRequestId sampleRequest sampleRequest_waits
      answerThrice ⟨0, rfl⟩ acceptFirst).1 hone).last

/-- The third call finds the request pending, and rejects it when the first has accepted it. -/
def rejectLate : List (Fin 3) := [0, 2, 0, 0, 0, 0, 0, 0, 0, 2, 2, 1]

def acceptedAndRejected : HandleRun (Fin 3) := run (Config.tick friendExec)
  (beginHandling sampleRequestId answerThrice (friendAfter askOnce)) rejectLate

theorem acceptedAndRejected_wrong : Waits (friendAfter askOnce) sampleRequestId sampleRequest ∧
    acceptedAndRejected.Returned ∧
    (FriendStore.getRequest acceptedAndRejected.state sampleRequestId).map (·.status) = some 2 ∧
    Friends acceptedAndRejected.state sampleRequest ∧
    ¬ HandledOnce sampleRequestId sampleRequest acceptedAndRejected := by
  refine ⟨sampleRequest_waits, ?_, by decide +kernel, ?_, ?_⟩
  · unfold Config.Returned
    decide +kernel
  · unfold Friends
    decide +kernel
  · intro h
    have hsame := h.once 0 2 (by decide +kernel) (by decide +kernel)
    cases hsame

end SwiftChat.Friend
