import SwiftChat.Base.Part
import SwiftChat.Zone.ZoneService
import Mathlib.Logic.Relation

/-! Subsystems that work on a part of the zone's state, and what the handlers do to that part: the
operations their request asks for, and after them pushes. -/
namespace SwiftChat.Zone
open Base
variable {S P O α β : Type}

/-! The subsystems on a part of a larger state. -/

def AuthCalls.lift (calls : AuthCalls P) (part : Part S P) : AuthCalls S where
  register s req := part.lift (calls.register · req) s
  login s req := part.lift (calls.login · req) s
  logout s userId token := part.lift (calls.logout · userId token) s
  validateToken s token := part.lift (calls.validateToken · token) s
  searchUsers s keyword limit token := part.lift (calls.searchUsers · keyword limit token) s

def ChatCalls.lift (calls : ChatCalls P) (part : Part S P) : ChatCalls S where
  sendMessage s req token := part.lift (calls.sendMessage · req token) s
  markRead s userId req token := part.lift (calls.markRead · userId req token) s
  pullOffline s userId limit cursor token :=
    part.lift (calls.pullOffline · userId limit cursor token) s
  recallMessage s req token := part.lift (calls.recallMessage · req token) s
  getHistory s userId req token := part.lift (calls.getHistory · userId req token) s
  syncConversations s userId lastSync token :=
    part.lift (calls.syncConversations · userId lastSync token) s
  deleteConversation s userId req token :=
    part.lift (calls.deleteConversation · userId req token) s

def FriendCalls.lift (calls : FriendCalls P) (part : Part S P) : FriendCalls S where
  addFriend s req token := part.lift (calls.addFriend · req token) s
  handleFriendRequest s req token := part.lift (calls.handleFriendRequest · req token) s
  removeFriend s req token := part.lift (calls.removeFriend · req token) s
  blockUser s req token := part.lift (calls.blockUser · req token) s
  unblockUser s req token := part.lift (calls.unblockUser · req token) s
  getFriends s userId groupId token := part.lift (calls.getFriends · userId groupId token) s
  getFriendRequests s userId kind token := part.lift (calls.getFriendRequests · userId kind token) s
  getBlockList s userId token := part.lift (calls.getBlockList · userId token) s
  createFriendGroup s userId name token := part.lift (calls.createFriendGroup · userId name token) s
  getFriendGroups s userId token := part.lift (calls.getFriendGroups · userId token) s
  moveFriendToGroup s userId req token := part.lift (calls.moveFriendToGroup · userId req token) s
  deleteFriendGroup s userId groupId token :=
    part.lift (calls.deleteFriendGroup · userId groupId token) s
  setRemark s userId req token := part.lift (calls.setRemark · userId req token) s

def GroupCalls.lift (calls : GroupCalls P) (part : Part S P) : GroupCalls S where
  createGroup s req := part.lift (calls.createGroup · req) s
  dismissGroup s req := part.lift (calls.dismissGroup · req) s
  inviteMembers s req := part.lift (calls.inviteMembers · req) s
  removeMember s req := part.lift (calls.removeMember · req) s
  leaveGroup s req := part.lift (calls.leaveGroup · req) s
  getGroupInfo s groupId := part.lift (calls.getGroupInfo · groupId) s
  getGroupMembers s groupId page pageSize :=
    part.lift (calls.getGroupMembers · groupId page pageSize) s
  getUserGroups s userId := part.lift (calls.getUserGroups · userId) s

def FileCalls.lift (calls : FileCalls P) (part : Part S P) : FileCalls S where
  getUploadToken s req := part.lift (calls.getUploadToken · req) s
  initUpload s req := part.lift (calls.initUpload · req) s
  getFileInfo s fileId := part.lift (calls.getFileInfo · fileId) s
  getFileUrl s req := part.lift (calls.getFileUrl · req) s
  deleteFile s req := part.lift (calls.deleteFile · req) s

section
variable {part : Part S P} {s : S} {r : ClientRequest}

theorem lift_unchanged (b : β) : (s, b) = part.lift (fun p => (p, b)) s := by
  rw [Part.lift, part.set_get]

theorem lift_ite {c : Prop} [Decidable c] {x y : S × β} {f g : P → P × β}
    (hx : x = part.lift f s) (hy : y = part.lift g s) :
    (if c then x else y) = part.lift (fun p => if c then f p else g p) s := by
  split
  · exact hx
  · exact hy

theorem lift_parsed {parse : Bytes → Option α} {handle : α → S × HandleClientRequestResult}
    {f : α → P → P × HandleClientRequestResult} (h : ∀ req, handle req = part.lift (f req) s) :
    parsed parse s r handle = part.lift (fun p => parsed parse p r (f · p)) s := by
  unfold parsed
  cases parse r.payload with
  | none => exact lift_unchanged _
  | some req => exact h req

/-- The requests for `auth.*` work on that part alone. -/
theorem AuthCalls.lift_handle (calls : AuthCalls P) (codec : AuthCodec) :
    (calls.lift part).handle codec s r = part.lift (calls.handle codec · r) s := by
  unfold AuthCalls.handle
  refine lift_ite (lift_parsed fun _ => rfl) ?_
  refine lift_ite (lift_parsed fun _ => rfl) ?_
  refine lift_ite (lift_parsed fun _ => rfl) ?_
  exact lift_ite (lift_parsed fun _ => rfl) (lift_unchanged _)

theorem lift_readAnswer {call : P → P × Except Bytes α} {id fallback : Bytes}
    {payload : α → ResponsePayload} :
    readAnswer id fallback payload (part.lift call s) =
      part.lift (fun p => readAnswer id fallback payload (call p)) s := by
  simp only [readAnswer, Part.lift]
  cases (call (part.get s)).2 <;> rfl

/-- So do those for `group.*`. -/
theorem GroupCalls.lift_handle (calls : GroupCalls P) (codec : GroupCodec) :
    (calls.lift part).handle codec s r = part.lift (calls.handle codec · r) s := by
  unfold GroupCalls.handle
  iterate 5 refine lift_ite (lift_parsed fun _ => rfl) ?_
  iterate 2 refine lift_ite (lift_parsed fun _ => lift_readAnswer) ?_
  refine lift_ite (lift_parsed fun _ => ?_) (lift_unchanged _)
  exact lift_ite (lift_unchanged _) lift_readAnswer

/-- And those for `file.*`. -/
theorem FileCalls.lift_handle (calls : FileCalls P) (codec : FileCodec) :
    (calls.lift part).handle codec s r = part.lift (calls.handle codec · r) s := by
  unfold FileCalls.handle
  refine lift_ite (lift_parsed fun _ => rfl) ?_
  refine lift_ite (lift_parsed fun req => ?_) ?_
  · simp only [FileCalls.lift, Part.lift]
    rcases calls.initUpload (part.get s) req with ⟨p, _ | _⟩ <;> rfl
  refine lift_ite (lift_parsed fun fileId => ?_) ?_
  · simp only [FileCalls.lift, Part.lift]
    rcases calls.getFileInfo (part.get s) fileId with ⟨p, _ | _⟩ <;> rfl
  refine lift_ite (lift_parsed fun _ => rfl) ?_
  exact lift_ite (lift_parsed fun _ => rfl) (lift_unchanged _)

end

/-! What a request asks for. -/

/-- Nothing when its payload does not parse. -/
def asked (parse : Bytes → Option α) (r : ClientRequest) (f : α → List O) : List O :=
  match parse r.payload with
  | none => []
  | some req => f req

/-- Nothing when its connection has no user. -/
def askedInSession (r : ClientRequest) (ops : List O) : List O := if r.userId = [] then [] else ops

/-- One push. -/
def Routed (z : ZoneService S) (s s' : S) : Prop :=
  ∃ u cmd payload, s' = z.routeToUser s u cmd payload

/-- Operations were done on a part of the state, and after them there were pushes. -/
def Does (z : ZoneService S) (part : Part S P) (opStep : P → O → P) (s : S) (ops : List O)
    (x : S × β) : Prop :=
  Relation.ReflTransGen (Routed z) (part.set s (run opStep (part.get s) ops)) x.1

section
variable {z : ZoneService S} {part : Part S P} {opStep : P → O → P} {s : S} {r : ClientRequest}
  {ops ops' : List O} {x : S × β} {ec : ErrorCode} {id fallback : Bytes}

theorem does_unchanged (h : x.1 = s) : Does z part opStep s [] x := by
  unfold Does
  rw [run, List.foldl_nil, part.set_get, h]

theorem does_nothing {b : β} : Does z part opStep s [] (s, b) := does_unchanged rfl

theorem does_call {call : P → P × β} (h : (call (part.get s)).1 = run opStep (part.get s) ops) :
    Does z part opStep s ops (part.lift call s) := by
  unfold Does
  rw [part.lift_fst, h]

theorem Does.ite {c : Prop} [Decidable c] {y : S × β} (hx : Does z part opStep s ops x)
    (hy : Does z part opStep s ops' y) :
    Does z part opStep s (if c then ops else ops') (if c then x else y) := by
  split
  · exact hx
  · exact hy

theorem does_parsed {parse : Bytes → Option α} {f : α → List O}
    {handle : α → S × HandleClientRequestResult}
    (h : ∀ req, Does z part opStep s (f req) (handle req)) :
    Does z part opStep s (asked parse r f) (parsed parse s r handle) := by
  unfold asked parsed
  cases parse r.payload with
  | none => exact does_nothing
  | some req => exact h req

theorem does_parsed_nothing {parse : Bytes → Option α}
    {handle : α → S × HandleClientRequestResult}
    (h : ∀ req, Does z part opStep s [] (handle req)) :
    Does z part opStep s [] (parsed parse s r handle) := by
  unfold parsed
  cases parse r.payload with
  | none => exact does_nothing
  | some req => exact h req

theorem does_ofSession {x : S × HandleClientRequestResult} (h : Does z part opStep s ops x) :
    Does z part opStep s (askedInSession r ops) (ofSession s r x) :=
  .ite does_nothing h

theorem does_ofSession_nothing {x : S × HandleClientRequestResult}
    (h : Does z part opStep s [] x) : Does z part opStep s [] (ofSession s r x) := by
  unfold ofSession
  split
  · exact does_nothing
  · exact h

/-! The answer to a call is made of its result alone. -/

theorem Does.of_fst {γ : Type} {y : S × γ} (h : Does z part opStep s ops x) (hy : y.1 = x.1) :
    Does z part opStep s ops y := by
  unfold Does at h ⊢
  rw [hy]
  exact h

theorem Does.codeAnswer {x : S × Bool} (h : Does z part opStep s ops x) :
    Does z part opStep s ops (codeAnswer id ec x) := h

theorem Does.textAnswer {x : S × Except Bytes Unit} (h : Does z part opStep s ops x) :
    Does z part opStep s ops (textAnswer id ec fallback x) := by
  refine h.of_fst ?_
  unfold Zone.textAnswer
  cases x.2 <;> rfl

theorem Does.readAnswer {payload : α → ResponsePayload} {x : S × Except Bytes α}
    (h : Does z part opStep s ops x) :
    Does z part opStep s ops (readAnswer id fallback payload x) := by
  refine h.of_fst ?_
  unfold Zone.readAnswer
  cases x.2 <;> rfl

theorem Does.changeAnswer {payload : Bool → Bytes → ResponsePayload} {x : S × Except Bytes Unit}
    (h : Does z part opStep s ops x) :
    Does z part opStep s ops (changeAnswer id fallback payload x) := by
  refine h.of_fst ?_
  unfold Zone.changeAnswer
  cases x.2 <;> rfl

/-- Pushes may follow. -/
theorem Does.routed {γ : Type} {y : S × γ} (h : Does z part opStep s ops x)
    (hpush : Relation.ReflTransGen (Routed z) x.1 y.1) : Does z part opStep s ops y :=
  h.trans hpush

theorem routed_kept {X : Type} {look : S → X} {s s' : S} (h : Relation.ReflTransGen (Routed z) s s')
    (hpush : ∀ s u cmd payload, look (z.routeToUser s u cmd payload) = look s) :
    look s' = look s := by
  induction h with
  | refl => rfl
  | tail _ hstep ih =>
    obtain ⟨u, cmd, payload, rfl⟩ := hstep
    rw [hpush, ih]

/-- A part that the pushes leave as it is has had the operations done on it. -/
theorem Does.get (h : Does z part opStep s ops x)
    (hpush : ∀ s u cmd payload, part.get (z.routeToUser s u cmd payload) = part.get s) :
    part.get x.1 = run opStep (part.get s) ops :=
  (routed_kept h hpush).trans (part.get_set ..)

/-- What depends on neither the part nor the pushes is as it was. -/
theorem Does.kept {X : Type} {look : S → X} (h : Does z part opStep s ops x)
    (hpart : ∀ s p, look (part.set s p) = look s)
    (hpush : ∀ s u cmd payload, look (z.routeToUser s u cmd payload) = look s) :
    look x.1 = look s :=
  (routed_kept h hpush).trans (hpart ..)

theorem foldl_routed {users : List Bytes} {cmd : Bytes} {payload : PushPayload} :
    Relation.ReflTransGen (Routed z) s
      (users.foldl (fun s u => z.routeToUser s u cmd payload) s) := by
  induction users generalizing s with
  | nil => exact .refl
  | cons u users ih => exact .head ⟨u, cmd, payload, rfl⟩ ih

/-- The pushes to the other side of a chat; the members of a group are only read. -/
theorem pushToChat_routed {m : SystemManager S}
    (hgroup : ∀ group, m.group = some group →
      ∀ s groupId page pageSize, (group.getGroupMembers s groupId page pageSize).1 = s)
    {chatId self cmd : Bytes} {chatType : Int} {payload : PushPayload} :
    Relation.ReflTransGen (Routed z) s (z.pushToChat m s chatId chatType self cmd payload) := by
  unfold ZoneService.pushToChat pushToChat
  split
  · exact .single ⟨_, _, _, rfl⟩
  split
  · exact .refl
  cases hm : m.group with
  | none => exact .refl
  | some group =>
    have hsame := hgroup group hm s chatId 0 10000
    simp only [Option.map_some]
    generalize group.getGroupMembers s chatId 0 10000 = members at hsame ⊢
    obtain ⟨s', result⟩ := members
    obtain rfl : s' = s := hsame
    cases result with
    | error error => exact .refl
    | ok l => exact foldl_routed

end
end SwiftChat.Zone
