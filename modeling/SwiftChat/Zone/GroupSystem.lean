import SwiftChat.Chat.GroupCommand
import SwiftChat.Chat.GroupHandler
import SwiftChat.Zone.ZoneService

/-! The `group.*` commands: the zone's calls down to the group service. -/
namespace SwiftChat.Zone
open Base Chat

section
variable (jwt : Jwt) (db : GroupDb) (random : RandomString 12) (nowMs now : Int)

/-! The ids of the acting user in the requests are not read by the group service. -/
namespace GroupRpcClient

/-- Each call of the client leaves the token of its context empty. -/
def call {α : Type} [Inhabited α] (fallback : Bytes) (rpc : Metadata → GroupDb × RpcResponse α) :
    GroupDb × Except Bytes α :=
  let (db, r) := rpc (createContext [])
  (db, r.result fallback)

def createGroup (req : GroupCreatePayload) : GroupDb × Except Bytes Bytes :=
  call (str "create group failed") fun context =>
    GroupHandler.createGroup jwt context db now req.groupName [] req.memberIds random nowMs

def dismissGroup (req : GroupDismissPayload) : GroupDb × Except Bytes Unit :=
  call (str "dismiss failed") fun context =>
    GroupHandler.dismissGroup jwt context db now req.groupId

def inviteMembers (req : GroupInviteMembersPayload) : GroupDb × Except Bytes Unit :=
  call (str "invite failed") fun context =>
    GroupHandler.inviteMembers jwt context db now req.groupId req.memberIds nowMs

def removeMember (req : GroupRemoveMemberPayload) : GroupDb × Except Bytes Unit :=
  call (str "remove member failed") fun context =>
    GroupHandler.removeMember jwt context db now req.groupId req.memberId

def leaveGroup (req : GroupLeavePayload) : GroupDb × Except Bytes Unit :=
  call (str "leave failed") fun context => GroupHandler.leaveGroup jwt context db now req.groupId

def getGroupInfo (groupId : Bytes) : GroupDb × Except Bytes (Option GroupData) :=
  call (str "get group info failed") fun context =>
    GroupHandler.getGroupInfo jwt context db now groupId

def getGroupMembers (groupId : Bytes) (page pageSize : Int) :
    GroupDb × Except Bytes (List GroupMemberData × Int) :=
  call (str "get members failed") fun context =>
    GroupHandler.getGroupMembers jwt context db now groupId page pageSize

def getUserGroups : GroupDb × Except Bytes (List GroupData) :=
  call (str "get user groups failed") fun context => GroupHandler.getUserGroups jwt context db now

end GroupRpcClient

def groupInfoPayload (g : GroupData) : GroupInfoPayload where
  groupId := g.groupId
  groupName := g.groupName
  avatarUrl := g.avatarUrl
  ownerId := g.ownerId
  memberCount := g.memberCount
  announcement := g.announcement
  createdAt := g.createdAt

def groupMemberPayload (m : GroupMemberData) : GroupMemberPayload where
  userId := m.userId
  role := m.role
  nickname := m.nickname
  joinedAt := m.joinedAt

end

def GroupSystem.getGroupMembers (jwt : Jwt) (now : Int) (db : GroupDb) (groupId : Bytes)
    (page pageSize : Int) : GroupDb × Except Bytes (List GroupMemberPayload × Int) :=
  let (db, result) := GroupRpcClient.getGroupMembers jwt db now groupId page pageSize
  (db, result.map fun l => (l.1.map groupMemberPayload, l.2))

def groupCalls (jwt : Jwt) (random : RandomString 12) (nowMs now : Int) : GroupCalls GroupDb where
  createGroup db req :=
    let (db, result) := GroupRpcClient.createGroup jwt db random nowMs now req
    (db, match result with
      | .error _ => []
      | .ok groupId => groupId)
  dismissGroup db req := succeeded (GroupRpcClient.dismissGroup jwt db now req)
  inviteMembers db req := succeeded (GroupRpcClient.inviteMembers jwt db nowMs now req)
  removeMember db req := succeeded (GroupRpcClient.removeMember jwt db now req)
  leaveGroup db req := succeeded (GroupRpcClient.leaveGroup jwt db now req)
  getGroupInfo db groupId :=
    let (db, result) := GroupRpcClient.getGroupInfo jwt db now groupId
    (db, result.map fun g => (g.map groupInfoPayload).getD {})
  getGroupMembers := GroupSystem.getGroupMembers jwt now
  getUserGroups db _ :=
    let (db, result) := GroupRpcClient.getUserGroups jwt db now
    (db, result.map fun gs => gs.map groupInfoPayload)

def handleGroup (jwt : Jwt) (db : GroupDb) (random : RandomString 12) (nowMs now : Int)
    (codec : GroupCodec) (r : ClientRequest) : GroupDb × HandleClientRequestResult :=
  (groupCalls jwt random nowMs now).handle codec db r

/-- The group operation a request asks for. -/
def groupCommand (codec : GroupCodec) (r : ClientRequest) : Option GroupCommand :=
  if r.cmd = str "group.create" then
    (codec.parseCreate r.payload).map fun req => .create req.groupName req.memberIds
  else if r.cmd = str "group.dismiss" then
    (codec.parseDismiss r.payload).map fun req => .dismiss req.groupId
  else if r.cmd = str "group.invite_members" then
    (codec.parseInviteMembers r.payload).map fun req => .inviteMembers req.groupId req.memberIds
  else if r.cmd = str "group.remove_member" then
    (codec.parseRemoveMember r.payload).map fun req => .removeMember req.groupId req.memberId
  else if r.cmd = str "group.leave" then
    (codec.parseLeave r.payload).map fun req => .leave req.groupId
  else if r.cmd = str "group.get_info" then
    (codec.parseGetInfo r.payload).map fun groupId => .getInfo groupId
  else if r.cmd = str "group.get_members" then
    (codec.parseGetMembers r.payload).map fun req =>
      .getMembers req.groupId (if req.page > 0 then req.page else 1)
        (if req.pageSize > 0 ∧ req.pageSize ≤ 100 then req.pageSize else 20)
  else if r.cmd = str "group.get_user_groups" then
    (codec.parseGetUserGroups r.payload).map fun _ => .getUserGroups
  else none

/-- An answer with an error code and no change of the groups. -/
def Refuses (db : GroupDb) (x : GroupDb × HandleClientRequestResult) : Prop :=
  x.1 = db ∧ x.2.code ≠ 0

/-- A call that ends in an error and leaves the groups alone. -/
def Fails {α : Type} (db : GroupDb) (x : GroupDb × Except Bytes α) : Prop :=
  x.1 = db ∧ ∃ error, x.2 = .error error

section
variable {jwt : Jwt} {db : GroupDb} {random : RandomString 12} {nowMs now : Int}
  {requestId : Bytes}

theorem Refuses.of_code {x : GroupDb × HandleClientRequestResult} (ec : ErrorCode) (hec : ec ≠ .ok)
    (hdb : x.1 = db) (hcode : x.2.code = errorCodeToInt ec) : Refuses db x :=
  ⟨hdb, fun h => hec (errorCodeToInt_eq_zero.mp (hcode.symm.trans h))⟩

theorem Refuses.ite {p : Prop} [Decidable p] {x y : GroupDb × HandleClientRequestResult}
    (hx : Refuses db x) (hy : Refuses db y) : Refuses db (if p then x else y) := by
  split
  · exact hx
  · exact hy

theorem Refuses.parsed {α : Type} {parse : Bytes → Option α} {r : ClientRequest}
    {handle : α → GroupDb × HandleClientRequestResult} (h : ∀ req, Refuses db (handle req)) :
    Refuses db (parsed parse db r handle) := by
  unfold Zone.parsed
  cases parse r.payload with
  | none => exact .of_code .invalidParam (by decide) rfl rfl
  | some req => exact h req

/-- The group service refuses every call of the client: their contexts have no token. -/
theorem call_fails {α : Type} [Inhabited α] {fallback : Bytes} {refusal : RpcResponse α}
    {rpc : Metadata → GroupDb × RpcResponse α} (hrpc : rpc (createContext []) = (db, refusal))
    (hcode : refusal.code ≠ 0) : Fails db (GroupRpcClient.call fallback rpc) := by
  simp only [GroupRpcClient.call, hrpc]
  exact ⟨rfl, _, if_pos hcode⟩

theorem Fails.code {x : GroupDb × Except Bytes Unit} {ec : ErrorCode} (hx : Fails db x)
    (hec : ec ≠ .ok) : Refuses db (codeAnswer requestId ec (succeeded x)) := by
  obtain ⟨hdb, error, he⟩ := hx
  refine .of_code ec hec hdb ?_
  simp only [codeAnswer, succeeded, he]
  rfl

theorem Fails.stated {x : GroupDb × Except Bytes Unit} {ec : ErrorCode} (hx : Fails db x)
    (hec : ec ≠ .ok) : Refuses db (statedAnswer requestId ec (succeeded x)) := by
  obtain ⟨hdb, error, he⟩ := hx
  refine .of_code ec hec hdb ?_
  simp only [statedAnswer, succeeded, he]
  rfl

theorem Fails.read {α β : Type} {x : GroupDb × Except Bytes α} {f : α → β} {fallback : Bytes}
    {payload : β → ResponsePayload} (hx : Fails db x) :
    Refuses db (readAnswer requestId fallback payload (x.1, x.2.map f)) := by
  obtain ⟨hdb, error, he⟩ := hx
  rw [he]
  exact .of_code .internalError (by decide) hdb rfl

/-- The members of a group are asked for without a token, so nobody is found. -/
theorem getGroupMembers_refused (jwt : Jwt) (now : Int) (db : GroupDb) (groupId : Bytes)
    (page pageSize : Int) :
    ∃ error, GroupSystem.getGroupMembers jwt now db groupId page pageSize = (db, .error error) := by
  obtain ⟨hdb, error, he⟩ : Fails db
      (GroupRpcClient.getGroupMembers jwt db now groupId page pageSize) :=
    call_fails (GroupHandler.withUser_without_token ..) (by decide)
  refine ⟨error, ?_⟩
  simp only [GroupSystem.getGroupMembers, hdb, he]
  rfl

/-- No request has an effect, and none is answered with success: the group service sees no
token. -/
theorem handleGroup_refuses (codec : GroupCodec) (r : ClientRequest) :
    Refuses db (handleGroup jwt db random nowMs now codec r) := by
  unfold handleGroup GroupCalls.handle
  refine .ite ?create (.ite ?dismiss (.ite ?invite (.ite ?remove (.ite ?leave (.ite ?info
    (.ite ?members (.ite ?groups ?other)))))))
  case create =>
    refine .parsed fun req => ?_
    have hfails : Fails db (GroupRpcClient.createGroup jwt db random nowMs now req) :=
      call_fails (GroupHandler.withUser_without_token ..) (by decide)
    obtain ⟨hdb, error, he⟩ := hfails
    refine .of_code .internalError (by decide) hdb ?_
    simp only [groupCalls, he, if_true]
  case dismiss =>
    exact .parsed fun req =>
      (call_fails (GroupHandler.commonCall_without_token ..) (by decide)).stated (by decide)
  case invite =>
    exact .parsed fun req =>
      (call_fails (GroupHandler.commonCall_without_token ..) (by decide)).code (by decide)
  case remove =>
    exact .parsed fun req =>
      (call_fails (GroupHandler.commonCall_without_token ..) (by decide)).code (by decide)
  case leave =>
    exact .parsed fun req =>
      (call_fails (GroupHandler.commonCall_without_token ..) (by decide)).code (by decide)
  case info =>
    refine .parsed fun groupId => ?_
    have hfails : Fails db (GroupRpcClient.getGroupInfo jwt db now groupId) :=
      call_fails (GroupHandler.withUser_without_token ..) (by decide)
    exact hfails.read
  case members =>
    refine .parsed fun req => ?_
    have hfails : Fails db (GroupRpcClient.getGroupMembers jwt db now req.groupId
        (if req.page > 0 then req.page else 1)
        (if req.pageSize > 0 ∧ req.pageSize ≤ 100 then req.pageSize else 20)) :=
      call_fails (GroupHandler.withUser_without_token ..) (by decide)
    exact hfails.read
  case groups =>
    refine .parsed fun _ => .ite ?_ ?_
    · exact .of_code .sessionInvalid (by decide) rfl rfl
    · have hfails : Fails db (GroupRpcClient.getUserGroups jwt db now) :=
        call_fails (GroupHandler.withUser_without_token ..) (by decide)
      exact hfails.read
  case other => exact .of_code .unsupported (by decide) rfl rfl

end
end SwiftChat.Zone
