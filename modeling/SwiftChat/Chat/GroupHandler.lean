import SwiftChat.Chat.GroupService
import SwiftChat.Grpc

/-! The remote calls of the group service. -/
namespace SwiftChat.Chat
open Base

/-- The answer of a call that has no data of its own. -/
def commonResponse (code : ErrorCode) : RpcResponse Unit :=
  if code = .ok then .ok [] () else .error code

namespace GroupHandler
section
variable (jwt : Jwt) (metadata : Metadata) (db : GroupDb) (now : Int)

/-- Every call acts for the user of its token, and is refused without one. `now` is in seconds. -/
def withUser {α : Type} (refusal : RpcResponse α) (act : Bytes → GroupDb × RpcResponse α) :
    GroupDb × RpcResponse α :=
  let uid := getAuthenticatedUserId jwt metadata now
  if uid = [] then (db, refusal) else act uid

/-- A call that only answers with a code. -/
def commonCall (act : Bytes → GroupDb × ErrorCode) : GroupDb × RpcResponse Unit :=
  withUser jwt metadata db now (.error .tokenInvalid) fun uid =>
    let (db, code) := act uid
    (db, commonResponse code)

def createGroup (groupName avatarUrl : Bytes) (memberIds : List Bytes) (r : RandomString 12)
    (nowMs : Int) : GroupDb × RpcResponse Bytes :=
  withUser jwt metadata db now .tokenMissing fun uid =>
    let (db, result) := GroupService.createGroup db uid groupName avatarUrl memberIds r nowMs
    (db, { code := errorCodeToInt result.errorCode
           message := errorCodeToString result.errorCode
           body := if result.errorCode = .ok then result.groupId else [] })

def dismissGroup (groupId : Bytes) : GroupDb × RpcResponse Unit :=
  commonCall jwt metadata db now fun uid => GroupService.dismissGroup db groupId uid

def inviteMembers (groupId : Bytes) (memberIds : List Bytes) (nowMs : Int) :
    GroupDb × RpcResponse Unit :=
  commonCall jwt metadata db now fun uid =>
    GroupService.inviteMembers db groupId uid memberIds nowMs

def removeMember (groupId memberId : Bytes) : GroupDb × RpcResponse Unit :=
  commonCall jwt metadata db now fun uid => GroupService.removeMember db groupId uid memberId

def leaveGroup (groupId : Bytes) : GroupDb × RpcResponse Unit :=
  commonCall jwt metadata db now fun uid => GroupService.leaveGroup db groupId uid

def getGroupInfo (groupId : Bytes) : GroupDb × RpcResponse (Option GroupData) :=
  withUser jwt metadata db now .tokenMissing fun _ =>
    match GroupService.getGroupInfo db groupId with
    | none => (db, .error .groupNotFound)
    | some g => (db, .ok [] (some g))

def getGroupMembers (groupId : Bytes) (page pageSize : Int) :
    GroupDb × RpcResponse (List GroupMemberData × Int) :=
  withUser jwt metadata db now .tokenMissing fun _ =>
    let page := if page > 0 then page else 1
    let pageSize := if pageSize > 0 then pageSize else 50
    (db, .ok [] (GroupService.getGroupMembers db groupId page pageSize))

def getUserGroups : GroupDb × RpcResponse (List GroupData) :=
  withUser jwt metadata db now .tokenMissing fun uid =>
    (db, .ok [] (GroupService.getUserGroups db uid))

end

/-- A call without a token is refused, whatever it asks for. -/
theorem withUser_without_token {α : Type} (jwt : Jwt) (db : GroupDb) (now : Int)
    (refusal : RpcResponse α) (act : Bytes → GroupDb × RpcResponse α) :
    withUser jwt (createContext []) db now refusal act = (db, refusal) := rfl

theorem commonCall_without_token (jwt : Jwt) (db : GroupDb) (now : Int)
    (act : Bytes → GroupDb × ErrorCode) :
    commonCall jwt (createContext []) db now act = (db, .error .tokenInvalid) :=
  withUser_without_token ..

end GroupHandler
end SwiftChat.Chat
