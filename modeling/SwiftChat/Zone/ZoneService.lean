import SwiftChat.Zone.Systems

/-! The zone's handlers of client requests, over any subsystems. -/
namespace SwiftChat.Zone
open Base

section
variable {S α : Type}

/-- A request whose payload does not parse is refused. -/
def parsed (parse : Bytes → Option α) (s : S) (r : ClientRequest)
    (handle : α → S × HandleClientRequestResult) : S × HandleClientRequestResult :=
  match parse r.payload with
  | none => (s, resultError .invalidParam r.requestId)
  | some req => handle req

/-- So is one of a connection without a user. -/
def ofSession (s : S) (r : ClientRequest) (x : S × HandleClientRequestResult) :
    S × HandleClientRequestResult :=
  if r.userId = [] then (s, resultError .sessionInvalid r.requestId) else x

/-- The answer to a call that only reports whether it worked: a code and no text. -/
def codeAnswer (requestId : Bytes) (ec : ErrorCode) (x : S × Bool) :
    S × HandleClientRequestResult :=
  (x.1, { code := if x.2 then errorCodeToInt .ok else errorCodeToInt ec, requestId := requestId })

/-- The answer to such a call with the text of the code. -/
def statedAnswer (requestId : Bytes) (ec : ErrorCode) (x : S × Bool) :
    S × HandleClientRequestResult :=
  (x.1, if x.2 then { code := errorCodeToInt .ok, requestId := requestId }
    else resultError ec requestId)

/-- The answer to a call that reports an error text, with the text for an empty one. -/
def textAnswer (requestId : Bytes) (ec : ErrorCode) (fallback : Bytes)
    (x : S × Except Bytes Unit) : S × HandleClientRequestResult :=
  match x.2 with
  | .error error =>
    (x.1, { code := errorCodeToInt ec
            message := if error = [] then fallback else error
            requestId := requestId })
  | .ok _ => (x.1, { code := errorCodeToInt .ok, requestId := requestId })

/-- The answer to a call that reads. -/
def readAnswer (requestId fallback : Bytes) (payload : α → ResponsePayload)
    (x : S × Except Bytes α) : S × HandleClientRequestResult :=
  match x.2 with
  | .error error =>
    (x.1, { code := errorCodeToInt .internalError
            message := if error = [] then fallback else error
            requestId := requestId })
  | .ok body =>
    (x.1, { code := errorCodeToInt .ok, payload := some (payload body), requestId := requestId })

/-- The answer to a call whose error text goes into the payload, and from there only the text for
an empty one does not go into the message. -/
def changeAnswer (requestId fallback : Bytes) (payload : Bool → Bytes → ResponsePayload)
    (x : S × Except Bytes Unit) : S × HandleClientRequestResult :=
  match x.2 with
  | .error error =>
    (x.1, { code := errorCodeToInt .internalError
            message := error
            payload := some (payload false (if error = [] then fallback else error))
            requestId := requestId })
  | .ok _ =>
    (x.1, { code := errorCodeToInt .ok, payload := some (payload true []), requestId := requestId })

end

/-- The answer to a call of the account or the session service. -/
def authResult (success : Bool) (error requestId : Bytes) (payload : Option ResponsePayload) :
    HandleClientRequestResult where
  code := if success then errorCodeToInt .ok else errorCodeToInt .authFailed
  message := if error ≠ [] then error else if success then [] else errorCodeToString .authFailed
  payload := payload
  requestId := requestId

/-- The answer to a message that is sent; an error keeps its text. -/
def sendAnswer (result : SendMessageResult) (requestId : Bytes) : HandleClientRequestResult where
  code := if result.success then errorCodeToInt .ok else errorCodeToInt .msgSendFailed
  message :=
    if result.error ≠ [] then result.error
    else if result.success then [] else errorCodeToString .msgSendFailed
  payload := some
    (.chatSendMessage result.success result.msgId result.timestamp result.error)
  requestId := requestId

/-- The message that is pushed is made from the request. -/
def pushPayload (req : ChatSendMessagePayload) (result : SendMessageResult) :
    ChatMessagePushPayload where
  msgId := result.msgId
  fromUserId := req.fromUserId
  toId := req.toId
  chatType := req.chatType
  content := req.content
  mediaUrl := req.mediaUrl
  mediaType := req.mediaType
  timestamp := result.timestamp
  mentions := req.mentions
  replyToMsgId := req.replyToMsgId

/-- One entry of a page of the offline queue. -/
def offlinePayload (m : OfflineMessage) : ChatMessagePushPayload where
  msgId := m.msgId
  fromUserId := m.fromUserId
  toId := m.toId
  chatType := m.chatType
  content := m.content
  mediaUrl := m.mediaUrl
  mediaType := m.mediaType
  timestamp := m.timestamp

/-- One entry of a page of the history: the status is left behind. -/
def historyPayload (m : ChatMessageResult) : ChatMessagePushPayload where
  msgId := m.msgId
  fromUserId := m.fromUserId
  toId := m.toId
  chatType := m.chatType
  content := m.content
  mediaUrl := m.mediaUrl
  mediaType := m.mediaType
  timestamp := m.timestamp

def conversationPayload (c : ConversationResult) : ChatConversationPayload where
  chatId := c.chatId
  chatType := c.chatType
  peerId := c.peerId
  peerName := c.peerName
  peerAvatar := c.peerAvatar
  unreadCount := c.unreadCount
  updatedAt := c.updatedAt
  lastMsgId := c.lastMsgId
  lastContent := c.lastContent
  lastTimestamp := c.lastTimestamp

def offlineLimit (limit : Int) : Int :=
  if limit > 0 ∧ limit < 200 then limit else if limit ≥ 200 then 200 else 100

def historyLimit (limit : Int) : Int := if limit > 0 ∧ limit ≤ 100 then limit else 50

/-- A push to the other side of a private chat, or to the other members of a group, for whom
`members` asks. -/
def pushToChat {S : Type}
    (members : Option (S → (groupId : Bytes) → (page pageSize : Int) →
      S × Except Bytes (List GroupMemberPayload × Int)))
    (routeToUser : S → (userId cmd : Bytes) → PushPayload → S) (s : S) (chatId : Bytes)
    (chatType : Int) (self cmd : Bytes) (payload : PushPayload) : S :=
  if chatType = ChatType.priv.toInt then routeToUser s chatId cmd payload
  else if chatType ≠ ChatType.group.toInt then s
  else
    match members with
    | none => s
    | some members =>
      match members s chatId 0 10000 with
      | (s, .error _) => s
      | (s, .ok (members, _)) =>
        ((members.map GroupMemberPayload.userId).filter (· ≠ self)).foldl
          (fun s u => routeToUser s u cmd payload) s

/-! The handlers of requests over one subsystem. -/

section
variable {S : Type}

/-- `HandleAuth`. The user and the token of the connection are not looked at. -/
def AuthCalls.handle (auth : AuthCalls S) (codec : AuthCodec) (s : S) (r : ClientRequest) :
    S × HandleClientRequestResult :=
  if r.cmd = str "auth.register" then
    parsed codec.parseRegister s r fun req =>
      let (s, reg) := auth.register s req
      (s, { code :=
              if reg.success then errorCodeToInt .ok
              else if reg.errorCode > 0 then reg.errorCode
              else errorCodeToInt .authFailed
            message := if reg.success then [] else reg.error
            payload := some (.register reg.success reg.userId reg.error)
            requestId := r.requestId })
  else if r.cmd = str "auth.login" then
    parsed codec.parseLogin s r fun req =>
      let (s, login) := auth.login s req
      (s, authResult login.success login.error r.requestId
        (some (.login login.success login.userId login.token login.expireAt login.error)))
  else if r.cmd = str "auth.logout" then
    parsed codec.parseLogout s r fun req =>
      let (s, logout) := auth.logout s req.userId req.token
      (s, authResult logout.success logout.error r.requestId none)
  else if r.cmd = str "auth.validate_token" then
    parsed codec.parseValidateToken s r fun token =>
      let (s, uid) := auth.validateToken s token
      (s, { code := errorCodeToInt .ok
            payload := some (.validateToken uid)
            requestId := r.requestId })
  else (s, notImplemented r.requestId)

/-- `HandleChat` for `chat.send_message`. -/
def ChatCalls.handleSendMessage (chat : ChatCalls S)
    (parse : Bytes → Option ChatSendMessagePayload)
    (push : S → (chatId : Bytes) → (chatType : Int) → (self cmd : Bytes) → PushPayload → S) (s : S)
    (r : ClientRequest) : S × HandleClientRequestResult :=
  parsed parse s r fun req =>
    let (s, result) := chat.sendMessage s req r.token
    let answer := sendAnswer result r.requestId
    if ¬ result.success ∨ result.msgId = [] then (s, answer)
    else
      (push s req.toId req.chatType req.fromUserId (str "chat.message")
        (.chatMessage (pushPayload req result)), answer)

/-- `HandleGroup`. The token of the connection is not passed on. -/
def GroupCalls.handle (group : GroupCalls S) (codec : GroupCodec) (s : S) (r : ClientRequest) :
    S × HandleClientRequestResult :=
  if r.cmd = str "group.create" then
    parsed codec.parseCreate s r fun req =>
      let (s, groupId) := group.createGroup s req
      let failed := groupId = []
      let error := if failed then errorCodeToString .internalError else []
      (s, { code := if failed then errorCodeToInt .internalError else errorCodeToInt .ok
            message := error
            payload := some (.groupCreate (¬ failed) groupId error)
            requestId := r.requestId })
  else if r.cmd = str "group.dismiss" then
    parsed codec.parseDismiss s r fun req =>
      statedAnswer r.requestId .notGroupOwner (group.dismissGroup s req)
  else if r.cmd = str "group.invite_members" then
    parsed codec.parseInviteMembers s r fun req =>
      codeAnswer r.requestId .unknown (group.inviteMembers s req)
  else if r.cmd = str "group.remove_member" then
    parsed codec.parseRemoveMember s r fun req =>
      codeAnswer r.requestId .unknown (group.removeMember s req)
  else if r.cmd = str "group.leave" then
    parsed codec.parseLeave s r fun req =>
      codeAnswer r.requestId .unknown (group.leaveGroup s req)
  else if r.cmd = str "group.get_info" then
    parsed codec.parseGetInfo s r fun groupId =>
      readAnswer r.requestId (str "get group info failed") .groupInfo
        (group.getGroupInfo s groupId)
  else if r.cmd = str "group.get_members" then
    parsed codec.parseGetMembers s r fun req =>
      let page := if req.page > 0 then req.page else 1
      let pageSize := if req.pageSize > 0 ∧ req.pageSize ≤ 100 then req.pageSize else 20
      readAnswer r.requestId (str "get members failed") (fun l => .groupMembers l.1 l.2)
        (group.getGroupMembers s req.groupId page pageSize)
  else if r.cmd = str "group.get_user_groups" then
    parsed codec.parseGetUserGroups s r fun _ => ofSession s r <|
      readAnswer r.requestId (str "get user groups failed") .userGroups
        (group.getUserGroups s r.userId)
  else (s, notImplemented r.requestId)

/-- `HandleFile`. The token is not passed on here either, and the user is the one the payload names. -/
def FileCalls.handle (file : FileCalls S) (codec : FileCodec) (s : S) (r : ClientRequest) :
    S × HandleClientRequestResult :=
  if r.cmd = str "file.get_upload_token" then
    parsed codec.parseGetUploadToken s r fun req =>
      let (s, tok) := file.getUploadToken s req
      let failed := tok.uploadToken = []
      (s, { code := if failed then errorCodeToInt .uploadFailed else errorCodeToInt .ok
            message := if failed then errorCodeToString .uploadFailed else []
            payload := some (.uploadToken (¬ failed) tok.uploadToken tok.uploadUrl tok.expireAt)
            requestId := r.requestId })
  else if r.cmd = str "file.init_upload" then
    parsed codec.parseInitUpload s r fun req =>
      match file.initUpload s req with
      | (s, .error error) =>
        (s, { code := errorCodeToInt .uploadFailed
              message := error
              payload := some (.initUpload false [] 0 error)
              requestId := r.requestId })
      | (s, .ok (uploadId, expireAt)) =>
        (s, { code := errorCodeToInt .ok
              payload := some (.initUpload true uploadId expireAt [])
              requestId := r.requestId })
  else if r.cmd = str "file.get_file_info" then
    parsed codec.parseGetFileInfo s r fun fileId =>
      match file.getFileInfo s fileId with
      | (s, .error error) =>
        (s, { code := errorCodeToInt .fileNotFound
              message := error
              payload := some (.fileInfo { error := error })
              requestId := r.requestId })
      | (s, .ok data) =>
        (s, { code := errorCodeToInt .ok
              payload := some (.fileInfo
                { success := true
                  fileId := data.fileId
                  fileName := data.fileName
                  fileSize := data.fileSize
                  contentType := data.contentType
                  uploaderId := data.uploaderId
                  uploadedAt := data.uploadedAt
                  md5 := data.md5 })
              requestId := r.requestId })
  else if r.cmd = str "file.get_file_url" then
    parsed codec.parseGetFileUrl s r fun req =>
      let (s, url) := file.getFileUrl s req
      let failed := url.fileUrl = []
      (s, { code := if failed then errorCodeToInt .fileNotFound else errorCodeToInt .ok
            message := if failed then errorCodeToString .fileNotFound else []
            payload := some (.fileUrl
              { success := ¬ failed
                fileUrl := url.fileUrl
                fileName := url.fileName
                fileSize := url.fileSize
                contentType := url.contentType
                expireAt := url.expireAt })
            requestId := r.requestId })
  else if r.cmd = str "file.delete" then
    parsed codec.parseDelete s r fun req =>
      statedAnswer r.requestId .fileNotFound (file.deleteFile s req)
  else (s, notImplemented r.requestId)

end

/-- `routeToUser` pushes to the gate of a user who is online; what it returns is not looked at. -/
structure ZoneService (S : Type) where
  manager : Option (SystemManager S)
  codecs : ZoneCodecs
  routeToUser : S → (userId cmd : Bytes) → PushPayload → S

namespace ZoneService
variable {S : Type} (z : ZoneService S) (m : SystemManager S) (s : S)

def pushToChat (chatId : Bytes) (chatType : Int) (self cmd : Bytes) (payload : PushPayload) : S :=
  Zone.pushToChat (m.group.map GroupCalls.getGroupMembers) z.routeToUser s chatId chatType self cmd
    payload

variable (r : ClientRequest)

def handleAuth : S × HandleClientRequestResult :=
  match m.auth with
  | none => (s, resultError .serviceUnavailable r.requestId)
  | some auth => auth.handle z.codecs.auth s r

def handleChat : S × HandleClientRequestResult :=
  match m.chat with
  | none => (s, resultError .serviceUnavailable r.requestId)
  | some chat =>
    if r.cmd = str "chat.send_message" then
      chat.handleSendMessage z.codecs.chat.parseSendMessage (z.pushToChat m) s r
    else if r.cmd = str "chat.mark_read" then
      parsed z.codecs.chat.parseMarkRead s r fun req =>
        let (s, result) := chat.markRead s r.userId req r.token
        let (s, answer) :=
          textAnswer r.requestId .invalidParam (str "mark read failed") (s, result)
        if result.isOk = false ∨ req.lastMsgId = [] then (s, answer)
        else
          (z.pushToChat m s req.chatId req.chatType r.userId (str "chat.read_receipt")
            (.readReceipt req.chatId r.userId req.lastMsgId), answer)
    else if r.cmd = str "chat.pull_offline" then
      parsed z.codecs.chat.parsePullOffline s r fun req => ofSession s r <|
        readAnswer r.requestId (str "pull offline failed")
          (fun page =>
            .chatPullOffline (page.messages.map offlinePayload) page.nextCursor page.hasMore)
          (chat.pullOffline s r.userId (offlineLimit req.limit) req.cursor r.token)
    else if r.cmd = str "chat.recall_message" then
      parsed z.codecs.chat.parseRecallMessage s r fun req =>
        textAnswer r.requestId .recallNotAllowed (errorCodeToString .recallNotAllowed)
          (chat.recallMessage s req r.token)
    else if r.cmd = str "chat.get_history" then
      parsed z.codecs.chat.parseGetHistory s r fun req => ofSession s r <|
        readAnswer r.requestId (str "get history failed")
          (fun page => .chatGetHistory (page.messages.map historyPayload) page.hasMore)
          (chat.getHistory s r.userId { req with limit := historyLimit req.limit } r.token)
    else if r.cmd = str "chat.sync_conversations" then
      parsed z.codecs.chat.parseSyncConversations s r fun lastSync => ofSession s r <|
        readAnswer r.requestId (str "sync conversations failed")
          (fun l => .chatSyncConversations (l.map conversationPayload))
          (chat.syncConversations s r.userId lastSync r.token)
    else if r.cmd = str "chat.delete_conversation" then
      parsed z.codecs.chat.parseDeleteConversation s r fun req => ofSession s r <|
        textAnswer r.requestId .invalidParam []
          (chat.deleteConversation s r.userId req r.token)
    else (s, notImplemented r.requestId)

def handleFriend : S × HandleClientRequestResult :=
  match m.friends with
  | none => (s, resultError .serviceUnavailable r.requestId)
  | some friends =>
    if r.cmd = str "friend.add" then
      parsed z.codecs.friends.parseAdd s r fun req =>
        codeAnswer r.requestId .unknown (friends.addFriend s req r.token)
    else if r.cmd = str "friend.handle_request" then
      parsed z.codecs.friends.parseHandleRequest s r fun req =>
        codeAnswer r.requestId .unknown (friends.handleFriendRequest s req r.token)
    else if r.cmd = str "friend.remove" then
      parsed z.codecs.friends.parseRemove s r fun req =>
        codeAnswer r.requestId .unknown (friends.removeFriend s req r.token)
    else if r.cmd = str "friend.block" then
      parsed z.codecs.friends.parseBlock s r fun req =>
        codeAnswer r.requestId .unknown (friends.blockUser s req r.token)
    else if r.cmd = str "friend.unblock" then
      parsed z.codecs.friends.parseBlock s r fun req =>
        codeAnswer r.requestId .unknown (friends.unblockUser s req r.token)
    else if r.cmd = str "friend.get_friends" then
      parsed z.codecs.friends.parseGetFriends s r fun groupId => ofSession s r <|
        readAnswer r.requestId (str "get friends failed") .friendGetFriends
          (friends.getFriends s r.userId groupId r.token)
    else if r.cmd = str "friend.get_requests" ∨ r.cmd = str "friend.get_friend_requests" then
      parsed z.codecs.friends.parseGetRequests s r fun kind => ofSession s r <|
        readAnswer r.requestId (str "get friend requests failed") .friendGetRequests
          (friends.getFriendRequests s r.userId kind r.token)
    else if r.cmd = str "friend.search" then
      parsed z.codecs.friends.parseSearch s r fun req => ofSession s r <|
        match m.auth with
        | none => (s, resultError .serviceUnavailable r.requestId)
        | some auth =>
          -- the user who searches is not among the answers
          readAnswer r.requestId (str "search users failed")
            (fun users => .friendSearch (users.filter (·.userId ≠ r.userId)))
            (auth.searchUsers s req.keyword (if req.limit > 0 then req.limit else 20) r.token)
    else if r.cmd = str "friend.get_block_list" then
      parsed z.codecs.friends.parseGetBlockList s r fun _ => ofSession s r <|
        readAnswer r.requestId (str "get block list failed") (.friendGetBlockList true)
          (friends.getBlockList s r.userId r.token)
    else if r.cmd = str "friend.create_group" then
      parsed z.codecs.friends.parseCreateGroup s r fun groupName => ofSession s r <|
        changeAnswer r.requestId (str "create group failed") .friendCreateGroup
          (friends.createFriendGroup s r.userId groupName r.token)
    else if r.cmd = str "friend.get_groups" then
      parsed z.codecs.friends.parseGetGroups s r fun _ => ofSession s r <|
        readAnswer r.requestId (str "get groups failed") (.friendGetGroups true)
          (friends.getFriendGroups s r.userId r.token)
    else if r.cmd = str "friend.move_to_group" then
      parsed z.codecs.friends.parseMoveToGroup s r fun req => ofSession s r <|
        changeAnswer r.requestId (str "move to group failed") .friendMoveToGroup
          (friends.moveFriendToGroup s r.userId req r.token)
    else if r.cmd = str "friend.delete_group" then
      parsed z.codecs.friends.parseDeleteGroup s r fun groupId => ofSession s r <|
        changeAnswer r.requestId (str "delete group failed") .friendDeleteGroup
          (friends.deleteFriendGroup s r.userId groupId r.token)
    else if r.cmd = str "friend.set_remark" then
      parsed z.codecs.friends.parseSetRemark s r fun req => ofSession s r <|
        changeAnswer r.requestId (str "set remark failed") .friendSetRemark
          (friends.setRemark s r.userId req r.token)
    else (s, notImplemented r.requestId)

def handleGroup : S × HandleClientRequestResult :=
  match m.group with
  | none => (s, resultError .serviceUnavailable r.requestId)
  | some group => group.handle z.codecs.group s r

def handleFile : S × HandleClientRequestResult :=
  match m.file with
  | none => (s, resultError .serviceUnavailable r.requestId)
  | some file => file.handle z.codecs.file s r

/-- The handlers by the first word of the command. -/
def prefixHandlers : PrefixHandlers S where
  auth := z.handleAuth m
  chat := z.handleChat m
  friend := z.handleFriend m
  group := z.handleGroup m
  file := z.handleFile m

def handleClientRequest : S × HandleClientRequestResult :=
  match z.manager with
  | none => (s, resultError .internalError r.requestId)
  | some m => Zone.handleClientRequest (z.prefixHandlers m) s r

end ZoneService

/-- The answer carries the id of the request. -/
def Echoes {S : Type} (r : ClientRequest) (x : S × HandleClientRequestResult) : Prop :=
  x.2.requestId = r.requestId

section
variable {S α : Type} {s : S} {r : ClientRequest} {x y : S × HandleClientRequestResult}
  {ec : ErrorCode}

theorem Echoes.ite {c : Prop} [Decidable c] (hx : Echoes r x) (hy : Echoes r y) :
    Echoes r (if c then x else y) := by
  split
  · exact hx
  · exact hy

theorem resultError_echoes : Echoes r (s, resultError ec r.requestId) := rfl

theorem parsed_echoes {parse : Bytes → Option α} {handle : α → S × HandleClientRequestResult}
    (h : ∀ req, Echoes r (handle req)) : Echoes r (parsed parse s r handle) := by
  unfold parsed
  cases parse r.payload with
  | none => exact resultError_echoes
  | some req => exact h req

theorem ofSession_echoes (h : Echoes r x) : Echoes r (ofSession s r x) :=
  .ite resultError_echoes h

theorem codeAnswer_echoes {x : S × Bool} : Echoes r (codeAnswer r.requestId ec x) := rfl

theorem statedAnswer_echoes {x : S × Bool} : Echoes r (statedAnswer r.requestId ec x) := by
  unfold statedAnswer Echoes
  cases x.2 <;> rfl

theorem textAnswer_echoes {fallback : Bytes} {x : S × Except Bytes Unit} :
    Echoes r (textAnswer r.requestId ec fallback x) := by
  unfold textAnswer Echoes
  cases x.2 <;> rfl

theorem readAnswer_echoes {fallback : Bytes} {payload : α → ResponsePayload}
    {x : S × Except Bytes α} : Echoes r (readAnswer r.requestId fallback payload x) := by
  unfold readAnswer Echoes
  cases x.2 <;> rfl

theorem changeAnswer_echoes {fallback : Bytes} {payload : Bool → Bytes → ResponsePayload}
    {x : S × Except Bytes Unit} : Echoes r (changeAnswer r.requestId fallback payload x) := by
  unfold changeAnswer Echoes
  cases x.2 <;> rfl

end

namespace ZoneService
variable {S : Type} {z : ZoneService S} {m : SystemManager S} {s : S} {r : ClientRequest}

theorem handleAuth_echoes : Echoes r (z.handleAuth m s r) := by
  unfold handleAuth
  cases m.auth with
  | none => exact resultError_echoes
  | some auth =>
    unfold AuthCalls.handle
    apply Echoes.ite
    · exact parsed_echoes fun _ => rfl
    apply Echoes.ite
    · exact parsed_echoes fun _ => rfl
    apply Echoes.ite
    · exact parsed_echoes fun _ => rfl
    apply Echoes.ite
    · exact parsed_echoes fun _ => rfl
    · exact resultError_echoes

theorem handleChat_echoes : Echoes r (z.handleChat m s r) := by
  unfold handleChat
  cases m.chat with
  | none => exact resultError_echoes
  | some chat =>
    apply Echoes.ite
    · -- the pushes leave the answer as it is
      exact parsed_echoes fun _ => .ite rfl rfl
    apply Echoes.ite
    · exact parsed_echoes fun _ => .ite textAnswer_echoes textAnswer_echoes
    apply Echoes.ite
    · exact parsed_echoes fun _ => ofSession_echoes readAnswer_echoes
    apply Echoes.ite
    · exact parsed_echoes fun _ => textAnswer_echoes
    apply Echoes.ite
    · exact parsed_echoes fun _ => ofSession_echoes readAnswer_echoes
    apply Echoes.ite
    · exact parsed_echoes fun _ => ofSession_echoes readAnswer_echoes
    apply Echoes.ite
    · exact parsed_echoes fun _ => ofSession_echoes textAnswer_echoes
    · exact resultError_echoes

theorem search_echoes {req : FriendSearchPayload} :
    Echoes r (match m.auth with
      | none => (s, resultError .serviceUnavailable r.requestId)
      | some auth =>
        readAnswer r.requestId (str "search users failed")
          (fun users => .friendSearch (users.filter (·.userId ≠ r.userId)))
          (auth.searchUsers s req.keyword (if req.limit > 0 then req.limit else 20) r.token)) := by
  cases m.auth with
  | none => exact resultError_echoes
  | some auth => exact readAnswer_echoes

theorem handleFriend_echoes : Echoes r (z.handleFriend m s r) := by
  unfold handleFriend
  cases m.friends with
  | none => exact resultError_echoes
  | some friends =>
    -- five requests that are answered by a code
    iterate 5
      apply Echoes.ite
      · exact parsed_echoes fun _ => codeAnswer_echoes
    iterate 2
      apply Echoes.ite
      · exact parsed_echoes fun _ => ofSession_echoes readAnswer_echoes
    apply Echoes.ite
    · exact parsed_echoes fun _ => ofSession_echoes search_echoes
    apply Echoes.ite
    · exact parsed_echoes fun _ => ofSession_echoes readAnswer_echoes
    apply Echoes.ite
    · exact parsed_echoes fun _ => ofSession_echoes changeAnswer_echoes
    apply Echoes.ite
    · exact parsed_echoes fun _ => ofSession_echoes readAnswer_echoes
    iterate 3
      apply Echoes.ite
      · exact parsed_echoes fun _ => ofSession_echoes changeAnswer_echoes
    · exact resultError_echoes

theorem handleGroup_echoes : Echoes r (z.handleGroup m s r) := by
  unfold handleGroup
  cases m.group with
  | none => exact resultError_echoes
  | some group =>
    unfold GroupCalls.handle
    apply Echoes.ite
    · exact parsed_echoes fun _ => rfl
    apply Echoes.ite
    · exact parsed_echoes fun _ => statedAnswer_echoes
    iterate 3
      apply Echoes.ite
      · exact parsed_echoes fun _ => codeAnswer_echoes
    iterate 2
      apply Echoes.ite
      · exact parsed_echoes fun _ => readAnswer_echoes
    apply Echoes.ite
    · exact parsed_echoes fun _ => ofSession_echoes readAnswer_echoes
    · exact resultError_echoes

theorem handleFile_echoes : Echoes r (z.handleFile m s r) := by
  unfold handleFile
  cases m.file with
  | none => exact resultError_echoes
  | some file =>
    unfold FileCalls.handle
    apply Echoes.ite
    · exact parsed_echoes fun _ => rfl
    apply Echoes.ite
    · refine parsed_echoes fun req => ?_
      cases file.initUpload s req with
      | mk s' result => cases result <;> rfl
    apply Echoes.ite
    · refine parsed_echoes fun fileId => ?_
      cases file.getFileInfo s fileId with
      | mk s' result => cases result <;> rfl
    apply Echoes.ite
    · exact parsed_echoes fun _ => rfl
    apply Echoes.ite
    · exact parsed_echoes fun _ => statedAnswer_echoes
    · exact resultError_echoes

/-- Whatever the subsystems do, the answer to a request carries its id. -/
theorem handleClientRequest_echoes : Echoes r (z.handleClientRequest s r) := by
  unfold handleClientRequest
  cases z.manager with
  | none => exact resultError_echoes
  | some m =>
    unfold Zone.handleClientRequest
    apply Echoes.ite
    · exact handleAuth_echoes
    apply Echoes.ite
    · exact handleChat_echoes
    apply Echoes.ite
    · exact handleFriend_echoes
    apply Echoes.ite
    · exact handleGroup_echoes
    apply Echoes.ite
    · exact handleFile_echoes
    · exact resultError_echoes

end ZoneService
end SwiftChat.Zone
