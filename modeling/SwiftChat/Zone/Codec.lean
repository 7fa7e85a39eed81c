import SwiftChat.Zone.Systems
import Mathlib.Algebra.Group.Int.Defs
import Mathlib.Algebra.Group.Nat.Defs

/-! The request messages in the wire format, to run the handlers on. -/
namespace SwiftChat.Zone
open Base

inductive WireValue where
  | varint (n : Nat)
  | bytes (value : Bytes)

/-- Seven bits a byte, the lowest first; the top bit says that more follow. -/
def readVarint : Bytes → Option (Nat × Bytes)
  | [] => none
  | b :: rest =>
    if b < 128 then some (b.toNat, rest)
    else (readVarint rest).map fun r => (b.toNat - 128 + 128 * r.1, r.2)

/-- One field: its number, its value and what follows. -/
def readField (bs : Bytes) : Option ((Nat × WireValue) × Bytes) :=
  match readVarint bs with
  | none => none
  | some (tag, rest) =>
    match readVarint rest with
    | none => none
    | some (n, rest) =>
      if tag % 8 = 0 then some ((tag / 8, .varint n), rest)
      else if tag % 8 = 2 ∧ n ≤ rest.length then
        some ((tag / 8, .bytes (rest.take n)), rest.drop n)
      else none

def readFields : Nat → Bytes → Option (List (Nat × WireValue))
  | _, [] => some []
  | 0, _ => none
  | fuel + 1, bs =>
    match readField bs with
    | none => none
    | some (field, rest) => (readFields fuel rest).map (field :: ·)

/-- A field takes two bytes or more, so the length bounds their number. -/
def parseMessage (bs : Bytes) : Option (List (Nat × WireValue)) := readFields bs.length bs

/-- All values of a repeated string field. -/
def stringsAt (n : Nat) (fields : List (Nat × WireValue)) : List Bytes :=
  fields.filterMap fun f =>
    match f with
    | (i, .bytes value) => if i = n then some value else none
    | _ => none

/-- The last value of a string field, or its default. -/
def stringAt (n : Nat) (fields : List (Nat × WireValue)) : Bytes :=
  (stringsAt n fields).getLast?.getD []

/-- The last value of a number field, read as a signed number of `w` bits. -/
def intAt (w n : Nat) (fields : List (Nat × WireValue)) : Int :=
  let values := fields.filterMap fun f =>
    match f with
    | (i, .varint value) => if i = n then some value else none
    | _ => none
  let value : Nat := values.getLast?.getD 0 % 2 ^ w
  if value < 2 ^ (w - 1) then value else (value : Int) - 2 ^ w

def wireAuthCodec : AuthCodec where
  parseRegister bs := (parseMessage bs).map fun f =>
    { username := stringAt 1 f, password := stringAt 2 f, nickname := stringAt 3 f,
      email := stringAt 4 f, avatarUrl := stringAt 5 f }
  parseLogin bs := (parseMessage bs).map fun f =>
    { username := stringAt 1 f, password := stringAt 2 f, deviceId := stringAt 3 f,
      deviceType := stringAt 4 f }
  parseLogout bs := (parseMessage bs).map fun f => { userId := stringAt 1 f, token := stringAt 2 f }
  parseValidateToken bs := (parseMessage bs).map fun f => stringAt 1 f

def wireSendMessage (bs : Bytes) : Option ChatSendMessagePayload :=
  (parseMessage bs).map fun f =>
    { fromUserId := stringAt 1 f, toId := stringAt 2 f, chatType := intAt 32 3 f,
      content := stringAt 4 f, mediaUrl := stringAt 5 f, mediaType := stringAt 6 f,
      clientMsgId := stringAt 7 f, fileSize := intAt 64 8 f, mentions := stringsAt 9 f,
      replyToMsgId := stringAt 10 f }

def wireChatCodec : ChatCodec where
  parseSendMessage := wireSendMessage
  parseMarkRead bs := (parseMessage bs).map fun f =>
    { chatId := stringAt 1 f, chatType := intAt 32 2 f, lastMsgId := stringAt 3 f }
  parsePullOffline bs := (parseMessage bs).map fun f =>
    { limit := intAt 32 1 f, cursor := stringAt 2 f }
  parseRecallMessage bs := (parseMessage bs).map fun f =>
    { msgId := stringAt 1 f, userId := stringAt 2 f }
  parseGetHistory bs := (parseMessage bs).map fun f =>
    { chatId := stringAt 1 f, chatType := intAt 32 2 f, beforeMsgId := stringAt 3 f,
      limit := intAt 32 4 f }
  parseSyncConversations bs := (parseMessage bs).map fun f => intAt 64 1 f
  parseDeleteConversation bs := (parseMessage bs).map fun f =>
    { chatId := stringAt 1 f, chatType := intAt 32 2 f }

def wireFriendCodec : FriendCodec where
  parseAdd bs := (parseMessage bs).map fun f =>
    { userId := stringAt 1 f, friendId := stringAt 2 f, remark := stringAt 3 f }
  parseHandleRequest bs := (parseMessage bs).map fun f =>
    { userId := stringAt 1 f, requestId := stringAt 2 f, accept := intAt 64 3 f ≠ 0 }
  parseRemove bs := (parseMessage bs).map fun f =>
    { userId := stringAt 1 f, friendId := stringAt 2 f }
  parseBlock bs := (parseMessage bs).map fun f =>
    { userId := stringAt 1 f, targetId := stringAt 2 f }
  parseGetFriends bs := (parseMessage bs).map fun f => stringAt 1 f
  parseGetRequests bs := (parseMessage bs).map fun f => intAt 32 1 f
  parseSearch bs := (parseMessage bs).map fun f =>
    { keyword := stringAt 1 f, limit := intAt 32 2 f }
  parseGetBlockList bs := (parseMessage bs).map fun _ => ()
  parseCreateGroup bs := (parseMessage bs).map fun f => stringAt 2 f
  parseGetGroups bs := (parseMessage bs).map fun _ => ()
  parseMoveToGroup bs := (parseMessage bs).map fun f =>
    { friendId := stringAt 2 f, groupId := stringAt 3 f }
  parseDeleteGroup bs := (parseMessage bs).map fun f => stringAt 2 f
  parseSetRemark bs := (parseMessage bs).map fun f =>
    { friendId := stringAt 2 f, remark := stringAt 3 f }

def wireGroupCodec : GroupCodec where
  parseCreate bs := (parseMessage bs).map fun f =>
    { creatorId := stringAt 1 f, groupName := stringAt 2 f, memberIds := stringsAt 3 f }
  parseDismiss bs := (parseMessage bs).map fun f =>
    { groupId := stringAt 1 f, operatorId := stringAt 2 f }
  parseInviteMembers bs := (parseMessage bs).map fun f =>
    { groupId := stringAt 1 f, inviterId := stringAt 2 f, memberIds := stringsAt 3 f }
  parseRemoveMember bs := (parseMessage bs).map fun f =>
    { groupId := stringAt 1 f, operatorId := stringAt 2 f, memberId := stringAt 3 f }
  parseLeave bs := (parseMessage bs).map fun f => { groupId := stringAt 1 f, userId := stringAt 2 f }
  parseGetInfo bs := (parseMessage bs).map fun f => stringAt 1 f
  parseGetMembers bs := (parseMessage bs).map fun f =>
    { groupId := stringAt 1 f, page := intAt 32 2 f, pageSize := intAt 32 3 f }
  parseGetUserGroups bs := (parseMessage bs).map fun _ => ()

def wireFileCodec : FileCodec where
  parseGetUploadToken bs := (parseMessage bs).map fun f =>
    { userId := stringAt 1 f, fileName := stringAt 2 f, fileSize := intAt 64 3 f }
  parseInitUpload bs := (parseMessage bs).map fun f =>
    { userId := stringAt 1 f, fileName := stringAt 2 f, contentType := stringAt 3 f,
      fileSize := intAt 64 4 f, md5 := stringAt 5 f, msgId := stringAt 6 f }
  parseGetFileInfo bs := (parseMessage bs).map fun f => stringAt 1 f
  parseGetFileUrl bs := (parseMessage bs).map fun f =>
    { fileId := stringAt 1 f, userId := stringAt 2 f }
  parseDelete bs := (parseMessage bs).map fun f => { fileId := stringAt 1 f, userId := stringAt 2 f }

def wireCodecs : ZoneCodecs where
  auth := wireAuthCodec
  chat := wireChatCodec
  friends := wireFriendCodec
  group := wireGroupCodec
  file := wireFileCodec

/-- A string field of fewer than 128 bytes, as a client writes it. -/
def stringField (n : UInt8) (value : Bytes) : Bytes :=
  (8 * n + 2) :: UInt8.ofNat value.length :: value

end SwiftChat.Zone
