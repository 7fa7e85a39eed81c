import SwiftChat.Base.Codec
import SwiftChat.Base.Json
import SwiftChat.Chat.MessageStore

/-! The JSON record of a message. -/
namespace SwiftChat.Chat
open Base
variable {m : MessageData}

def serializeMessage (m : MessageData) : JsonObject := [
  ("msg_id", .string m.msgId),
  ("from_user_id", .string m.fromUserId),
  ("to_id", .string m.toId),
  ("conversation_id", .string m.conversationId),
  ("chat_type", .number m.chatType),
  ("content", .string m.content),
  ("media_url", .string m.mediaUrl),
  ("media_type", .string m.mediaType),
  ("mentions", .strings m.mentions),
  ("reply_to_msg_id", .string m.replyToMsgId),
  ("timestamp", .number m.timestamp),
  ("status", .number m.status),
  ("recall_at", .number m.recallAt)]

def deserializeMessage (j : JsonObject) : Option MessageData := do
  let msgId ← j.stringValue "msg_id" []
  let fromUserId ← j.stringValue "from_user_id" []
  let toId ← j.stringValue "to_id" []
  -- records of an older layout name the conversation `chat_id`
  let chatId ← j.stringValue "chat_id" []
  let conversationId ← j.stringValue "conversation_id" chatId
  let chatType ← j.intValue 32 "chat_type" 1
  let content ← j.stringValue "content" []
  let mediaUrl ← j.stringValue "media_url" []
  let mediaType ← j.stringValue "media_type" []
  let mentions := j.stringsValue "mentions"
  let replyToMsgId ← j.stringValue "reply_to_msg_id" []
  let timestamp ← j.intValue 64 "timestamp" 0
  let status ← j.intValue 32 "status" 0
  let recallAt ← j.intValue 64 "recall_at" 0
  return {
    msgId := msgId
    fromUserId := fromUserId
    toId := toId
    conversationId := conversationId
    chatType := chatType
    content := content
    mediaUrl := mediaUrl
    mediaType := mediaType
    mentions := mentions
    replyToMsgId := replyToMsgId
    timestamp := timestamp
    status := status
    recallAt := recallAt }

/-- What a record is read back as. -/
def MessageData.stored (m : MessageData) : MessageData :=
  { m with
    chatType := wrap 32 m.chatType
    timestamp := wrap 64 m.timestamp
    status := wrap 32 m.status
    recallAt := wrap 64 m.recallAt }

theorem decode_serializeMessage (m : MessageData) :
    deserializeMessage (serializeMessage m) = some m.stored := by
  simp [deserializeMessage, serializeMessage, JsonObject.stringValue, JsonObject.intValue,
    JsonObject.stringsValue, JsonObject.field, MessageData.stored]

def messageCodec : Codec MessageData JsonObject where
  encode := serializeMessage
  decode := deserializeMessage
  kept := MessageData.stored
  decode_encode := decode_serializeMessage

/-- The numbers of a message fit the types of its record. -/
structure MessageData.InTypes (m : MessageData) : Prop where
  chatType : Fits 32 m.chatType
  timestamp : Fits 64 m.timestamp
  status : Fits 32 m.status
  recallAt : Fits 64 m.recallAt

theorem MessageData.InTypes.stored (h : m.InTypes) : m.stored = m := by
  simp only [MessageData.stored, wrap_of_fits h.chatType, wrap_of_fits h.timestamp,
    wrap_of_fits h.status, wrap_of_fits h.recallAt]

/-- A message read back from its record is the message that was written. -/
theorem deserialize_serializeMessage (h : m.InTypes) :
    deserializeMessage (serializeMessage m) = some m := by
  rw [decode_serializeMessage, h.stored]

end SwiftChat.Chat
