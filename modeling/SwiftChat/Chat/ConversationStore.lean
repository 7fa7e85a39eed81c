import SwiftChat.Base.OrderedMap
import SwiftChat.Chat.Keys

/-! The per-user conversation list and the registry of private conversations. -/
namespace SwiftChat.Chat
open Base

structure ConversationData where
  conversationId : Bytes := []
  chatType : Int := 1
  peerId : Bytes := []
  lastMsgId : Bytes := []
  unreadCount : Int := 0
  updatedAt : Int := 0
  isPinned : Bool := false
  isMuted : Bool := false
deriving DecidableEq

abbrev ConvDb := OrderedMap Bytes ConversationData

def upsert (db : ConvDb) (userId : Bytes) (conv : ConversationData) : ConvDb × Bool :=
  if userId = [] ∨ conv.conversationId = [] then (db, false)
  else (db.put (keyConv userId conv.conversationId) conv, true)

def getList (db : ConvDb) (userId : Bytes) : List ConversationData :=
  if userId = [] then [] else (db.scan (prefixConv userId)).map Prod.snd

def deleteConv (db : ConvDb) (userId conversationId : Bytes) : ConvDb × Bool :=
  if userId = [] ∨ conversationId = [] then (db, false)
  else (db.delete (keyConv userId conversationId), true)

/-- Reads a record, changes its unread count and writes it back; fails when there is none. -/
def modifyUnread (db : ConvDb) (userId conversationId : Bytes) (f : Int → Int) : ConvDb × Bool :=
  if userId = [] ∨ conversationId = [] then (db, false)
  else match db.get (keyConv userId conversationId) with
    | none => (db, false)
    | some c =>
      (db.put (keyConv userId conversationId) { c with unreadCount := f c.unreadCount }, true)

def updateUnread (db : ConvDb) (userId conversationId : Bytes) (delta : Int) : ConvDb × Bool :=
  modifyUnread db userId conversationId fun n => max 0 (n + delta)

def clearUnread (db : ConvDb) (userId conversationId : Bytes) : ConvDb × Bool :=
  modifyUnread db userId conversationId fun _ => 0

/-- The registry only remembers that a private conversation exists. -/
abbrev ConvMetaDb := OrderedMap Bytes Bytes

/-- The id shared by both sides of a private chat: the two user ids in byte order. -/
def privateId (userId1 userId2 : Bytes) : Bytes :=
  if userId2 < userId1 then str "p_" ++ userId2 ++ str "_" ++ userId1
  else str "p_" ++ userId1 ++ str "_" ++ userId2

def privateMeta : Bytes := str "\x7b\"type\":\"private\"\x7d"

def getOrCreatePrivateConversation (db : ConvMetaDb) (userId1 userId2 : Bytes) :
    ConvMetaDb × Bytes :=
  if userId1 = [] ∨ userId2 = [] then (db, [])
  else
    let conversationId := privateId userId1 userId2
    let key := keyConvMeta conversationId
    (if (db.get key).isSome then db else db.put key privateMeta, conversationId)

variable {u w c d : Bytes} {db : ConvDb} {f : Int → Int} {a b : Bytes}

theorem privateId_comm (a b : Bytes) : privateId a b = privateId b a := by
  unfold privateId
  rcases lt_trichotomy a b with h | h | h
  · rw [if_neg (not_lt_of_gt h), if_pos h]
  · rw [h]
  · rw [if_pos h, if_neg (not_lt_of_gt h)]

theorem privateId_isPrefix (a b : Bytes) : str "p_" <+: privateId a b := by
  unfold privateId
  split <;> simp [List.append_assoc]

theorem privateId_ne_nil (a b : Bytes) : privateId a b ≠ [] := by
  intro h
  have := privateId_isPrefix a b
  rw [h, List.prefix_nil] at this
  exact absurd this (by decide)

/-- A private conversation id never starts like a group id. -/
theorem not_group_privateId (a b : Bytes) : ¬ str "g_" <+: privateId a b := by
  intro h
  rcases List.prefix_or_prefix_of_prefix h (privateId_isPrefix a b) with hp | hp
  · exact absurd hp (by decide)
  · exact absurd hp (by decide)

theorem keyConv_eq (u c : Bytes) : keyConv u c = kConv ++ (u ++ colon :: c) := by
  simp [keyConv, str_colon, List.append_assoc]

/-- With the separator kept out of user ids, a key names one user and one conversation. -/
theorem keyConv_inj (hu : colon ∉ u) (hw : colon ∉ w) (h : keyConv u c = keyConv w d) :
    u = w ∧ c = d := by
  rw [keyConv_eq, keyConv_eq] at h
  exact append_sep_inj hu hw (List.append_cancel_left h)

end SwiftChat.Chat
