import SwiftChat.Base.OrderedMap
import SwiftChat.Base.Run
import SwiftChat.Chat.Keys

/-! The message store over its ordered database, and the shape every store it builds has. -/
namespace SwiftChat.Chat
open Base

structure MessageData where
  msgId : Bytes := []
  fromUserId : Bytes := []
  toId : Bytes := []
  conversationId : Bytes := []
  chatType : Int := 1
  content : Bytes := []
  mediaUrl : Bytes := []
  mediaType : Bytes := []
  mentions : List Bytes := []
  replyToMsgId : Bytes := []
  timestamp : Int := 0
  status : Int := 0
  recallAt : Int := 0
deriving DecidableEq

/-- A value of the message database: a serialized message, or the empty string of an index. -/
inductive MsgValue where
  | message (m : MessageData)
  | empty
deriving DecidableEq

abbrev MsgDb := OrderedMap Bytes MsgValue

/-- The conversation whose timeline lists a message. -/
def timelineId (msg : MessageData) : Bytes :=
  if msg.conversationId = [] then msg.toId else msg.conversationId

def save (db : MsgDb) (msg : MessageData) : MsgDb × Bool :=
  if msg.msgId = [] ∨ msg.fromUserId = [] then (db, false)
  else if (db.get (keyMsg msg.msgId)).isSome then (db, false)
  else
    (db.write [.put (keyMsg msg.msgId) (.message msg),
      .put (keyChat (timelineId msg) msg.timestamp msg.msgId) .empty], true)

def getById (db : MsgDb) (msgId : Bytes) : Option MessageData :=
  if msgId = [] then none
  else match db.get (keyMsg msgId) with
    | some (.message m) => some m
    | _ => none

/-- The loop of `GetHistory`: the message ids it collects from the iterator. -/
def historyLoop (pfx : Bytes) (cutoff limit : Int) :
    List (Bytes × MsgValue) → List Bytes → List Bytes
  | [], keys => keys
  | e :: it, keys =>
    if ¬ pfx.isPrefixOf e.1 then keys
    else
      let (revTs, msgId) := parseChatKey e.1 pfx
      if revTs.length ≠ 13 then historyLoop pfx cutoff limit it keys
      else match stoll revTs with
        | none => historyLoop pfx cutoff limit it keys
        | some r =>
          if cutoff ≥ 0 ∧ r ≤ cutoff then historyLoop pfx cutoff limit it keys
          else if ((keys ++ [msgId]).length : Int) ≥ limit then keys ++ [msgId]
          else historyLoop pfx cutoff limit it (keys ++ [msgId])

def historyFrom (db : MsgDb) (conversationId : Bytes) (cutoff limit : Int) : List MessageData :=
  (historyLoop (prefixChat conversationId) cutoff limit
    (db.seek (prefixChat conversationId)) []).filterMap (getById db)

def getHistory (db : MsgDb) (conversationId beforeMsgId : Bytes) (limit : Int) :
    List MessageData :=
  if conversationId = [] ∨ limit ≤ 0 then []
  else if beforeMsgId = [] then historyFrom db conversationId (-1) limit
  else match getById db beforeMsgId with
    | none => []
    | some msg =>
      if msg.conversationId ≠ conversationId ∧ msg.toId ≠ conversationId then []
      else historyFrom db conversationId (maxTs - msg.timestamp) limit

def markRecalled (db : MsgDb) (msgId : Bytes) (recallAt : Int) : MsgDb × Bool :=
  match getById db msgId with
  | none => (db, false)
  | some msg =>
    (db.put (keyMsg msgId) (.message { msg with status := 1, recallAt := recallAt }), true)

def addToOffline (db : MsgDb) (userId msgId : Bytes) : MsgDb × Bool :=
  if userId = [] ∨ msgId = [] then (db, false)
  else match getById db msgId with
    | none => (db, false)
    | some msg => (db.put (keyOffline userId msg.timestamp msgId) .empty, true)

/-- What the loop of `PullOffline` carries along. -/
structure PullScan where
  skip : Bool
  count : Int := 0
  lastRevTs : Bytes := []
  result : List MessageData := []

/-- The loop of `PullOffline`; the second component is where it leaves the iterator. -/
def pullLoop (db : MsgDb) (pfx cursor : Bytes) (limit : Int) :
    List (Bytes × MsgValue) → PullScan → PullScan × List (Bytes × MsgValue)
  | [], s => (s, [])
  | e :: it, s =>
    if ¬ pfx.isPrefixOf e.1 then (s, e :: it)
    else
      let (revTs, msgId) := parseOfflineKey e.1 pfx
      if s.skip ∧ revTs = cursor then pullLoop db pfx cursor limit it { s with skip := false }
      else if s.skip then pullLoop db pfx cursor limit it s
      else match getById db msgId with
        | none => pullLoop db pfx cursor limit it s
        | some msg =>
          let s' := { s with
            result := s.result ++ [msg], lastRevTs := revTs, count := s.count + 1 }
          if s'.count ≥ limit then (s', e :: it) else pullLoop db pfx cursor limit it s'

structure PullResult where
  messages : List MessageData := []
  nextCursor : Bytes := []
  hasMore : Bool := false

/-- The iterator is valid and still under the prefix. -/
def underPrefix (pfx : Bytes) (it : List (Bytes × MsgValue)) : Bool :=
  it.head?.any (fun e => pfx.isPrefixOf e.1)

/-- What follows the loop of `PullOffline`: one more `Next` tells whether anything is left. -/
def pageOf (pfx : Bytes) (limit : Int) (s : PullScan) (it : List (Bytes × MsgValue)) :
    PullResult :=
  if s.count ≥ limit ∧ underPrefix pfx it ∧ underPrefix pfx it.tail then
    { messages := s.result, nextCursor := s.lastRevTs, hasMore := true }
  else { messages := s.result }

def pullOffline (db : MsgDb) (userId cursor : Bytes) (limit : Int) : PullResult :=
  if userId = [] ∨ limit ≤ 0 then {}
  else
    let pfx := prefixOffline userId
    let r := pullLoop db pfx cursor limit (db.seek pfx) { skip := !cursor.isEmpty }
    pageOf pfx limit r.1 r.2

/-- The keys `ClearOffline` puts into its batch when it is given a message to clear up to. -/
def clearedKeys (db : MsgDb) (userId : Bytes) (untilTs : Int) : List Bytes :=
  ((db.scan (prefixOffline userId)).map Prod.fst).filter fun key =>
    match stoll (parseOfflineKey key (prefixOffline userId)).1 with
    | none => false
    | some r => maxTs - r ≤ untilTs

def clearOffline (db : MsgDb) (userId untilMsgId : Bytes) : MsgDb × Bool :=
  if userId = [] then (db, true)
  else if untilMsgId = [] then
    (db.write ((db.scan (prefixOffline userId)).map (fun e => .delete e.1)), true)
  else match getById db untilMsgId with
    | none => (db, true)
    | some untilMsg =>
      (db.write ((clearedKeys db userId untilMsg.timestamp).map .delete), true)

end SwiftChat.Chat
