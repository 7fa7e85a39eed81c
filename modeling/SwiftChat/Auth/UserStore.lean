import SwiftChat.Base.Codec
import SwiftChat.Base.Json
import SwiftChat.Base.OrderedMap

/-! The store of user accounts: a record for each user, and an index from names to users. -/
namespace SwiftChat.Auth
open Base

structure UserData where
  userId : Bytes := []
  username : Bytes := []
  passwordHash : Bytes := []
  nickname : Bytes := []
  avatarUrl : Bytes := []
  signature : Bytes := []
  gender : Int := 0
  createdAt : Int := 0
  updatedAt : Int := 0
deriving DecidableEq

/-- A value of the database: the JSON record of a user, or the user id of a name. -/
inductive UserValue where
  | json (j : JsonObject)
  | text (s : Bytes)
deriving DecidableEq

abbrev UserDb := OrderedMap Bytes UserValue

def serializeUser (u : UserData) : UserValue := .json [
  ("user_id", .string u.userId),
  ("username", .string u.username),
  ("password_hash", .string u.passwordHash),
  ("nickname", .string u.nickname),
  ("avatar_url", .string u.avatarUrl),
  ("signature", .string u.signature),
  ("gender", .number u.gender),
  ("created_at", .number u.createdAt),
  ("updated_at", .number u.updatedAt)]

/-- The defaults of the two times are an `int` each, so they are read as one. -/
def deserializeUser : UserValue → Option UserData
  | .text _ => none
  | .json j => do
    let userId ← j.stringValue "user_id" []
    let username ← j.stringValue "username" []
    let passwordHash ← j.stringValue "password_hash" []
    let nickname ← j.stringValue "nickname" []
    let avatarUrl ← j.stringValue "avatar_url" []
    let signature ← j.stringValue "signature" []
    let gender ← j.intValue 32 "gender" 0
    let createdAt ← j.intValue 32 "created_at" 0
    let updatedAt ← j.intValue 32 "updated_at" 0
    return {
      userId := userId
      username := username
      passwordHash := passwordHash
      nickname := nickname
      avatarUrl := avatarUrl
      signature := signature
      gender := gender
      createdAt := createdAt
      updatedAt := updatedAt }

/-- What a record is read back as. -/
def UserData.stored (u : UserData) : UserData :=
  { u with
    gender := wrap 32 u.gender
    createdAt := wrap 32 u.createdAt
    updatedAt := wrap 32 u.updatedAt }

theorem deserialize_serializeUser (u : UserData) :
    deserializeUser (serializeUser u) = some u.stored := by
  simp [deserializeUser, serializeUser, JsonObject.stringValue, JsonObject.intValue,
    JsonObject.field, UserData.stored]

def userCodec : Codec UserData UserValue where
  encode := serializeUser
  decode := deserializeUser
  kept := UserData.stored
  decode_encode := deserialize_serializeUser

def keyUser (userId : Bytes) : Bytes := str "user:" ++ userId
def keyUsername (username : Bytes) : Bytes := str "username:" ++ username

namespace UserStore

def getById (db : UserDb) (userId : Bytes) : Option UserData :=
  if userId = [] then none else (db.get (keyUser userId)).bind deserializeUser

def getByUsername (db : UserDb) (username : Bytes) : Option UserData :=
  if username = [] then none
  else match db.get (keyUsername username) with
    | some (.text userId) => getById db userId
    | _ => none

def usernameExists (db : UserDb) (username : Bytes) : Bool :=
  if username = [] then false else (db.get (keyUsername username)).isSome

/-- Whether the user id is taken is not looked at. -/
def create (db : UserDb) (user : UserData) : UserDb × Bool :=
  if usernameExists db user.username then (db, false)
  else
    (db.write [.put (keyUser user.userId) (serializeUser user),
      .put (keyUsername user.username) (.text user.userId)], true)

def update (db : UserDb) (user : UserData) : UserDb × Bool :=
  match getById db user.userId with
  | none => (db, false)
  | some existing =>
    if existing.username ≠ user.username then
      if usernameExists db user.username then (db, false)
      else
        (db.write [.delete (keyUsername existing.username),
          .put (keyUsername user.username) (.text user.userId),
          .put (keyUser user.userId) (serializeUser user)], true)
    else (db.write [.put (keyUser user.userId) (serializeUser user)], true)

end UserStore

variable {db : UserDb} {id id' n n' : Bytes}

theorem keyUser_inj : keyUser id = keyUser id' ↔ id = id' := List.append_right_inj _

theorem keyUsername_inj : keyUsername n = keyUsername n' ↔ n = n' := List.append_right_inj _

/-- The fifth byte tells a record from an index entry. -/
theorem keyUser_ne_keyUsername : keyUser id ≠ keyUsername n := by
  intro h
  have hfour := congrArg (fun k : Bytes => k[4]?) h
  simp only [keyUser, keyUsername] at hfour
  rw [List.getElem?_append_left (by decide), List.getElem?_append_left (by decide)] at hfour
  exact absurd hfour (by decide)

end SwiftChat.Auth
