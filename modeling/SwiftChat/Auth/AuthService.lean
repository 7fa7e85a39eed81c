import SwiftChat.Auth.UserStore
import SwiftChat.Common

/-! Registration, the check of a password, and the change of a profile. -/
namespace SwiftChat.Auth
open Base

structure AuthProfile where
  userId : Bytes := []
  username : Bytes := []
  nickname : Bytes := []
  avatarUrl : Bytes := []
  signature : Bytes := []
  gender : Int := 0
  createdAt : Int := 0
deriving DecidableEq

def toProfile (user : UserData) : AuthProfile where
  userId := user.userId
  username := user.username
  nickname := user.nickname
  avatarUrl := user.avatarUrl
  signature := user.signature
  gender := user.gender
  createdAt := user.createdAt

structure RegisterResult where
  success : Bool := false
  userId : Bytes := []
  error : Bytes := []
  errorCode : ErrorCode := .ok
deriving DecidableEq

structure VerifyCredentialsResult where
  success : Bool := false
  userId : Bytes := []
  profile : Option AuthProfile := none
  error : Bytes := []
  errorCode : ErrorCode := .ok
deriving DecidableEq

structure UpdateProfileResult where
  success : Bool := false
  error : Bytes := []
  errorCode : ErrorCode := .ok
deriving DecidableEq

/-- Letters, digits and underscores, three to thirty-two of them. -/
def validateUsername (username : Bytes) : Bool :=
  decide (3 ≤ username.length ∧ username.length ≤ 32) &&
    username.all fun b => isAlphaNum b || b = 95

/-- Eight bytes; the message that refuses a shorter one says six. -/
def validatePassword (password : Bytes) : Bool := 8 ≤ password.length

def passwordSalt : Bytes := str "swift_salt_2026"

/-- What a client asks to be registered with; the address for mail is not kept. -/
structure Registration where
  username : Bytes
  password : Bytes
  nickname : Bytes := []
  email : Bytes := []
  avatarUrl : Bytes := []
deriving DecidableEq

namespace AuthService

def generateUserId (r : RandomString 12) : Bytes := generateShortId (str "u_") r

def usernameInvalid : RegisterResult where
  error := str "Username must be 3-32 chars, alphanumeric and underscore"
  errorCode := .usernameInvalid

def passwordTooWeak : RegisterResult where
  error := str "Password must be at least 6 characters"
  errorCode := .passwordTooWeak

def userAlreadyExists : RegisterResult where
  error := str "Username already exists"
  errorCode := .userAlreadyExists

def createFailed : RegisterResult where
  error := str "Failed to create user"
  errorCode := .rocksdbError

section
variable (sha256 : Bytes → Bytes)

def hashPassword (password : Bytes) : Bytes := sha256 (password ++ passwordSalt)

def verifyPassword (password hash : Bytes) : Bool := hashPassword sha256 password = hash

/-- The record of a new user. -/
def newUser (req : Registration) (r : RandomString 12) (now : Int) : UserData where
  userId := generateUserId r
  username := req.username
  passwordHash := hashPassword sha256 req.password
  nickname := if req.nickname = [] then req.username else req.nickname
  avatarUrl := req.avatarUrl
  createdAt := now
  updatedAt := now

def register (db : UserDb) (req : Registration) (r : RandomString 12) (now : Int) :
    UserDb × RegisterResult :=
  if ¬ validateUsername req.username then (db, usernameInvalid)
  else if ¬ validatePassword req.password then (db, passwordTooWeak)
  else if UserStore.usernameExists db req.username then (db, userAlreadyExists)
  else
    let user := newUser sha256 req r now
    let (db, created) := UserStore.create db user
    if created then (db, { success := true, userId := user.userId }) else (db, createFailed)

def verifyCredentials (db : UserDb) (username password : Bytes) : VerifyCredentialsResult :=
  match UserStore.getByUsername db username with
  | none => { error := str "User not found", errorCode := .userNotFound }
  | some user =>
    if ¬ verifyPassword sha256 password user.passwordHash then
      { error := str "Wrong password", errorCode := .passwordWrong }
    else { success := true, userId := user.userId, profile := some (toProfile user) }

end

def getProfile (db : UserDb) (userId : Bytes) : Option AuthProfile :=
  (UserStore.getById db userId).map toProfile

/-- The record of a user with a new profile; an empty text leaves its field. -/
def withProfile (nickname avatarUrl signature : Bytes) (now : Int) (user : UserData) : UserData :=
  { user with
    nickname := if nickname = [] then user.nickname else nickname
    avatarUrl := if avatarUrl = [] then user.avatarUrl else avatarUrl
    signature := if signature = [] then user.signature else signature
    updatedAt := now }

def updateProfile (db : UserDb) (userId nickname avatarUrl signature : Bytes) (now : Int) :
    UserDb × UpdateProfileResult :=
  match UserStore.getById db userId with
  | none => (db, { error := str "User not found", errorCode := .userNotFound })
  | some user =>
    let (db, updated) := UserStore.update db (withProfile nickname avatarUrl signature now user)
    if updated then (db, { success := true })
    else (db, { error := str "Failed to update profile", errorCode := .rocksdbError })

end AuthService
end SwiftChat.Auth
