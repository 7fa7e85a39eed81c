import SwiftChat.Auth.AuthService
import SwiftChat.Grpc
import SwiftChat.Utils.Encoding

/-! The search for users, and the remote calls of the account service. -/
namespace SwiftChat.Auth
open Base

/-- The text a user is searched by. -/
def haystack (user : UserData) : Bytes :=
  (user.userId ++ str " " ++ user.username ++ str " " ++ user.nickname).map Utils.toLower

def UserStore.searchUsers (db : UserDb) (keyword : Bytes) (limit : Int) : List UserData :=
  if keyword = [] ∨ limit ≤ 0 then []
  else
    -- a value that does not parse is passed over
    (((db.scan (str "user:")).filterMap fun e => deserializeUser e.2).filter fun user =>
      keyword.map Utils.toLower <:+: haystack user).take limit.toNat

def AuthService.searchUsers (db : UserDb) (keyword : Bytes) (limit : Int) : List AuthProfile :=
  if keyword = [] then []
  else
    let cappedLimit := if limit ≤ 0 then 20 else min limit 100
    (UserStore.searchUsers db keyword cappedLimit).map toProfile

structure VerifyCredentialsReply where
  userId : Bytes := []
  profile : Option AuthProfile := none
deriving DecidableEq, Inhabited

/-! Registration and the check of a password need no token. The other calls act for the user of
theirs; `now` is in seconds, `nowMs` in milliseconds. -/
namespace AuthHandler
section
variable (sha256 : Bytes → Bytes) (jwt : Jwt) (metadata : Metadata) (db : UserDb) (now : Int)

def register (req : Registration) (r : RandomString 12) (nowMs : Int) :
    UserDb × RpcResponse Bytes :=
  let (db, result) := AuthService.register sha256 db req r nowMs
  (db, if result.success then .ok [] result.userId
    else .fail (errorCodeToInt result.errorCode) result.error)

def verifyCredentials (username password : Bytes) : RpcResponse VerifyCredentialsReply :=
  let result := AuthService.verifyCredentials sha256 db username password
  if result.success then .ok [] { userId := result.userId, profile := result.profile }
  else .fail (errorCodeToInt result.errorCode) result.error

/-- A failure is the status of the call; the user the request names is not read. -/
def getProfile : Except Bytes AuthProfile :=
  let uid := getAuthenticatedUserId jwt metadata now
  if uid = [] then .error (str "token invalid or missing")
  else match AuthService.getProfile db uid with
    | none => .error (str "user not found")
    | some profile => .ok profile

def updateProfile (nickname avatarUrl signature : Bytes) (nowMs : Int) :
    UserDb × RpcResponse Unit :=
  let uid := getAuthenticatedUserId jwt metadata now
  if uid = [] then (db, .tokenMissing)
  else
    let (db, result) := AuthService.updateProfile db uid nickname avatarUrl signature nowMs
    (db, if result.success then .ok [] ()
      else .fail (errorCodeToInt result.errorCode) result.error)

def searchUsers (keyword : Bytes) (limit : Int) : RpcResponse (List AuthProfile) :=
  let uid := getAuthenticatedUserId jwt metadata now
  if uid = [] then .tokenMissing else .ok [] (AuthService.searchUsers db keyword limit)

end
end AuthHandler
end SwiftChat.Auth
