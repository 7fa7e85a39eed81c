import SwiftChat.Common
import SwiftChat.Jwt

/-! Remote calls: their metadata, the user they are made for, and their responses. -/
namespace SwiftChat
open Base

/-- The two metadata entries of a call that can carry a token. -/
structure Metadata where
  authorization : Option Bytes := none
  xToken : Option Bytes := none
deriving DecidableEq

/-- `CreateContext` of the zone's clients; most calls leave the token empty. -/
def createContext (token : Bytes) : Metadata :=
  if token = [] then {} else { authorization := some (str "Bearer " ++ token) }

def isBlank (b : UInt8) : Bool := b = 32 || b = 9

def isSpace (b : UInt8) : Bool := isBlank b || b = 13 || b = 10

/-- A value without the white space around it. -/
def trim (v : Bytes) : Bytes := ((v.dropWhile isSpace).reverse.dropWhile isSpace).reverse

def getTokenFromContext (metadata : Metadata) : Bytes :=
  match metadata.authorization with
  | some v =>
    let v := trim v
    if str "Bearer " <+: v then
      let rest := v.drop (str "Bearer ").length
      -- an all-blank rest is kept as it is
      if rest.any (fun b => ¬ isBlank b) then rest.dropWhile isBlank else rest
    else v
  | none => metadata.xToken.getD []

/-- The empty id when the call carries no token that verifies. -/
def getAuthenticatedUserId (jwt : Jwt) (metadata : Metadata) (now : Int) : Bytes :=
  let token := getTokenFromContext metadata
  if token = [] then [] else (jwt.verify token now).getD []

@[simp] theorem getAuthenticatedUserId_createContext (jwt : Jwt) (now : Int) :
    getAuthenticatedUserId jwt (createContext []) now = [] := rfl

/-- A response: on failure the body keeps its defaults. -/
structure RpcResponse (α : Type) where
  code : Int
  message : Bytes
  body : α

namespace RpcResponse
variable {α : Type}

def ok (message : Bytes) (body : α) : RpcResponse α :=
  { code := errorCodeToInt .ok, message := message, body := body }

variable [Inhabited α]

def fail (code : Int) (message : Bytes) : RpcResponse α :=
  { code := code, message := message, body := default }

/-- A failure with the code's own text. -/
def error (ec : ErrorCode) : RpcResponse α := fail (errorCodeToInt ec) (errorCodeToString ec)

def tokenMissing : RpcResponse α :=
  fail (errorCodeToInt .tokenInvalid) (str "token invalid or missing")

/-- What a client of the zone makes of a response: the body, or an error text that is not
empty. -/
def result (fallback : Bytes) (r : RpcResponse α) : Except Bytes α :=
  if r.code ≠ 0 then .error (if r.message = [] then fallback else r.message) else .ok r.body

end RpcResponse
end SwiftChat
