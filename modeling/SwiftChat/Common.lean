import SwiftChat.Base.Bytes

/-! Types shared by the services: error codes, chat types and generated ids. -/
namespace SwiftChat
open Base

/-- The error codes the modelled services return. -/
inductive ErrorCode where
  | ok
  | unknown
  | invalidParam
  | internalError
  | notFound
  | permissionDenied
  | serviceUnavailable
  | unsupported
  | authFailed
  | tokenInvalid
  | userNotFound
  | passwordWrong
  | userAlreadyExists
  | usernameInvalid
  | passwordTooWeak
  | sessionInvalid
  | friendGroupDefault
  | friendGroupNotFound
  | msgNotFound
  | recallTimeout
  | recallNotAllowed
  | conversationNotFound
  | msgSendFailed
  | conversationPrivateCannotDelete
  | fileTooLarge
  | uploadFailed
  | fileNotFound
  | fileExpired
  | uploadIncomplete
  | groupNotFound
  | notGroupMember
  | notGroupOwner
  | kickNotAllowed
  | ownerCannotLeave
  | groupMembersTooFew
  | upstreamUnavailable
  | rocksdbError
  | rpcFailed
deriving DecidableEq, Repr

def errorCodeToInt : ErrorCode → Int
  | .ok => 0
  | .unknown => 1
  | .invalidParam => 2
  | .internalError => 3
  | .notFound => 4
  | .permissionDenied => 6
  | .serviceUnavailable => 8
  | .unsupported => 12
  | .authFailed => 100
  | .tokenInvalid => 102
  | .userNotFound => 103
  | .passwordWrong => 104
  | .userAlreadyExists => 105
  | .usernameInvalid => 106
  | .passwordTooWeak => 107
  | .sessionInvalid => 117
  | .friendGroupDefault => 211
  | .friendGroupNotFound => 212
  | .msgNotFound => 300
  | .recallTimeout => 301
  | .recallNotAllowed => 302
  | .conversationNotFound => 306
  | .msgSendFailed => 307
  | .conversationPrivateCannotDelete => 313
  | .fileTooLarge => 400
  | .uploadFailed => 402
  | .fileNotFound => 404
  | .fileExpired => 405
  | .uploadIncomplete => 409
  | .groupNotFound => 500
  | .notGroupMember => 503
  | .notGroupOwner => 506
  | .kickNotAllowed => 510
  | .ownerCannotLeave => 515
  | .groupMembersTooFew => 517
  | .upstreamUnavailable => 610
  | .rocksdbError => 807
  | .rpcFailed => 900

def errorCodeToString : ErrorCode → Bytes
  | .ok => str "success"
  | .unknown => str "unknown error"
  | .invalidParam => str "invalid parameter"
  | .internalError => str "internal error"
  | .notFound => str "not found"
  | .permissionDenied => str "permission denied"
  | .serviceUnavailable => str "service unavailable"
  | .unsupported => str "unsupported"
  | .authFailed => str "authentication failed"
  | .tokenInvalid => str "token invalid"
  | .userNotFound => str "user not found"
  | .passwordWrong => str "password wrong"
  | .userAlreadyExists => str "user already exists"
  | .usernameInvalid => str "username invalid"
  | .passwordTooWeak => str "password too weak"
  | .sessionInvalid => str "session invalid"
  -- the table of messages has no entry for these two
  | .friendGroupDefault => str "unknown"
  | .friendGroupNotFound => str "unknown"
  | .msgNotFound => str "message not found"
  | .recallTimeout => str "recall timeout"
  | .recallNotAllowed => str "recall not allowed"
  | .conversationNotFound => str "conversation not found"
  | .msgSendFailed => str "message send failed"
  | .conversationPrivateCannotDelete => str "private conversation cannot be deleted"
  | .fileTooLarge => str "file too large"
  | .uploadFailed => str "upload failed"
  | .fileNotFound => str "file not found"
  | .fileExpired => str "file expired"
  | .uploadIncomplete => str "upload incomplete"
  | .groupNotFound => str "group not found"
  | .notGroupMember => str "not group member"
  | .notGroupOwner => str "not group owner"
  | .kickNotAllowed => str "kick not allowed"
  | .ownerCannotLeave => str "owner cannot leave"
  | .groupMembersTooFew => str "group requires at least 3 members"
  | .upstreamUnavailable => str "upstream service not configured"
  | .rocksdbError => str "rocksdb error"
  | .rpcFailed => str "rpc failed"

theorem errorCodeToInt_eq_zero {c : ErrorCode} : errorCodeToInt c = 0 ↔ c = .ok := by
  cases c <;> simp [errorCodeToInt]

inductive ChatType where
  | priv
  | group
deriving DecidableEq, Repr

/-- The number a chat type is stored as. -/
def ChatType.toInt : ChatType → Int
  | .priv => 1
  | .group => 2

def isAlphaNum (b : UInt8) : Bool :=
  (48 ≤ b && b ≤ 57) || (65 ≤ b && b ≤ 90) || (97 ≤ b && b ≤ 122)

/-- What `RandomString(n)` can return. -/
structure RandomString (n : Nat) where
  chars : Bytes
  length_eq : chars.length = n
  alphaNum : ∀ b ∈ chars, isAlphaNum b = true

/-- One character repeated. -/
def RandomString.replicate (n : Nat) (b : UInt8) (hb : isAlphaNum b = true) : RandomString n where
  chars := List.replicate n b
  length_eq := List.length_replicate
  alphaNum := by
    intro b' h
    rw [List.eq_of_mem_replicate h]
    exact hb

def generateShortId (pfx : Bytes) {n : Nat} (r : RandomString n) : Bytes := pfx ++ r.chars

end SwiftChat
