import SwiftChat.Auth.AuthService
import SwiftChat.Chat.MessageCodec
import SwiftChat.File.FileCodec
import SwiftChat.Friend.FriendStore

/-! The six kinds of stored records: which of them come back as they were written. -/
namespace SwiftChat
open Base Auth Chat File Friend

inductive Record where
  | user (x : UserData)
  | friend (x : FriendData)
  | friendRequest (x : FriendRequestData)
  | message (x : MessageData)
  | file (x : FileMetaData)
  | uploadSession (x : UploadSessionData)

namespace Record

/-- The numbers are values of the types the fields are declared with. -/
def InTypes : Record → Prop
  | .user x => Fits 32 x.gender ∧ Fits 64 x.createdAt ∧ Fits 64 x.updatedAt
  | .friend x => Fits 64 x.addedAt
  | .friendRequest x => Fits 32 x.status ∧ Fits 64 x.createdAt
  | .message x => x.InTypes
  | .file x => Fits 64 x.fileSize ∧ Fits 64 x.uploadedAt
  | .uploadSession x => Fits 64 x.fileSize ∧ Fits 64 x.bytesWritten ∧ Fits 64 x.expireAt

def RoundTrips : Record → Prop
  | .user x => userCodec.RoundTrips x
  | .friend x => friendCodec.RoundTrips x
  | .friendRequest x => requestCodec.RoundTrips x
  | .message x => messageCodec.RoundTrips x
  | .file x => metaCodec.RoundTrips x
  | .uploadSession x => sessionCodec.RoundTrips x

/-- The times that are read with the default of an `int` are values of one. -/
def TimesShort : Record → Prop
  | .user x => Fits 32 x.createdAt ∧ Fits 32 x.updatedAt
  | .friend x => Fits 32 x.addedAt
  | .friendRequest x => Fits 32 x.createdAt
  | .message _ => True
  | .file _ => True
  | .uploadSession _ => True

end Record

/-- A record and what a function that reads it, changes it and writes it back does to it. -/
inductive Rewrite where
  | updateProfile (x : UserData) (nickname avatarUrl signature : Bytes) (now : Int)
  | updateRemark (x : FriendData) (remark : Bytes)
  | moveFriend (x : FriendData) (toGroupId : Bytes)
  | updateRequestStatus (x : FriendRequestData) (status : Int)
  | markRecalled (x : MessageData) (recallAt : Int)
  | updateUploadSessionBytes (x : UploadSessionData) (bytesWritten : Int)

namespace Rewrite

/-- The record with the change that is meant and no other. -/
def meant : Rewrite → Record
  | .updateProfile x nickname avatarUrl signature now =>
    .user (AuthService.withProfile nickname avatarUrl signature now x)
  | .updateRemark x remark => .friend { x with remark := remark }
  | .moveFriend x toGroupId => .friend { x with groupId := toGroupId }
  | .updateRequestStatus x status => .friendRequest { x with status := status }
  | .markRecalled x recallAt => .message { x with status := 1, recallAt := recallAt }
  | .updateUploadSessionBytes x bytesWritten =>
    .uploadSession { x with bytesWritten := bytesWritten }

/-- The record is read afterwards as it was meant to be. -/
def Exact : Rewrite → Prop
  | .updateProfile x nickname avatarUrl signature now =>
    userCodec.Rewrites (AuthService.withProfile nickname avatarUrl signature now) x
  | .updateRemark x remark => friendCodec.Rewrites (fun d => { d with remark := remark }) x
  | .moveFriend x toGroupId => friendCodec.Rewrites (fun d => { d with groupId := toGroupId }) x
  | .updateRequestStatus x status => requestCodec.Rewrites (fun r => { r with status := status }) x
  | .markRecalled x recallAt =>
    messageCodec.Rewrites (fun m => { m with status := 1, recallAt := recallAt }) x
  | .updateUploadSessionBytes x bytesWritten =>
    sessionCodec.Rewrites (fun s => { s with bytesWritten := bytesWritten }) x

end Rewrite

/-! What each kind loses. -/

theorem user_stored_iff {x : UserData} (h : Fits 32 x.gender) :
    x.stored = x ↔ Fits 32 x.createdAt ∧ Fits 32 x.updatedAt := by
  have hw : 0 < 32 := by decide
  rw [← wrap_eq_iff hw, ← wrap_eq_iff hw]
  constructor
  · intro he
    exact ⟨congrArg UserData.createdAt he, congrArg UserData.updatedAt he⟩
  · rintro ⟨hc, hu⟩
    simp only [UserData.stored, wrap_of_fits h, hc, hu]

theorem friend_stored_iff {x : FriendData} : x.stored = x ↔ Fits 32 x.addedAt := by
  rw [← wrap_eq_iff (by decide)]
  constructor
  · intro he
    exact congrArg FriendData.addedAt he
  · intro h
    simp only [FriendData.stored, h]

theorem request_stored_iff {x : FriendRequestData} (h : Fits 32 x.status) :
    x.stored = x ↔ Fits 32 x.createdAt := by
  rw [← wrap_eq_iff (by decide)]
  constructor
  · intro he
    exact congrArg FriendRequestData.createdAt he
  · intro hc
    simp only [FriendRequestData.stored, wrap_of_fits h, hc]

theorem meta_stored {x : FileMetaData} (h : Fits 64 x.fileSize ∧ Fits 64 x.uploadedAt) :
    x.stored = x := by
  simp only [FileMetaData.stored, wrap_of_fits h.1, wrap_of_fits h.2]

theorem session_stored {x : UploadSessionData}
    (h : Fits 64 x.fileSize ∧ Fits 64 x.bytesWritten ∧ Fits 64 x.expireAt) : x.stored = x := by
  simp only [UploadSessionData.stored, wrap_of_fits h.1, wrap_of_fits h.2.1, wrap_of_fits h.2.2]

theorem Record.roundTrips_iff {x : Record} (hx : x.InTypes) : x.RoundTrips ↔ x.TimesShort := by
  cases x with
  | user x => exact Codec.roundTrips_iff.trans (user_stored_iff hx.1)
  | friend x => exact Codec.roundTrips_iff.trans friend_stored_iff
  | friendRequest x => exact Codec.roundTrips_iff.trans (request_stored_iff hx.1)
  | message x => exact iff_of_true (Codec.roundTrips_iff.mpr hx.stored) trivial
  | file x => exact iff_of_true (Codec.roundTrips_iff.mpr (meta_stored hx)) trivial
  | uploadSession x => exact iff_of_true (Codec.roundTrips_iff.mpr (session_stored hx)) trivial

theorem Rewrite.exact_iff {w : Rewrite} (hw : w.meant.InTypes) : w.Exact ↔ w.meant.TimesShort := by
  cases w with
  | updateProfile x nickname avatarUrl signature now =>
    refine (Codec.rewrites_iff ?_).trans (user_stored_iff hw.1)
    simp [userCodec, UserData.stored, AuthService.withProfile]
  | updateRemark x remark =>
    refine (Codec.rewrites_iff ?_).trans friend_stored_iff
    simp [friendCodec, FriendData.stored]
  | moveFriend x toGroupId =>
    refine (Codec.rewrites_iff ?_).trans friend_stored_iff
    simp [friendCodec, FriendData.stored]
  | updateRequestStatus x status =>
    refine (Codec.rewrites_iff ?_).trans (request_stored_iff hw.1)
    simp [requestCodec, FriendRequestData.stored]
  | markRecalled x recallAt =>
    refine iff_of_true ((Codec.rewrites_iff ?_).mpr hw.stored) trivial
    simp [messageCodec, MessageData.stored]
  | updateUploadSessionBytes x bytesWritten =>
    refine iff_of_true ((Codec.rewrites_iff ?_).mpr (session_stored hw)) trivial
    simp [sessionCodec, UploadSessionData.stored]

/-- A record comes back as it was written, and a rewritten one as it was meant, exactly when the
times that are read as an `int` fit one. -/
theorem records_kept_iff (x : Record) (w : Rewrite) (hx : x.InTypes) (hw : w.meant.InTypes) :
    (x.RoundTrips ↔ x.TimesShort) ∧ (w.Exact ↔ w.meant.TimesShort) :=
  ⟨Record.roundTrips_iff hx, Rewrite.exact_iff hw⟩

theorem records_kept_early :
    (Record.user { userId := str "u", createdAt := 1000 }).RoundTrips ∧
      (Rewrite.updateRemark { userId := str "u", friendId := str "f" } (str "r")).Exact := by
  obtain ⟨hx, hw⟩ := records_kept_iff (.user { userId := str "u", createdAt := 1000 })
    (.updateRemark { userId := str "u", friendId := str "f" } (str "r"))
    ⟨by decide, by decide, by decide⟩ (show Fits 64 0 by decide)
  exact ⟨hx.mpr ⟨by decide, by decide⟩, hw.mpr (show Fits 32 0 by decide)⟩

/-- A time in milliseconds is cut down, in a new account and by the change of a remark. -/
theorem records_cut_down :
    (Record.user { userId := str "u", createdAt := 1700000000000 }).InTypes ∧
    ¬ (Record.user { userId := str "u", createdAt := 1700000000000 }).RoundTrips ∧
    (Record.friend { userId := str "u", friendId := str "f", addedAt := 1700000000000 }).InTypes ∧
    ¬ (Rewrite.updateRemark { userId := str "u", friendId := str "f", addedAt := 1700000000000 }
      (str "r")).Exact := by
  refine ⟨⟨by decide, by decide, by decide⟩, ?_, (show Fits 64 1700000000000 by decide), ?_⟩
  · intro h
    have hcreated := congrArg (Option.map UserData.createdAt) h
    rw [userCodec.decode_encode] at hcreated
    exact absurd (Option.some.inj hcreated) (by decide)
  · intro h
    have hadded := congrArg (Option.map FriendData.addedAt) h
    rw [Codec.rewrite_encode, friendCodec.decode_encode] at hadded
    exact absurd (Option.some.inj hadded) (by decide)

end SwiftChat
