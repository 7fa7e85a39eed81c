import SwiftChat.Records

/-! Records where they are kept: what the functions of the stores that rewrite one do to its
database. -/
namespace SwiftChat
open Base Auth Chat File Friend

structure Databases where
  users : UserDb := OrderedMap.empty
  friends : FriendDb := OrderedMap.empty
  messages : MsgDb := OrderedMap.empty
  files : FileDb := OrderedMap.empty

namespace Record

/-- The ids that make the key of a record are not empty. -/
def Named : Record → Prop
  | .user x => x.userId ≠ []
  | .friend x => x.userId ≠ [] ∧ x.friendId ≠ []
  | .friendRequest x => x.requestId ≠ []
  | .message x => x.msgId ≠ []
  | .file x => x.fileId ≠ []
  | .uploadSession x => x.uploadId ≠ []

variable (dbs : Databases)

/-- The record stands under its key as it was written. -/
def At : Record → Prop
  | .user x => dbs.users.get (keyUser x.userId) = some (serializeUser x)
  | .friend x => dbs.friends.get (keyFriend x.userId x.friendId) = some (serializeFriend x)
  | .friendRequest x => dbs.friends.get (keyFriendReq x.requestId) = some (serializeRequest x)
  | .message x => dbs.messages.get (keyMsg x.msgId) = some (.message x)
  | .file x => dbs.files.get (keyFile x.fileId) = some (.file x)
  | .uploadSession x => dbs.files.get (keyUpload x.uploadId) = some (.session x)

/-- The record is written under its key, and nothing else changes. -/
def put : Record → Databases
  | .user x => { dbs with users := dbs.users.put (keyUser x.userId) (serializeUser x) }
  | .friend x =>
    { dbs with friends := dbs.friends.put (keyFriend x.userId x.friendId) (serializeFriend x) }
  | .friendRequest x =>
    { dbs with friends := dbs.friends.put (keyFriendReq x.requestId) (serializeRequest x) }
  | .message x => { dbs with messages := dbs.messages.put (keyMsg x.msgId) (.message x) }
  | .file x => { dbs with files := dbs.files.put (keyFile x.fileId) (.file x) }
  | .uploadSession x => { dbs with files := dbs.files.put (keyUpload x.uploadId) (.session x) }

/-- What is read under the key of a record. -/
def read : Record → Option Record
  | .user x => (UserStore.getById dbs.users x.userId).map .user
  | .friend x =>
    ((dbs.friends.get (keyFriend x.userId x.friendId)).bind deserializeFriend).map .friend
  | .friendRequest x => (FriendStore.getRequest dbs.friends x.requestId).map .friendRequest
  | .message x => (Chat.getById dbs.messages x.msgId).map .message
  | .file x => (FileStore.getById dbs.files x.fileId).map .file
  | .uploadSession x => (FileStore.getUploadSession dbs.files x.uploadId).map .uploadSession

/-- What a record is read back as. -/
def stored : Record → Record
  | .user x => .user x.stored
  | .friend x => .friend x.stored
  | .friendRequest x => .friendRequest x.stored
  | .message x => .message x
  | .file x => .file x
  | .uploadSession x => .uploadSession x

end Record

namespace Rewrite

/-- The record that is rewritten. -/
def before : Rewrite → Record
  | .updateProfile x .. => .user x
  | .updateRemark x _ => .friend x
  | .moveFriend x _ => .friend x
  | .updateRequestStatus x _ => .friendRequest x
  | .markRecalled x _ => .message x
  | .updateUploadSessionBytes x _ => .uploadSession x

/-- The record that is written: the change is made to what is read. -/
def written : Rewrite → Record
  | .updateProfile x nickname avatarUrl signature now =>
    .user (AuthService.withProfile nickname avatarUrl signature now x.stored)
  | .updateRemark x remark => .friend { x.stored with remark := remark }
  | .moveFriend x toGroupId => .friend { x.stored with groupId := toGroupId }
  | .updateRequestStatus x status => .friendRequest { x.stored with status := status }
  | .markRecalled x recallAt => .message { x with status := 1, recallAt := recallAt }
  | .updateUploadSessionBytes x bytesWritten =>
    .uploadSession { x with bytesWritten := bytesWritten }

/-- The function of the store, called with the ids of the record. -/
def apply (dbs : Databases) : Rewrite → Databases
  | .updateProfile x nickname avatarUrl signature now =>
    { dbs with users :=
        (AuthService.updateProfile dbs.users x.userId nickname avatarUrl signature now).1 }
  | .updateRemark x remark =>
    { dbs with friends := (FriendStore.updateRemark dbs.friends x.userId x.friendId remark).1 }
  | .moveFriend x toGroupId =>
    { dbs with friends := (FriendStore.moveFriend dbs.friends x.userId x.friendId toGroupId).1 }
  | .updateRequestStatus x status =>
    { dbs with friends := (FriendStore.updateRequestStatus dbs.friends x.requestId status).1 }
  | .markRecalled x recallAt =>
    { dbs with messages := (Chat.markRecalled dbs.messages x.msgId recallAt).1 }
  | .updateUploadSessionBytes x bytesWritten =>
    { dbs with files :=
        (FileStore.updateUploadSessionBytes dbs.files x.uploadId bytesWritten).1 }

end Rewrite

section
variable {dbs : Databases} {r : Record} {w : Rewrite}

theorem Record.read_at (hnamed : r.Named) (hat : r.At dbs) : r.read dbs = some r.stored := by
  cases r with
  | user x =>
    have hget : dbs.users.get (keyUser x.userId) = some (serializeUser x) := hat
    simp only [Record.read, UserStore.getById, if_neg hnamed, hget, Option.bind_some,
      deserialize_serializeUser, Option.map_some, Record.stored]
  | friend x =>
    have hget : dbs.friends.get (keyFriend x.userId x.friendId) = some (serializeFriend x) := hat
    simp only [Record.read, hget, Option.bind_some, deserialize_serializeFriend, Option.map_some,
      Record.stored]
  | friendRequest x =>
    have hget : dbs.friends.get (keyFriendReq x.requestId) = some (serializeRequest x) := hat
    simp only [Record.read, FriendStore.getRequest, if_neg hnamed, hget, Option.bind_some,
      deserialize_serializeRequest, Option.map_some, Record.stored]
  | message x =>
    have hget : dbs.messages.get (keyMsg x.msgId) = some (.message x) := hat
    simp only [Record.read, Chat.getById, if_neg hnamed, hget, Option.map_some, Record.stored]
  | file x =>
    have hget : dbs.files.get (keyFile x.fileId) = some (.file x) := hat
    simp only [Record.read, FileStore.getById, if_neg hnamed, hget, Option.map_some, Record.stored]
  | uploadSession x =>
    have hget : dbs.files.get (keyUpload x.uploadId) = some (.session x) := hat
    simp only [Record.read, FileStore.getUploadSession, if_neg hnamed, hget, Option.map_some,
      Record.stored]

theorem Record.put_at (dbs : Databases) (r : Record) : r.At (r.put dbs) := by
  cases r <;> exact OrderedMap.get_put_self

/-! One lemma for each store that reads, changes and writes. -/

theorem updateProfile_put {x : UserData} {nickname avatarUrl signature : Bytes} {now : Int}
    (hnamed : (Record.user x).Named) (hat : (Record.user x).At dbs) :
    (AuthService.updateProfile dbs.users x.userId nickname avatarUrl signature now).1 =
      dbs.users.put (keyUser x.userId)
        (serializeUser (AuthService.withProfile nickname avatarUrl signature now x.stored)) := by
  have hread : UserStore.getById dbs.users x.userId = some x.stored := by
    have hget : dbs.users.get (keyUser x.userId) = some (serializeUser x) := hat
    rw [UserStore.getById, if_neg hnamed, hget, Option.bind_some, deserialize_serializeUser]
  -- neither the id nor the name of the record changes
  have hupdate : UserStore.update dbs.users
      (AuthService.withProfile nickname avatarUrl signature now x.stored) =
      (dbs.users.put (keyUser x.userId) (serializeUser
        (AuthService.withProfile nickname avatarUrl signature now x.stored)), true) := by
    have hagain : UserStore.getById dbs.users
        (AuthService.withProfile nickname avatarUrl signature now x.stored).userId =
        some x.stored := hread
    have hname : x.stored.username =
        (AuthService.withProfile nickname avatarUrl signature now x.stored).username := rfl
    rw [UserStore.update, hagain]
    simp only [hname, ne_eq, not_true_eq_false, if_false]
    rfl
  simp only [AuthService.updateProfile, hread, hupdate, if_true]

theorem updateFriend_put {x : FriendData} {f : FriendData → FriendData}
    (hnamed : (Record.friend x).Named) (hat : (Record.friend x).At dbs) :
    (FriendStore.updateFriend dbs.friends x.userId x.friendId f).1 =
      dbs.friends.put (keyFriend x.userId x.friendId) (serializeFriend (f x.stored)) := by
  have hget : dbs.friends.get (keyFriend x.userId x.friendId) = some (serializeFriend x) := hat
  simp only [FriendStore.updateFriend, hnamed.1, hnamed.2, or_self, if_false, hget,
    Option.bind_some, deserialize_serializeFriend]

theorem updateRequestStatus_put {x : FriendRequestData} {status : Int}
    (hnamed : (Record.friendRequest x).Named) (hat : (Record.friendRequest x).At dbs) :
    (FriendStore.updateRequestStatus dbs.friends x.requestId status).1 =
      dbs.friends.put (keyFriendReq x.requestId)
        (serializeRequest { x.stored with status := status }) := by
  have hget : dbs.friends.get (keyFriendReq x.requestId) = some (serializeRequest x) := hat
  simp only [FriendStore.updateRequestStatus, FriendStore.getRequest, if_neg hnamed, hget,
    Option.bind_some, deserialize_serializeRequest]

/-- The rewritten record is written under the key of the old one, and nothing else changes. -/
theorem Rewrite.apply_eq (hnamed : w.before.Named) (hat : w.before.At dbs) :
    w.apply dbs = w.written.put dbs := by
  cases w with
  | updateProfile x nickname avatarUrl signature now =>
    simp only [Rewrite.apply, updateProfile_put hnamed hat]
    rfl
  | updateRemark x remark =>
    simp only [Rewrite.apply, FriendStore.updateRemark, updateFriend_put hnamed hat]
    rfl
  | moveFriend x toGroupId =>
    simp only [Rewrite.apply, FriendStore.moveFriend, updateFriend_put hnamed hat]
    rfl
  | updateRequestStatus x status =>
    simp only [Rewrite.apply, updateRequestStatus_put hnamed hat]
    rfl
  | markRecalled x recallAt =>
    have hget : dbs.messages.get (keyMsg x.msgId) = some (.message x) := hat
    have hne : x.msgId ≠ [] := hnamed
    simp only [Rewrite.apply, Chat.markRecalled, Chat.getById, if_neg hne, hget]
    rfl
  | updateUploadSessionBytes x bytesWritten =>
    have hget : dbs.files.get (keyUpload x.uploadId) = some (.session x) := hat
    have hne : x.uploadId ≠ [] := hnamed
    simp only [Rewrite.apply, FileStore.updateUploadSessionBytes, FileStore.getUploadSession,
      FileStore.saveUploadSession, if_neg hne, hget]
    rfl

/-- What is written is read as what was meant when the record is rewritten exactly. -/
theorem Rewrite.stored_written_iff (hw : w.meant.InTypes) :
    w.written.stored = w.meant ↔ w.Exact := by
  cases w with
  | updateProfile x nickname avatarUrl signature now =>
    simp only [Rewrite.written, Record.stored, Rewrite.meant, Record.user.injEq]
    exact (userCodec.rewrites_iff_kept _ x).symm
  | updateRemark x remark =>
    simp only [Rewrite.written, Record.stored, Rewrite.meant, Record.friend.injEq]
    exact (friendCodec.rewrites_iff_kept (fun d => { d with remark := remark }) x).symm
  | moveFriend x toGroupId =>
    simp only [Rewrite.written, Record.stored, Rewrite.meant, Record.friend.injEq]
    exact (friendCodec.rewrites_iff_kept (fun d => { d with groupId := toGroupId }) x).symm
  | updateRequestStatus x status =>
    simp only [Rewrite.written, Record.stored, Rewrite.meant, Record.friendRequest.injEq]
    exact (requestCodec.rewrites_iff_kept (fun q => { q with status := status }) x).symm
  | markRecalled x recallAt => exact iff_of_true rfl ((Rewrite.exact_iff hw).mpr trivial)
  | updateUploadSessionBytes x bytesWritten =>
    exact iff_of_true rfl ((Rewrite.exact_iff hw).mpr trivial)

end

/-- A function of the stores that rewrites a record writes under its key alone, and what is read
there afterwards is the record with the change that was meant, and no other, exactly when the times
that are read as an `int` fit one. -/
theorem rewrites_in_place (dbs : Databases) (w : Rewrite) (hnamed : w.before.Named)
    (hat : w.before.At dbs) (hw : w.meant.InTypes) :
    w.apply dbs = w.written.put dbs ∧
      (w.meant.read (w.apply dbs) = some w.meant ↔ w.meant.TimesShort) := by
  have happly := Rewrite.apply_eq hnamed hat
  refine ⟨happly, ?_⟩
  -- the change leaves the ids of the record alone
  have hkey : w.meant.read (w.apply dbs) = w.written.read (w.apply dbs) := by
    cases w <;> rfl
  have hnamed' : w.written.Named := by
    cases w <;> exact hnamed
  have hread := Record.read_at hnamed' (Record.put_at dbs w.written)
  rw [hkey, happly, hread, Option.some.injEq]
  exact (Rewrite.stored_written_iff hw).trans (Rewrite.exact_iff hw)

/-- Two friends, the first of which gets a remark. -/
def friendsOfU : Databases :=
  { friends := (OrderedMap.empty.put (keyFriend (str "u") (str "f"))
      (serializeFriend { userId := str "u", friendId := str "f", addedAt := 1000 })).put
        (keyFriend (str "u") (str "g"))
        (serializeFriend { userId := str "u", friendId := str "g", addedAt := 1000 }) }

theorem rewrites_in_place_remark :
    (Record.friend { userId := str "u", friendId := str "f", addedAt := 1000, remark := str "r" }).read
        ((Rewrite.updateRemark { userId := str "u", friendId := str "f", addedAt := 1000 }
          (str "r")).apply friendsOfU) =
      some (Record.friend
        { userId := str "u", friendId := str "f", addedAt := 1000, remark := str "r" }) := by
  have hkeys : keyFriend (str "u") (str "f") ≠ keyFriend (str "u") (str "g") := by decide
  have hget : friendsOfU.friends.get (keyFriend (str "u") (str "f")) =
      some (serializeFriend { userId := str "u", friendId := str "f", addedAt := 1000 }) := by
    rw [friendsOfU, OrderedMap.get_put_ne hkeys, OrderedMap.get_put_self]
  have h := rewrites_in_place friendsOfU
    (.updateRemark { userId := str "u", friendId := str "f", addedAt := 1000 } (str "r"))
    ⟨by decide, by decide⟩ hget (show Fits 64 1000 by decide)
  exact h.2.mpr (show Fits 32 1000 by decide)

end SwiftChat
