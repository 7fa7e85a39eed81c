import SwiftChat.Base.Interleave
import SwiftChat.Chat.ChatService

/-! The group operations as programs of single database actions. -/
namespace SwiftChat.Chat
open Base

abbrev GroupBatch := List (OrderedMap.BatchOp Bytes GroupValue)

/-- An atomic action on the databases: a read, an iteration over one snapshot, a write of a batch,
or the deletion of a conversation entry. -/
inductive GroupAct where
  | get (k : Bytes)
  | scan (pfx : Bytes)
  | write (batch : GroupBatch)
  | deleteConv (userId chatId : Bytes)

def GroupReply : GroupAct → Type
  | .get _ => Option GroupValue
  | .scan _ => List (Bytes × GroupValue)
  | .write _ => Unit
  | .deleteConv _ _ => Unit

def groupExec : (o : GroupAct) → ChatState → ChatState × GroupReply o
  | .get k, s => (s, s.groups.get k)
  | .scan pfx, s => (s, s.groups.scan pfx)
  | .write batch, s => ({ s with groups := s.groups.write batch }, ())
  | .deleteConv userId chatId, s => ({ s with convs := (deleteConv s.convs userId chatId).1 }, ())

/-- What a group operation answers. -/
inductive GroupAnswer where
  | code (e : ErrorCode)
  | deleted (r : ChatService.DeleteConversationResult)
deriving DecidableEq

abbrev GroupProg := Prog GroupAct GroupReply GroupAnswer

def GroupValue.found (v : Option GroupValue) : Bool := v.isSome

def GroupValue.toGroup : Option GroupValue → Option GroupData
  | some (.group g) => some g
  | _ => none

def GroupValue.toMember : Option GroupValue → Option GroupMemberData
  | some (.member m) => some m
  | _ => none

/-- The batch of `AddMember`. -/
def addBatch (groupId : Bytes) (member : GroupMemberData) (g : GroupData) : GroupBatch :=
  [.put (keyGroupMember groupId member.userId) (.member member),
    .put (keyUserGroup member.userId groupId) .empty,
    .put (keyGroup groupId) (.group { g with memberCount := g.memberCount + 1, updatedAt := 0 })]

/-- The batch of `RemoveMember`. -/
def removeBatch (groupId userId : Bytes) (g : GroupData) : GroupBatch :=
  [.delete (keyGroupMember groupId userId), .delete (keyUserGroup userId groupId),
    .put (keyGroup groupId) (.group { g with memberCount := max 0 (g.memberCount - 1) })]

/-- The batch of `DissolveGroup`. -/
def dissolveBatch (groupId : Bytes) (userIds : List Bytes) (g : GroupData) : GroupBatch :=
  .put (keyGroup groupId) (.group { g with status := 1, memberCount := 0 }) ::
    GroupStore.dropMembers groupId userIds

/-- The user ids in the keys of a snapshot of the memberships. -/
def idsOf (pfx : Bytes) (entries : List (Bytes × GroupValue)) : List Bytes :=
  (entries.filter (fun e => pfx.length < e.1.length)).map (fun e => e.1.drop pfx.length)

/-- The records in a snapshot of the memberships, cut to a page. -/
def memberPage (entries : List (Bytes × GroupValue)) (page pageSize : Int) : List GroupMemberData :=
  let all := entries.filterMap fun e => GroupValue.toMember (some e.2)
  let page := if page ≤ 0 then 1 else page
  let pageSize := if pageSize ≤ 0 then 50 else pageSize
  let offset := (page - 1) * pageSize
  if offset ≥ all.length then []
  else
    let last := min (offset + pageSize) all.length
    (all.drop offset.toNat).take (last - offset).toNat

namespace GroupProg

def getGroup (groupId : Bytes) (next : Option GroupData → GroupProg) : GroupProg :=
  if groupId = [] then next none
  else .act (.get (keyGroup groupId)) fun v => next (GroupValue.toGroup v)

def isMember (groupId userId : Bytes) (next : Bool → GroupProg) : GroupProg :=
  if groupId = [] ∨ userId = [] then next false
  else .act (.get (keyGroupMember groupId userId)) fun v => next (GroupValue.found v)

def getMember (groupId userId : Bytes) (next : Option GroupMemberData → GroupProg) : GroupProg :=
  if groupId = [] ∨ userId = [] then next none
  else .act (.get (keyGroupMember groupId userId)) fun v => next (GroupValue.toMember v)

def updateGroup (groupId groupName avatarUrl announcement : Bytes) (updatedAt : Int)
    (next : Bool → GroupProg) : GroupProg :=
  getGroup groupId fun
    | none => next false
    | some g =>
      let g := { g with
        groupName := if groupName = [] then g.groupName else groupName
        avatarUrl := if avatarUrl = [] then g.avatarUrl else avatarUrl
        announcement := announcement
        updatedAt := if updatedAt ≠ 0 then updatedAt else g.updatedAt }
      .act (.write [.put (keyGroup groupId) (.group g)]) fun _ => next true

def updateGroupOwner (groupId newOwnerId : Bytes) (next : Bool → GroupProg) : GroupProg :=
  if newOwnerId = [] then next false
  else getGroup groupId fun
    | none => next false
    | some g =>
      .act (.write [.put (keyGroup groupId) (.group { g with ownerId := newOwnerId })]) fun _ =>
        next true

def dissolveGroup (groupId : Bytes) (next : Bool → GroupProg) : GroupProg :=
  getGroup groupId fun
    | none => next false
    | some g =>
      if g.status = 1 then next true
      else .act (.scan (prefixGroupMember groupId)) fun entries =>
        .act (.write (dissolveBatch groupId (idsOf (prefixGroupMember groupId) entries) g)) fun _ =>
          next true

def addMember (groupId : Bytes) (member : GroupMemberData) (next : Bool → GroupProg) : GroupProg :=
  if groupId = [] ∨ member.userId = [] then next false
  else .act (.get (keyGroupMember groupId member.userId)) fun v =>
    if GroupValue.found v then next false
    else getGroup groupId fun
      | none => next false
      | some g => .act (.write (addBatch groupId member g)) fun _ => next true

def removeMember (groupId userId : Bytes) (next : Bool → GroupProg) : GroupProg :=
  if groupId = [] ∨ userId = [] then next false
  else .act (.get (keyGroupMember groupId userId)) fun v =>
    if ¬ GroupValue.found v then next false
    else getGroup groupId fun
      | none => next false
      | some g => .act (.write (removeBatch groupId userId g)) fun _ => next true

def updateMemberRole (groupId userId : Bytes) (role : Int) (next : Bool → GroupProg) : GroupProg :=
  getMember groupId userId fun
    | none => next false
    | some m =>
      .act (.write [.put (keyGroupMember groupId userId) (.member { m with role := role })]) fun _ =>
        next true

/-- The loop of `InviteMembers`. -/
def inviteLoop (groupId : Bytes) (now : Int) : List Bytes → GroupProg → GroupProg
  | [], next => next
  | uid :: ids, next =>
    if uid = [] then inviteLoop groupId now ids next
    else isMember groupId uid fun found =>
      if found then inviteLoop groupId now ids next
      else addMember groupId { userId := uid, role := roleMember, joinedAt := now } fun _ =>
        inviteLoop groupId now ids next

/-- The loop at the end of `DeleteConversation`. -/
def deleteConvs (chatId : Bytes) : List GroupMemberData → GroupProg → GroupProg
  | [], next => next
  | m :: members, next => .act (.deleteConv m.userId chatId) fun _ => deleteConvs chatId members next

end GroupProg

/-- A group operation that runs beside others on the same group. -/
inductive GroupTask where
  | inviteMembers (inviterId : Bytes) (memberIds : List Bytes) (now : Int)
  | removeMember (operatorId memberId : Bytes)
  | leaveGroup (userId : Bytes)
  | updateGroup (operatorId groupName avatarUrl announcement : Bytes) (now : Int)
  | transferOwner (oldOwnerId newOwnerId : Bytes)
  | deleteConversation (userId : Bytes)

namespace GroupTask

def answer (e : ErrorCode) : GroupProg := .ret (.code e)

def storeAnswer (done : Bool) : GroupProg := answer (if done then .ok else .internalError)

def inviteProg (groupId inviterId : Bytes) (memberIds : List Bytes) (now : Int) : GroupProg :=
  if groupId = [] ∨ inviterId = [] then answer .invalidParam
  else GroupProg.getGroup groupId fun
    | none => answer .groupNotFound
    | some _ => GroupProg.isMember groupId inviterId fun found =>
      if ¬ found then answer .notGroupMember
      else GroupProg.inviteLoop groupId now memberIds (answer .ok)

def removeProg (groupId operatorId memberId : Bytes) : GroupProg :=
  if groupId = [] ∨ operatorId = [] ∨ memberId = [] then answer .invalidParam
  else GroupProg.getGroup groupId fun
    | none => answer .groupNotFound
    | some _ => GroupProg.isMember groupId memberId fun found =>
      if ¬ found then answer .notGroupMember
      else GroupProg.getMember groupId operatorId fun
        | none => answer .notGroupMember
        | some op => GroupProg.getMember groupId memberId fun
          | none => answer .notGroupMember
          | some target =>
            if target.role = roleOwner then answer .kickNotAllowed
            else if op.role ≠ roleOwner ∧ op.role ≠ roleAdmin then answer .permissionDenied
            else if op.role = roleAdmin ∧ target.role = roleAdmin then answer .kickNotAllowed
            else GroupProg.removeMember groupId memberId storeAnswer

def leaveProg (groupId userId : Bytes) : GroupProg :=
  if groupId = [] ∨ userId = [] then answer .invalidParam
  else GroupProg.getGroup groupId fun
    | none => answer .groupNotFound
    | some g =>
      if g.ownerId = userId then answer .ownerCannotLeave
      else GroupProg.isMember groupId userId fun found =>
        if ¬ found then answer .notGroupMember
        else GroupProg.removeMember groupId userId storeAnswer

/-- The member record is read only for operators that are not the owner. -/
def updateProg (groupId operatorId groupName avatarUrl announcement : Bytes) (now : Int) :
    GroupProg :=
  if groupId = [] ∨ operatorId = [] then answer .invalidParam
  else GroupProg.getGroup groupId fun
    | none => answer .groupNotFound
    | some g =>
      let name := if groupName ≠ [] then groupName else g.groupName
      let avatar := if avatarUrl ≠ [] then avatarUrl else g.avatarUrl
      let update := GroupProg.updateGroup groupId name avatar announcement now storeAnswer
      if g.ownerId ≠ operatorId then
        GroupProg.getMember groupId operatorId fun m =>
          if m.all (fun m => m.role ≠ roleAdmin) then answer .permissionDenied else update
      else update

def transferProg (groupId oldOwnerId newOwnerId : Bytes) : GroupProg :=
  if groupId = [] ∨ oldOwnerId = [] ∨ newOwnerId = [] then answer .invalidParam
  else GroupProg.getGroup groupId fun
    | none => answer .groupNotFound
    | some g =>
      if g.ownerId ≠ oldOwnerId then answer .notGroupOwner
      else GroupProg.isMember groupId newOwnerId fun found =>
        if ¬ found then answer .notGroupMember
        else GroupProg.updateMemberRole groupId oldOwnerId roleMember fun demoted =>
          if ¬ demoted then answer .internalError
          else GroupProg.updateMemberRole groupId newOwnerId roleOwner fun promoted =>
            if ¬ promoted then answer .internalError
            else GroupProg.updateGroupOwner groupId newOwnerId storeAnswer

def deleteProg (groupId userId : Bytes) : GroupProg :=
  if userId = [] ∨ groupId = [] then .ret (.deleted { error := .invalidParam })
  else GroupProg.getGroup groupId fun
    | none => .ret (.deleted { error := .groupNotFound })
    | some g =>
      if g.ownerId ≠ userId then .ret (.deleted { error := .notGroupOwner })
      else if g.status = 1 then .ret (.deleted { success := true })
      else .act (.scan (prefixGroupMember groupId)) fun entries =>
        GroupProg.dissolveGroup groupId fun dissolved =>
          if ¬ dissolved then .ret (.deleted { error := .internalError })
          else GroupProg.deleteConvs groupId (memberPage entries 0 10000)
            (.ret (.deleted { success := true }))

def prog (groupId : Bytes) : GroupTask → GroupProg
  | .inviteMembers inviterId memberIds now => inviteProg groupId inviterId memberIds now
  | .removeMember operatorId memberId => removeProg groupId operatorId memberId
  | .leaveGroup userId => leaveProg groupId userId
  | .updateGroup operatorId groupName avatarUrl announcement now =>
    updateProg groupId operatorId groupName avatarUrl announcement now
  | .transferOwner oldOwnerId newOwnerId => transferProg groupId oldOwnerId newOwnerId
  | .deleteConversation userId => deleteProg groupId userId

/-- The operation as a single call. -/
def call (groupId : Bytes) (s : ChatState) : GroupTask → ChatState × GroupAnswer
  | .inviteMembers inviterId memberIds now =>
    let (db, e) := GroupService.inviteMembers s.groups groupId inviterId memberIds now
    ({ s with groups := db }, .code e)
  | .removeMember operatorId memberId =>
    let (db, e) := GroupService.removeMember s.groups groupId operatorId memberId
    ({ s with groups := db }, .code e)
  | .leaveGroup userId =>
    let (db, e) := GroupService.leaveGroup s.groups groupId userId
    ({ s with groups := db }, .code e)
  | .updateGroup operatorId groupName avatarUrl announcement now =>
    let (db, e) := GroupService.updateGroup s.groups groupId operatorId groupName avatarUrl
      announcement now
    ({ s with groups := db }, .code e)
  | .transferOwner oldOwnerId newOwnerId =>
    let (db, e) := GroupService.transferOwner s.groups groupId oldOwnerId newOwnerId
    ({ s with groups := db }, .code e)
  | .deleteConversation userId =>
    let (s, r) := ChatService.deleteConversation s userId groupId .group
    (s, .deleted r)

end GroupTask

/-! Without interruption, the programs are the calls. -/

section
variable {s : ChatState} {groupId userId : Bytes}

/-- The state with another group database. -/
def ChatState.withGroups (s : ChatState) (db : GroupDb) : ChatState := { s with groups := db }

@[simp] theorem ChatState.withGroups_groups (db : GroupDb) : (s.withGroups db).groups = db := rfl

@[simp] theorem ChatState.withGroups_self : s.withGroups s.groups = s := rfl

@[simp] theorem ChatState.withGroups_withGroups (db db' : GroupDb) :
    (s.withGroups db).withGroups db' = s.withGroups db' := rfl

@[simp] theorem groupExec_get (k : Bytes) : groupExec (.get k) s = (s, s.groups.get k) := rfl

@[simp] theorem groupExec_scan (pfx : Bytes) : groupExec (.scan pfx) s = (s, s.groups.scan pfx) :=
  rfl

@[simp] theorem groupExec_write (batch : GroupBatch) :
    groupExec (.write batch) s = (s.withGroups (s.groups.write batch), ()) := rfl

theorem memberPage_eq (h : groupId ≠ []) (db : GroupDb) (page pageSize : Int) :
    memberPage (db.scan (prefixGroupMember groupId)) page pageSize =
      (GroupStore.getMembers db groupId page pageSize).1 := by
  have hall : GroupStore.allMembers db groupId =
      (db.scan (prefixGroupMember groupId)).filterMap fun e => GroupValue.toMember (some e.2) := by
    unfold GroupStore.allMembers
    refine List.filterMap_congr ?_
    rintro ⟨k, v⟩ _
    cases v <;> rfl
  simp only [GroupStore.getMembers, h, if_false, memberPage, hall]
  generalize (if page ≤ 0 then (1 : Int) else page) = p
  generalize (if pageSize ≤ 0 then (50 : Int) else pageSize) = q
  split <;> rfl

namespace GroupProg

@[simp] theorem run_getGroup (next : Option GroupData → GroupProg) :
    (getGroup groupId next).run groupExec s =
      (next (GroupStore.getGroup s.groups groupId)).run groupExec s := by
  unfold getGroup GroupStore.getGroup
  by_cases h : groupId = []
  · simp [h]
  · simp only [h, if_false, Prog.run_act, groupExec_get]
    cases s.groups.get (keyGroup groupId) with
    | none => rfl
    | some v => cases v <;> rfl

@[simp] theorem run_isMember (next : Bool → GroupProg) :
    (isMember groupId userId next).run groupExec s =
      (next (GroupStore.isMember s.groups groupId userId)).run groupExec s := by
  unfold isMember GroupStore.isMember
  by_cases h : groupId = [] ∨ userId = []
  · simp [h]
  · simp [h, GroupValue.found]

@[simp] theorem run_getMember (next : Option GroupMemberData → GroupProg) :
    (getMember groupId userId next).run groupExec s =
      (next (GroupStore.getMember s.groups groupId userId)).run groupExec s := by
  unfold getMember GroupStore.getMember
  by_cases h : groupId = [] ∨ userId = []
  · simp [h]
  · simp only [h, if_false, Prog.run_act, groupExec_get]
    cases s.groups.get (keyGroupMember groupId userId) with
    | none => rfl
    | some v => cases v <;> rfl

@[simp] theorem run_updateGroup (name avatar text : Bytes) (now : Int) (next : Bool → GroupProg) :
    (updateGroup groupId name avatar text now next).run groupExec s =
      (next (GroupStore.updateGroup s.groups groupId name avatar text now).2).run groupExec
        (s.withGroups (GroupStore.updateGroup s.groups groupId name avatar text now).1) := by
  unfold updateGroup GroupStore.updateGroup
  rw [run_getGroup]
  cases GroupStore.getGroup s.groups groupId with
  | none => rfl
  | some g => simp

@[simp] theorem run_updateGroupOwner (next : Bool → GroupProg) :
    (updateGroupOwner groupId userId next).run groupExec s =
      (next (GroupStore.updateGroupOwner s.groups groupId userId).2).run groupExec
        (s.withGroups (GroupStore.updateGroupOwner s.groups groupId userId).1) := by
  unfold updateGroupOwner GroupStore.updateGroupOwner
  by_cases h : userId = []
  · simp [h]
  · rw [if_neg h, run_getGroup]
    cases GroupStore.getGroup s.groups groupId with
    | none => simp
    | some g => simp [h]

@[simp] theorem run_dissolveGroup (next : Bool → GroupProg) :
    (dissolveGroup groupId next).run groupExec s =
      (next (GroupStore.dissolveGroup s.groups groupId).2).run groupExec
        (s.withGroups (GroupStore.dissolveGroup s.groups groupId).1) := by
  unfold dissolveGroup GroupStore.dissolveGroup
  rw [run_getGroup]
  cases GroupStore.getGroup s.groups groupId with
  | none => rfl
  | some g =>
    by_cases h : g.status = 1
    · simp [h]
    · simp only [h, if_false, Prog.run_act, groupExec_scan, groupExec_write]
      rfl

@[simp] theorem run_addMember (m : GroupMemberData) (next : Bool → GroupProg) :
    (addMember groupId m next).run groupExec s =
      (next (GroupStore.addMember s.groups groupId m).2).run groupExec
        (s.withGroups (GroupStore.addMember s.groups groupId m).1) := by
  unfold addMember GroupStore.addMember
  by_cases h : groupId = [] ∨ m.userId = []
  · simp [h]
  · simp only [h, if_false, Prog.run_act, groupExec_get]
    by_cases hm : (s.groups.get (keyGroupMember groupId m.userId)).isSome = true
    · simp [hm, GroupValue.found]
    · simp only [GroupValue.found, hm, if_false, run_getGroup, Bool.false_eq_true]
      cases GroupStore.getGroup s.groups groupId with
      | none => rfl
      | some g => simp [addBatch]

@[simp] theorem run_removeMember (next : Bool → GroupProg) :
    (removeMember groupId userId next).run groupExec s =
      (next (GroupStore.removeMember s.groups groupId userId).2).run groupExec
        (s.withGroups (GroupStore.removeMember s.groups groupId userId).1) := by
  unfold removeMember GroupStore.removeMember
  by_cases h : groupId = [] ∨ userId = []
  · simp [h]
  · simp only [h, if_false, Prog.run_act, groupExec_get]
    by_cases hm : (s.groups.get (keyGroupMember groupId userId)).isSome = true
    · have hn : (s.groups.get (keyGroupMember groupId userId)).isNone = false := by simpa using hm
      simp only [GroupValue.found, hm, hn, not_true_eq_false, if_false, run_getGroup,
        Bool.false_eq_true]
      cases GroupStore.getGroup s.groups groupId with
      | none => rfl
      | some g => simp [removeBatch]
    · have hn : (s.groups.get (keyGroupMember groupId userId)).isNone = true := by simpa using hm
      simp [GroupValue.found, hm, hn]

@[simp] theorem run_updateMemberRole (role : Int) (next : Bool → GroupProg) :
    (updateMemberRole groupId userId role next).run groupExec s =
      (next (GroupStore.updateMemberRole s.groups groupId userId role).2).run groupExec
        (s.withGroups (GroupStore.updateMemberRole s.groups groupId userId role).1) := by
  unfold updateMemberRole GroupStore.updateMemberRole
  rw [run_getMember]
  cases GroupStore.getMember s.groups groupId userId with
  | none => rfl
  | some m => simp

@[simp] theorem run_inviteLoop (now : Int) (ids : List Bytes) (next : GroupProg) :
    (inviteLoop groupId now ids next).run groupExec s =
      next.run groupExec (s.withGroups (GroupService.inviteLoop s.groups groupId ids now)) := by
  induction ids generalizing s with
  | nil => rfl
  | cons uid ids ih =>
    rw [inviteLoop, GroupService.inviteLoop, List.foldl_cons, ← GroupService.inviteLoop]
    by_cases h : uid = []
    · simp [h, ih]
    · by_cases hm : GroupStore.isMember s.groups groupId uid = true
      · simp [h, hm, ih]
      · simp [h, hm, ih]

@[simp] theorem run_deleteConvs (members : List GroupMemberData) (next : GroupProg) :
    (deleteConvs groupId members next).run groupExec s =
      next.run groupExec { s with
        convs := members.foldl (fun convs m => (deleteConv convs m.userId groupId).1) s.convs } := by
  induction members generalizing s with
  | nil => rfl
  | cons m members ih =>
    rw [deleteConvs, Prog.run_act, ih]
    rfl

end GroupProg

namespace GroupTask

@[simp] theorem run_answer (e : ErrorCode) : (answer e).run groupExec s = (s, .code e) := rfl

@[simp] theorem run_storeAnswer (done : Bool) :
    (storeAnswer done).run groupExec s = (s, .code (if done then .ok else .internalError)) := rfl

theorem run_inviteProg (inviterId : Bytes) (memberIds : List Bytes) (now : Int) :
    (inviteProg groupId inviterId memberIds now).run groupExec s =
      call groupId s (.inviteMembers inviterId memberIds now) := by
  simp only [inviteProg, call, GroupService.inviteMembers]
  by_cases h : groupId = [] ∨ inviterId = []
  · simp [h]
  · simp only [h, if_false, GroupProg.run_getGroup]
    cases GroupStore.getGroup s.groups groupId with
    | none => rfl
    | some g =>
      by_cases hm : GroupStore.isMember s.groups groupId inviterId = true
      · simp [hm, ChatState.withGroups]
      · simp [hm]

theorem run_removeProg (operatorId memberId : Bytes) :
    (removeProg groupId operatorId memberId).run groupExec s =
      call groupId s (.removeMember operatorId memberId) := by
  simp only [removeProg, call, GroupService.removeMember]
  by_cases h : groupId = [] ∨ operatorId = [] ∨ memberId = []
  · simp [h]
  simp only [h, if_false, GroupProg.run_getGroup]
  cases GroupStore.getGroup s.groups groupId with
  | none => rfl
  | some g =>
    simp only [GroupProg.run_isMember]
    by_cases hm : GroupStore.isMember s.groups groupId memberId = true
    · simp only [hm, not_true_eq_false, if_false, GroupProg.run_getMember]
      cases GroupStore.getMember s.groups groupId operatorId with
      | none => rfl
      | some op =>
        simp only [GroupProg.run_getMember]
        cases GroupStore.getMember s.groups groupId memberId with
        | none => rfl
        | some target =>
          simp only
          split
          · rfl
          split
          · rfl
          split
          · rfl
          · rw [GroupProg.run_removeMember]
            rfl
    · simp [hm]

theorem run_leaveProg (userId : Bytes) :
    (leaveProg groupId userId).run groupExec s =
      call groupId s (.leaveGroup userId) := by
  simp only [leaveProg, call, GroupService.leaveGroup]
  by_cases h : groupId = [] ∨ userId = []
  · simp [h]
  simp only [h, if_false, GroupProg.run_getGroup]
  cases GroupStore.getGroup s.groups groupId with
  | none => rfl
  | some g =>
    by_cases howner : g.ownerId = userId
    · simp [howner]
    · simp only [howner, if_false, GroupProg.run_isMember]
      by_cases hm : GroupStore.isMember s.groups groupId userId = true
      · simp only [hm, not_true_eq_false, if_false, GroupProg.run_removeMember]
        rfl
      · simp [hm]

theorem run_updateProg (operatorId groupName avatarUrl announcement : Bytes) (now : Int) :
    (updateProg groupId operatorId groupName avatarUrl announcement now).run groupExec s =
      call groupId s (.updateGroup operatorId groupName avatarUrl announcement now) := by
  simp only [updateProg, call, GroupService.updateGroup]
  by_cases h : groupId = [] ∨ operatorId = []
  · simp [h]
  simp only [h, if_false, GroupProg.run_getGroup]
  cases GroupStore.getGroup s.groups groupId with
  | none => rfl
  | some g =>
    simp only
    by_cases howner : g.ownerId = operatorId
    · simp only [howner, ne_eq, not_true_eq_false, if_false, false_and, GroupProg.run_updateGroup]
      rfl
    · simp only [howner, ne_eq, not_false_eq_true, if_true, true_and, GroupProg.run_getMember]
      by_cases hrole : (GroupStore.getMember s.groups groupId operatorId).all
          (fun m => ¬ m.role = roleAdmin) = true
      · rw [if_pos hrole, if_pos hrole]
        rfl
      · rw [if_neg hrole, if_neg hrole, GroupProg.run_updateGroup]
        rfl

theorem run_transferProg (oldOwnerId newOwnerId : Bytes) :
    (transferProg groupId oldOwnerId newOwnerId).run groupExec s =
      call groupId s (.transferOwner oldOwnerId newOwnerId) := by
  simp only [transferProg, call, GroupService.transferOwner]
  by_cases h : groupId = [] ∨ oldOwnerId = [] ∨ newOwnerId = []
  · simp [h]
  simp only [h, if_false, GroupProg.run_getGroup]
  cases GroupStore.getGroup s.groups groupId with
  | none => rfl
  | some g =>
    by_cases howner : g.ownerId = oldOwnerId
    · simp only [howner, ne_eq, not_true_eq_false, if_false, GroupProg.run_isMember]
      by_cases hm : GroupStore.isMember s.groups groupId newOwnerId = true
      · simp only [hm, not_true_eq_false, if_false, GroupProg.run_updateMemberRole]
        split
        · simp_all [ChatState.withGroups]
        · simp only [GroupProg.run_updateMemberRole, ChatState.withGroups_groups,
            ChatState.withGroups_withGroups]
          split
          · simp_all [ChatState.withGroups]
          · simp_all [GroupService.storeCode, ChatState.withGroups]
      · simp [hm]
    · simp [howner]

theorem run_deleteProg (userId : Bytes) :
    (deleteProg groupId userId).run groupExec s =
      call groupId s (.deleteConversation userId) := by
  simp only [deleteProg, call, ChatService.deleteConversation]
  by_cases h : userId = [] ∨ groupId = []
  · simp [h]
  simp only [h, if_false, GroupProg.run_getGroup]
  cases hg : GroupStore.getGroup s.groups groupId with
  | none => rfl
  | some g =>
    by_cases howner : g.ownerId = userId
    · by_cases hstatus : g.status = 1
      · simp [howner, hstatus]
      · have hne : groupId ≠ [] := fun he => h (Or.inr he)
        simp only [howner, hstatus, ne_eq, not_true_eq_false, if_false, Prog.run_act,
          groupExec_scan, GroupProg.run_dissolveGroup]
        split
        · simp_all [GroupStore.dissolveGroup]
        · rw [GroupProg.run_deleteConvs]
          simp_all [memberPage_eq hne, ChatState.withGroups]
    · simp [howner]

/-- Run on its own, the program of an operation does what the operation does. -/
theorem run_prog (t : GroupTask) : (t.prog groupId).run groupExec s = t.call groupId s := by
  cases t with
  | inviteMembers => exact run_inviteProg ..
  | removeMember => exact run_removeProg ..
  | leaveGroup => exact run_leaveProg ..
  | updateGroup => exact run_updateProg ..
  | transferOwner => exact run_transferProg ..
  | deleteConversation => exact run_deleteProg ..

end GroupTask
end
end SwiftChat.Chat
