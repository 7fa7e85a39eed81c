import SwiftChat.Base.Faults
import SwiftChat.Chat.GroupChange

/-! Founding a group and handing it over, when the writes of the store may fail. -/
namespace SwiftChat.Chat
open Base

/-- A call of the group store. All but the first two make one write. -/
inductive GroupCall where
  | getGroup (groupId : Bytes)
  | isMember (groupId userId : Bytes)
  | createGroup (data : GroupData)
  | deleteGroup (groupId : Bytes)
  | addMember (groupId : Bytes) (member : GroupMemberData)
  | updateMemberRole (groupId userId : Bytes) (role : Int)
  | updateGroupOwner (groupId newOwnerId : Bytes)

abbrev CallReply : GroupCall → Type
  | .getGroup _ => Option GroupData
  | _ => Bool

def callExec : (o : GroupCall) → GroupDb → GroupDb × CallReply o
  | .getGroup groupId, db => (db, GroupStore.getGroup db groupId)
  | .isMember groupId userId, db => (db, GroupStore.isMember db groupId userId)
  | .createGroup data, db => GroupStore.createGroup db data
  | .deleteGroup groupId, db => GroupStore.deleteGroup db groupId
  | .addMember groupId member, db => GroupStore.addMember db groupId member
  | .updateMemberRole groupId userId role, db => GroupStore.updateMemberRole db groupId userId role
  | .updateGroupOwner groupId newOwnerId, db => GroupStore.updateGroupOwner db groupId newOwnerId

/-- A call whose write fails writes nothing. -/
def callFail : (o : GroupCall) → Option (Unit → GroupDb → GroupDb × CallReply o)
  | .getGroup _ => none
  | .isMember _ _ => none
  | .createGroup _ => some fun _ db => (db, false)
  | .deleteGroup _ => some fun _ db => (db, false)
  | .addMember _ _ => some fun _ db => (db, false)
  | .updateMemberRole _ _ _ => some fun _ db => (db, false)
  | .updateGroupOwner _ _ => some fun _ db => (db, false)

abbrev CallProg (α : Type) := Prog GroupCall CallReply α

/-- One entry for each call that writes, in order. -/
abbrev WriteTape := List (Option Unit)

def runCalls {α : Type} (p : CallProg α) (tape : WriteTape) (db : GroupDb) : GroupDb × α :=
  p.runFaulty callExec callFail tape db

namespace CallProg

/-- The three writes of a transfer, each looked at. -/
def handOver (groupId oldOwnerId newOwnerId : Bytes) : CallProg ErrorCode :=
  .act (.updateMemberRole groupId oldOwnerId roleMember) fun demoted =>
    if ¬ demoted then .ret .internalError
    else .act (.updateMemberRole groupId newOwnerId roleOwner) fun promoted =>
      if ¬ promoted then .ret .internalError
      else .act (.updateGroupOwner groupId newOwnerId) fun changed =>
        .ret (if changed then .ok else .internalError)

def transferOwner (groupId oldOwnerId newOwnerId : Bytes) : CallProg ErrorCode :=
  if groupId = [] ∨ oldOwnerId = [] ∨ newOwnerId = [] then .ret .invalidParam
  else .act (.getGroup groupId) fun
    | none => .ret .groupNotFound
    | some g =>
      if g.ownerId ≠ oldOwnerId then .ret .notGroupOwner
      else .act (.isMember groupId newOwnerId) fun found =>
        if ¬ found then .ret .notGroupMember
        else handOver groupId oldOwnerId newOwnerId

/-- The loop over the other members; whether one could be added is not looked at. -/
def addMembers (groupId : Bytes) (now : Int) (result : GroupService.CreateGroupResult) :
    List Bytes → CallProg GroupService.CreateGroupResult
  | [] => .ret result
  | uid :: ids =>
    .act (.addMember groupId { userId := uid, role := roleMember, joinedAt := now }) fun _ =>
      addMembers groupId now result ids

def createGroup (creatorId groupName avatarUrl : Bytes) (memberIds : List Bytes)
    (groupRandom : RandomString 12) (now : Int) : CallProg GroupService.CreateGroupResult :=
  if creatorId = [] then .ret { errorCode := .invalidParam }
  else
    let unique := GroupService.uniqueMembers creatorId memberIds
    if unique.length < minGroupMembers then .ret { errorCode := .groupMembersTooFew }
    else
      let groupId := generateShortId (str "g_") groupRandom
      .act (.createGroup (GroupService.newGroup groupId creatorId groupName avatarUrl unique now))
        fun created =>
          if ¬ created then .ret { errorCode := .internalError }
          else .act (.addMember groupId
              { userId := creatorId, role := roleOwner, joinedAt := now }) fun added =>
            if ¬ added then
              .act (.deleteGroup groupId) fun _ => .ret { errorCode := .internalError }
            else addMembers groupId now { errorCode := .ok, groupId := groupId }
              (unique.filter (· ≠ creatorId))

end CallProg

variable {db db' : GroupDb} {g w old new c name avatar : Bytes} {ids : List Bytes}
  {r : RandomString 12} {now : Int} {tape : WriteTape} {data : GroupData} {m mo : GroupMemberData}
  {G : Group} {e : ErrorCode}

/-- What a transfer looks at before it writes. -/
def TransferAllowed (db : GroupDb) (groupId oldOwnerId newOwnerId : Bytes) : Prop :=
  oldOwnerId ≠ [] ∧ (GroupStore.getGroup db groupId).map GroupData.ownerId = some oldOwnerId ∧
    GroupStore.isMember db groupId newOwnerId = true

/-- A transfer that is not allowed answers an error and writes nothing. -/
theorem runCalls_refused (tape : WriteTape) (h : ¬ TransferAllowed db g old new) :
    ∃ e, e ≠ .ok ∧ runCalls (CallProg.transferOwner g old new) tape db = (db, e) := by
  unfold runCalls CallProg.transferOwner
  split
  · exact ⟨_, by decide, rfl⟩
  · rename_i hne
    push Not at hne
    rw [Prog.runFaulty_sure rfl]
    simp only [callExec]
    cases hg : GroupStore.getGroup db g with
    | none => exact ⟨_, by decide, rfl⟩
    | some data =>
      simp only
      split
      · exact ⟨_, by decide, rfl⟩
      · rename_i howner
        rw [Prog.runFaulty_sure rfl]
        by_cases hmem : GroupStore.isMember db g new = true
        · refine absurd ⟨hne.2.1, ?_, hmem⟩ h
          rw [hg, Option.map_some, not_not.mp howner]
        · simp only [callExec, hmem]
          exact ⟨_, by decide, rfl⟩

theorem runCalls_allowed (h : TransferAllowed db g old new) :
    runCalls (CallProg.transferOwner g old new) tape db =
      runCalls (CallProg.handOver g old new) tape db := by
  obtain ⟨hold, hg, hmem⟩ := h
  obtain ⟨data, hg, howner⟩ := Option.map_eq_some_iff.mp hg
  have hne : ¬ (g = [] ∨ old = [] ∨ new = []) := by
    rintro (rfl | rfl | rfl)
    · simp [GroupStore.getGroup] at hg
    · exact hold rfl
    · simp [GroupStore.isMember] at hmem
  unfold runCalls CallProg.transferOwner
  rw [if_neg hne, Prog.runFaulty_sure rfl]
  simp only [callExec, hg]
  rw [if_neg (not_not_intro howner), Prog.runFaulty_sure rfl]
  simp only [callExec, hmem, not_true_eq_false, if_false]

theorem runCalls_handOver :
    runCalls (CallProg.handOver g old new) [] db =
      let (db, demoted) := GroupStore.updateMemberRole db g old roleMember
      if ¬ demoted then (db, .internalError)
      else
        let (db, promoted) := GroupStore.updateMemberRole db g new roleOwner
        if ¬ promoted then (db, .internalError)
        else GroupService.storeCode (GroupStore.updateGroupOwner db g new) := by
  unfold runCalls CallProg.handOver
  rw [Prog.runFaulty_end]
  generalize hdemote : callExec (.updateMemberRole g old roleMember) db = d
  change GroupStore.updateMemberRole db g old roleMember = d at hdemote
  rw [hdemote]
  rcases d with ⟨db₁, _ | _⟩
  · rfl
  · simp only [not_true_eq_false, if_false, Prog.runFaulty_end]
    generalize hpromote : callExec (.updateMemberRole g new roleOwner) db₁ = d
    change GroupStore.updateMemberRole db₁ g new roleOwner = d at hpromote
    rw [hpromote]
    rcases d with ⟨db₂, _ | _⟩
    · rfl
    · rfl

/-- Without faults the group is handed over as by the service. -/
theorem runCalls_transferOwner :
    runCalls (CallProg.transferOwner g old new) [] db = GroupService.transferOwner db g old new := by
  unfold runCalls CallProg.transferOwner GroupService.transferOwner
  split
  · rfl
  · rw [Prog.runFaulty_end]
    simp only [callExec]
    cases GroupStore.getGroup db g with
    | none => rfl
    | some data =>
      simp only
      split
      · rfl
      · rw [Prog.runFaulty_end]
        cases hmem : GroupStore.isMember db g new with
        | false => simp [callExec, hmem]
        | true =>
          simp only [callExec, hmem, not_true_eq_false, if_false]
          exact runCalls_handOver

theorem runCalls_addMembers (result : GroupService.CreateGroupResult) :
    runCalls (CallProg.addMembers g now result ids) [] db =
      (GroupService.addMembers db g ids now, result) := by
  induction ids generalizing db with
  | nil => rfl
  | cons uid ids ih =>
    simp only [runCalls, CallProg.addMembers, Prog.runFaulty_end, callExec, GroupService.addMembers,
      List.foldl_cons] at ih ⊢
    exact ih

/-- Without faults the group is founded as by the service. -/
theorem runCalls_createGroup :
    runCalls (CallProg.createGroup c name avatar ids r now) [] db =
      GroupService.createGroup db c name avatar ids r now := by
  unfold runCalls CallProg.createGroup GroupService.createGroup
  split
  · rfl
  · simp only
    split
    · rfl
    · rw [Prog.runFaulty_end]
      generalize hcreate : callExec (.createGroup _) db = d
      change GroupStore.createGroup db _ = d at hcreate
      rw [hcreate]
      rcases d with ⟨db₁, _ | _⟩
      · rfl
      · simp only [not_true_eq_false, if_false, Prog.runFaulty_end]
        generalize hadd : callExec (.addMember _ _) db₁ = d
        change GroupStore.addMember db₁ _ _ = d at hadd
        rw [hadd]
        rcases d with ⟨db₂, _ | _⟩
        · rfl
        · exact runCalls_addMembers _

end SwiftChat.Chat
