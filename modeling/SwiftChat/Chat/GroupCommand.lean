import SwiftChat.Chat.GroupInvariant

/-! The group operations a client can ask for, and exactly when the group service refuses them. -/
namespace SwiftChat.Chat
open Base

inductive GroupCommand where
  | create (groupName : Bytes) (memberIds : List Bytes)
  | dismiss (groupId : Bytes)
  | inviteMembers (groupId : Bytes) (memberIds : List Bytes)
  | removeMember (groupId memberId : Bytes)
  | leave (groupId : Bytes)
  | getInfo (groupId : Bytes)
  | getMembers (groupId : Bytes) (page pageSize : Int)
  | getUserGroups
deriving DecidableEq

/-- A call of the service as a new store and whether it worked. -/
def outcome (r : GroupDb × ErrorCode) : GroupDb × Bool := (r.1, r.2 = .ok)

namespace GroupCommand

/-- The operation of the service with `u` as the acting user. -/
def actAs (u : Bytes) (db : GroupDb) (r : RandomString 12) (now : Int) :
    GroupCommand → GroupDb × Bool
  | .create groupName memberIds =>
    let (db, result) := GroupService.createGroup db u groupName [] memberIds r now
    (db, result.errorCode = .ok)
  | .dismiss groupId => outcome (GroupService.dismissGroup db groupId u)
  | .inviteMembers groupId memberIds =>
    outcome (GroupService.inviteMembers db groupId u memberIds now)
  | .removeMember groupId memberId => outcome (GroupService.removeMember db groupId u memberId)
  | .leave groupId => outcome (GroupService.leaveGroup db groupId u)
  | .getInfo groupId => (db, (GroupService.getGroupInfo db groupId).isSome)
  | .getMembers .. => (db, true)
  | .getUserGroups => (db, true)

/-- What the state and the arguments must be like for the service to refuse. -/
def Refused (u : Bytes) (db : GroupDb) (r : RandomString 12) : GroupCommand → Prop
  | .create _ memberIds =>
    (GroupService.uniqueMembers u memberIds).length < minGroupMembers ∨
      (db.get (keyGroup (generateShortId (str "g_") r))).isSome
  | .dismiss groupId => ∀ g, GroupStore.getGroup db groupId = some g → g.ownerId ≠ u
  | .inviteMembers groupId _ =>
    GroupStore.getGroup db groupId = none ∨ GroupStore.isMember db groupId u = false
  | .removeMember groupId memberId =>
    GroupStore.getGroup db groupId = none ∨
      ∀ op target, GroupStore.getMember db groupId u = some op →
        GroupStore.getMember db groupId memberId = some target →
        target.role = roleOwner ∨ (op.role ≠ roleOwner ∧ op.role ≠ roleAdmin) ∨
          (op.role = roleAdmin ∧ target.role = roleAdmin)
  | .leave groupId =>
    (∀ g, GroupStore.getGroup db groupId = some g → g.ownerId = u) ∨
      GroupStore.isMember db groupId u = false
  | .getInfo groupId => GroupStore.getGroup db groupId = none
  | .getMembers .. => False
  | .getUserGroups => False

end GroupCommand

variable {db : GroupDb} {u g w : Bytes} {r : RandomString 12} {now : Int}

theorem getGroup_nil : GroupStore.getGroup db [] = none := rfl

theorem isMember_of_getMember {m : GroupMemberData} (h : GroupStore.getMember db g w = some m) :
    g ≠ [] ∧ w ≠ [] ∧ GroupStore.isMember db g w = true := by
  have hget := get_of_getMember h
  unfold GroupStore.getMember at h
  split at h
  · cases h
  · rename_i hne
    push Not at hne
    refine ⟨hne.1, hne.2, ?_⟩
    simp [GroupStore.isMember, hne, hget]

/-- A member of a group that exists can be removed from the store. -/
theorem removeMember_works {data : GroupData} (hg : GroupStore.getGroup db g = some data)
    (hm : GroupStore.isMember db g w = true) : (GroupStore.removeMember db g w).2 = true := by
  unfold GroupStore.isMember at hm
  split at hm
  · cases hm
  · rename_i hne
    obtain ⟨m, hget⟩ := Option.isSome_iff_exists.mp hm
    simp [GroupStore.removeMember, hne, hget, hg]

/-- A user who is not a member yet can be added to a group that exists. -/
theorem addMember_works {m : GroupMemberData} (hid : g ≠ [])
    (hg : ∃ data, db.get (keyGroup g) = some (.group data)) (hm : m.userId ≠ [])
    (hnew : db.get (keyGroupMember g m.userId) = none) : (GroupStore.addMember db g m).2 = true := by
  obtain ⟨data, hg⟩ := hg
  simp [GroupStore.addMember, GroupStore.getGroup, hid, hm, hnew, hg]

theorem outcome_storeCode {c : GroupDb × Bool} (h : c.2 = true) :
    (outcome (GroupService.storeCode c)).2 = true := by
  simp [outcome, GroupService.storeCode, h]

theorem createGroup_fresh {data : GroupData} (hid : data.groupId = g) (hne : g ≠ [])
    (hown : data.ownerId ≠ []) (hfree : db.get (keyGroup g) = none) :
    GroupStore.createGroup db data = (db.put (keyGroup g) (.group data), true) := by
  simp [GroupStore.createGroup, hid, hne, hown, hfree]

/-! Each operation, refused and accepted. -/

theorem generateGroupId_ne_nil : generateShortId (str "g_") r ≠ [] := by
  intro h
  have := congrArg List.length h
  simp [generateShortId, r.length_eq] at this

theorem create_refused {name : Bytes} {ids : List Bytes} (hu : u ≠ [])
    (h : (GroupCommand.create name ids).Refused u db r) :
    (GroupCommand.create name ids).actAs u db r now = (db, false) := by
  simp only [GroupCommand.actAs, GroupService.createGroup, hu, if_false]
  rcases h with hfew | htaken
  · simp [hfew]
  · split
    · rfl
    · simp [GroupStore.createGroup, GroupService.newGroup, htaken]

theorem create_accepted {name : Bytes} {ids : List Bytes} (hu : u ≠ []) (held : MembersHeld db)
    (h : ¬ (GroupCommand.create name ids).Refused u db r) :
    ((GroupCommand.create name ids).actAs u db r now).2 = true := by
  simp only [GroupCommand.Refused] at h
  push Not at h
  obtain ⟨hmany, hfree⟩ := h
  -- nobody is a member of a group that does not exist
  have hnone : db.get (keyGroupMember (generateShortId (str "g_") r) u) = none := by
    cases hget : db.get (keyGroupMember (generateShortId (str "g_") r) u) with
    | none => rfl
    | some v =>
      have hgroup := (held _ u (isGroupId_generate r) (by rw [hget]; rfl)).2
      exact absurd hgroup hfree
  have hcreated : GroupStore.createGroup db (GroupService.newGroup (generateShortId (str "g_") r) u
      name [] (GroupService.uniqueMembers u ids) now) =
      (db.put (keyGroup (generateShortId (str "g_") r)) (.group (GroupService.newGroup
        (generateShortId (str "g_") r) u name [] (GroupService.uniqueMembers u ids) now)), true) :=
    createGroup_fresh rfl generateGroupId_ne_nil hu (by simpa using hfree)
  have hadded : (GroupStore.addMember (db.put (keyGroup (generateShortId (str "g_") r))
      (.group (GroupService.newGroup (generateShortId (str "g_") r) u name []
        (GroupService.uniqueMembers u ids) now))) (generateShortId (str "g_") r)
      { userId := u, role := roleOwner, joinedAt := now }).2 = true := by
    refine addMember_works generateGroupId_ne_nil ⟨_, OrderedMap.get_put_self⟩ hu ?_
    rw [OrderedMap.get_put_ne keyGroup_ne_keyGroupMember.symm]
    exact hnone
  simp [GroupCommand.actAs, GroupService.createGroup, hu, not_lt.mpr hmany, hcreated, hadded]

theorem dismiss_refused (h : (GroupCommand.dismiss g).Refused u db r) :
    (GroupCommand.dismiss g).actAs u db r now = (db, false) := by
  simp only [GroupCommand.actAs, GroupService.dismissGroup]
  split
  · rfl
  · cases hg : GroupStore.getGroup db g with
    | none => rfl
    | some data => simp [h data hg, outcome]

theorem dismiss_accepted (hu : u ≠ []) (h : ¬ (GroupCommand.dismiss g).Refused u db r) :
    ((GroupCommand.dismiss g).actAs u db r now).2 = true := by
  simp only [GroupCommand.Refused] at h
  push Not at h
  obtain ⟨data, hg, hown⟩ := h
  have hne := (get_of_getGroup hg).1
  simp only [GroupCommand.actAs, GroupService.dismissGroup, hne, hu, or_self, if_false, hg, hown,
    ne_eq, not_true_eq_false]
  apply outcome_storeCode
  simp [GroupStore.deleteGroup, hne]

theorem invite_refused {ids : List Bytes} (h : (GroupCommand.inviteMembers g ids).Refused u db r) :
    (GroupCommand.inviteMembers g ids).actAs u db r now = (db, false) := by
  simp only [GroupCommand.actAs, GroupService.inviteMembers]
  split
  · rfl
  · rcases h with hg | hm
    · simp [hg, outcome]
    · cases GroupStore.getGroup db g with
      | none => rfl
      | some data => simp [hm, outcome]

theorem invite_accepted {ids : List Bytes} (hu : u ≠ [])
    (h : ¬ (GroupCommand.inviteMembers g ids).Refused u db r) :
    ((GroupCommand.inviteMembers g ids).actAs u db r now).2 = true := by
  simp only [GroupCommand.Refused] at h
  push Not at h
  obtain ⟨hg, hm⟩ := h
  obtain ⟨data, hg⟩ := Option.ne_none_iff_exists'.mp hg
  have hne := (get_of_getGroup hg).1
  simp [GroupCommand.actAs, GroupService.inviteMembers, hne, hu, hg, hm, outcome]

theorem remove_refused (h : (GroupCommand.removeMember g w).Refused u db r) :
    (GroupCommand.removeMember g w).actAs u db r now = (db, false) := by
  simp only [GroupCommand.actAs, GroupService.removeMember]
  split
  · rfl
  · rcases h with hg | hroles
    · simp [hg, outcome]
    · cases GroupStore.getGroup db g with
      | none => rfl
      | some data =>
        simp only
        split
        · rfl
        · cases hop : GroupStore.getMember db g u with
          | none => rfl
          | some op =>
            cases htarget : GroupStore.getMember db g w with
            | none => rfl
            | some target =>
              simp only
              rcases hroles op target hop htarget with howner | hplain | hadmins
              · simp [howner, outcome]
              · simp only [if_pos hplain]
                split <;> rfl
              · have hne : ¬ (op.role ≠ roleOwner ∧ op.role ≠ roleAdmin) := fun hp =>
                  hp.2 hadmins.1
                simp only [hne, if_false, if_pos hadmins]
                split <;> rfl

theorem remove_accepted (h : ¬ (GroupCommand.removeMember g w).Refused u db r) :
    ((GroupCommand.removeMember g w).actAs u db r now).2 = true := by
  simp only [GroupCommand.Refused] at h
  push Not at h
  obtain ⟨hg, op, target, hop, htarget, howner, hop', hadmins⟩ := h
  obtain ⟨data, hg⟩ := Option.ne_none_iff_exists'.mp hg
  obtain ⟨hne, hu, _⟩ := isMember_of_getMember hop
  obtain ⟨_, hw, hm⟩ := isMember_of_getMember htarget
  have hplain : ¬ (op.role ≠ roleOwner ∧ op.role ≠ roleAdmin) := fun hp => hp.2 (hop' hp.1)
  have hboth : ¬ (op.role = roleAdmin ∧ target.role = roleAdmin) := fun hp => hadmins hp.1 hp.2
  simp only [GroupCommand.actAs, GroupService.removeMember, hne, hu, hw, or_self, if_false, hg, hm,
    not_true_eq_false, hop, htarget, howner, hplain, hboth]
  exact outcome_storeCode (removeMember_works hg hm)

theorem leave_refused (h : (GroupCommand.leave g).Refused u db r) :
    (GroupCommand.leave g).actAs u db r now = (db, false) := by
  simp only [GroupCommand.actAs, GroupService.leaveGroup]
  split
  · rfl
  · cases hg : GroupStore.getGroup db g with
    | none => rfl
    | some data =>
      rcases h with hown | hm
      · simp [hown data hg, outcome]
      · simp only [hm]
        split <;> rfl

theorem leave_accepted (hu : u ≠ []) (h : ¬ (GroupCommand.leave g).Refused u db r) :
    ((GroupCommand.leave g).actAs u db r now).2 = true := by
  simp only [GroupCommand.Refused] at h
  push Not at h
  obtain ⟨⟨data, hg, hown⟩, hm⟩ := h
  have hm : GroupStore.isMember db g u = true := by simpa using hm
  have hne := (get_of_getGroup hg).1
  simp only [GroupCommand.actAs, GroupService.leaveGroup, hne, hu, or_self, if_false, hg, hown, hm,
    not_true_eq_false]
  exact outcome_storeCode (removeMember_works hg hm)

/-- Where members are held by groups, an operation changes nothing and fails exactly when it is
refused. -/
theorem actAs_refused_iff (hu : u ≠ []) (held : MembersHeld db) (c : GroupCommand) :
    c.actAs u db r now = (db, false) ↔ c.Refused u db r := by
  have hiff : ∀ {c : GroupCommand}, (c.Refused u db r → c.actAs u db r now = (db, false)) →
      (¬ c.Refused u db r → (c.actAs u db r now).2 = true) →
      (c.actAs u db r now = (db, false) ↔ c.Refused u db r) := by
    intro c hrefused haccepted
    refine ⟨fun h => ?_, hrefused⟩
    by_contra hn
    have := haccepted hn
    rw [h] at this
    cases this
  cases c with
  | create => exact hiff (create_refused hu) (create_accepted hu held)
  | dismiss => exact hiff dismiss_refused (dismiss_accepted hu)
  | inviteMembers => exact hiff invite_refused (invite_accepted hu)
  | removeMember => exact hiff remove_refused remove_accepted
  | leave => exact hiff leave_refused (leave_accepted hu)
  | getInfo g =>
    by_cases hg : g = []
    · simp [GroupCommand.actAs, GroupCommand.Refused, GroupService.getGroupInfo, hg, getGroup_nil]
    · simp [GroupCommand.actAs, GroupCommand.Refused, GroupService.getGroupInfo, hg]
  | getMembers => simp [GroupCommand.actAs, GroupCommand.Refused]
  | getUserGroups => simp [GroupCommand.actAs, GroupCommand.Refused]

end SwiftChat.Chat
