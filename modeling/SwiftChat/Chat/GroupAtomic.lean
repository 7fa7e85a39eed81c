import SwiftChat.Base.Run
import SwiftChat.Chat.GroupFaults

/-! Whether a transfer or a founding of a group that meets a fault leaves traces. -/
namespace SwiftChat.Chat
open Base

def roleOf (db : GroupDb) (groupId userId : Bytes) : Option Int :=
  (GroupStore.getMember db groupId userId).map GroupMemberData.role

/-- The owner of the group and the roles of its members read alike. -/
structure SameRoles (groupId : Bytes) (db db' : GroupDb) : Prop where
  owner : (GroupStore.getGroup db' groupId).map GroupData.ownerId =
    (GroupStore.getGroup db groupId).map GroupData.ownerId
  roles : roleOf db' groupId = roleOf db groupId

/-- The members are the creator, as owner, and the non-empty ids of the list. -/
structure Founded (groupId creatorId : Bytes) (memberIds : List Bytes) (db : GroupDb) : Prop where
  members : ∀ w, (GroupStore.getMember db groupId w).isSome ↔ w = creatorId ∨ w ∈ memberIds ∧ w ≠ []
  enough : ∃ ws : List Bytes, ws.Nodup ∧ 3 ≤ ws.length ∧
    ∀ w ∈ ws, (GroupStore.getMember db groupId w).isSome
  owner : roleOf db groupId creatorId = some roleOwner

/-- The ids whose entry of the tape is no fault. -/
def written : List Bytes → WriteTape → List Bytes
  | ids, [] => ids
  | [], _ :: _ => []
  | uid :: ids, none :: tape => uid :: written ids tape
  | _ :: ids, some _ :: tape => written ids tape

/-- The members are the creator, as owner, and the given others. -/
structure FoundedWith (groupId creatorId : Bytes) (others : List Bytes) (db : GroupDb) : Prop where
  members : ∀ w, (GroupStore.getMember db groupId w).isSome ↔ w = creatorId ∨ w ∈ others
  owner : roleOf db groupId creatorId = some roleOwner

/-- After an error the database is as before; after a success the group has all its members. -/
structure FoundRight (db : GroupDb) (creatorId : Bytes) (memberIds : List Bytes)
    (out : GroupDb × GroupService.CreateGroupResult) : Prop where
  failed : out.2.errorCode ≠ .ok → out.1 = db
  made : out.2.errorCode = .ok → Founded out.2.groupId creatorId memberIds out.1

/-- No fault comes after a write that changed something. `mo` is the owner's membership. -/
def HandOverSafe (db : GroupDb) (groupId oldOwnerId newOwnerId : Bytes) (mo : GroupMemberData) :
    WriteTape → Prop
  | none :: some _ :: _ => mo.role = roleMember
  | none :: none :: some _ :: _ =>
    if oldOwnerId = newOwnerId then mo.role = roleOwner
    else mo.role = roleMember ∧ roleOf db groupId newOwnerId = some roleOwner
  | _ => True

/-- When the creator cannot be added the group can be deleted, and all others can be added. -/
def FoundSafe (others : List Bytes) : WriteTape → Prop
  | none :: some _ :: some _ :: _ => False
  | none :: none :: rest => ∀ x ∈ rest.take others.length, x = none
  | _ => True

/-- The members a founding adds after the creator. -/
def othersOf (creatorId : Bytes) (memberIds : List Bytes) : List Bytes :=
  (GroupService.uniqueMembers creatorId memberIds).filter (· ≠ creatorId)

/-- An operation on the store. In the first two the writes may fail. -/
inductive FaultyGroupOp where
  | create (creatorId groupName avatarUrl : Bytes) (memberIds : List Bytes) (r : RandomString 12)
      (now : Int) (tape : WriteTape)
  | transfer (groupId oldOwnerId newOwnerId : Bytes) (tape : WriteTape)
  | other (op : GroupOp)

def faultyGroupStep (db : GroupDb) : FaultyGroupOp → GroupDb
  | .create creatorId groupName avatarUrl memberIds r now tape =>
    (runCalls (CallProg.createGroup creatorId groupName avatarUrl memberIds r now) tape db).1
  | .transfer groupId oldOwnerId newOwnerId tape =>
    (runCalls (CallProg.transferOwner groupId oldOwnerId newOwnerId) tape db).1
  | .other op => groupStep db op

def FaultyGroupOp.Right (db : GroupDb) : FaultyGroupOp → Prop
  | .create creatorId groupName avatarUrl memberIds r now tape =>
    FoundRight db creatorId memberIds
      (runCalls (CallProg.createGroup creatorId groupName avatarUrl memberIds r now) tape db)
  | .transfer groupId oldOwnerId newOwnerId tape =>
    let (db', e) := runCalls (CallProg.transferOwner groupId oldOwnerId newOwnerId) tape db
    e ≠ .ok → SameRoles groupId db db'
  | .other _ => True

/-- When a fault met the creator's membership and the rollback, the record stays. -/
def RollbackFails : WriteTape → Prop
  | none :: some _ :: some _ :: _ => True
  | _ => False

/-- A group that was made has the members whose writes worked, and all of them without a fault. -/
structure FoundKept (db : GroupDb) (creatorId : Bytes) (memberIds : List Bytes) (tape : WriteTape)
    (out : GroupDb × GroupService.CreateGroupResult) : Prop where
  failed : out.2.errorCode ≠ .ok → ¬ RollbackFails tape → out.1 = db
  made : out.2.errorCode = .ok → FoundedWith out.2.groupId creatorId
    (written (othersOf creatorId memberIds) (tape.drop 2)) out.1
  whole : out.2.errorCode = .ok → (∀ x ∈ tape, x = none) →
    Founded out.2.groupId creatorId memberIds out.1

/-- What the operations keep, faults or not. -/
def FaultyGroupOp.Kept (db : GroupDb) : FaultyGroupOp → Prop
  | .create creatorId groupName avatarUrl memberIds r now tape =>
    FoundKept db creatorId memberIds tape
      (runCalls (CallProg.createGroup creatorId groupName avatarUrl memberIds r now) tape db)
  | .transfer groupId oldOwnerId newOwnerId tape =>
    let (db', e) := runCalls (CallProg.transferOwner groupId oldOwnerId newOwnerId) tape db
    e ≠ .ok → (∀ mo, GroupStore.getMember db groupId oldOwnerId = some mo →
      HandOverSafe db groupId oldOwnerId newOwnerId mo tape) → SameRoles groupId db db'
  | .other _ => True

def FaultyGroupOp.Safe (db : GroupDb) : FaultyGroupOp → Prop
  | .create creatorId _ _ memberIds r _ tape =>
    ¬ CreateRefused db creatorId memberIds r →
      FoundSafe (othersOf creatorId memberIds) tape
  | .transfer groupId oldOwnerId newOwnerId tape =>
    TransferAllowed db groupId oldOwnerId newOwnerId →
      ∀ mo, GroupStore.getMember db groupId oldOwnerId = some mo →
        HandOverSafe db groupId oldOwnerId newOwnerId mo tape
  | .other _ => True

variable {db db' : GroupDb} {g w old new c name avatar : Bytes} {ids : List Bytes}
  {r : RandomString 12} {now role : Int} {tape : WriteTape} {data : GroupData}
  {m mo : GroupMemberData} {G : Group} {e : ErrorCode}

/-! Every call keeps the form of the database. -/

/-- The groups a program makes have ids of the generator. -/
def GroupCall.Generated : GroupCall → Prop
  | .createGroup data => IsGroupId data.groupId
  | _ => True

theorem callExec_dbOk (o : GroupCall) (db : GroupDb) (ho : o.Generated) (h : GroupDbOk db) :
    GroupDbOk (callExec o db).1 := by
  cases o with
  | getGroup => exact h
  | isMember => exact h
  | createGroup => exact h.call (.createGroup ho)
  | deleteGroup => exact h.call .deleteGroup
  | addMember => exact h.call .addMember
  | updateMemberRole => exact h.call .updateMemberRole
  | updateGroupOwner => exact h.call .updateGroupOwner

theorem callFail_state (o : GroupCall) (φ : Unit → GroupDb → GroupDb × CallReply o)
    (h : callFail o = some φ) (f : Unit) (db : GroupDb) : (φ f db).1 = db := by
  cases o with
  | getGroup => cases h
  | isMember => cases h
  | _ =>
    obtain rfl := Option.some.inj h
    rfl

theorem uses_transferOwner :
    (CallProg.transferOwner g old new).Uses GroupCall.Generated := by
  unfold CallProg.transferOwner
  split
  · exact trivial
  · refine ⟨trivial, ?_⟩
    rintro (_ | data)
    · exact trivial
    · simp only
      split
      · exact trivial
      · refine ⟨trivial, ?_⟩
        rintro (_ | _)
        · exact trivial
        · refine ⟨trivial, ?_⟩
          rintro (_ | _)
          · exact trivial
          · refine ⟨trivial, ?_⟩
            rintro (_ | _)
            · exact trivial
            · exact ⟨trivial, fun _ => trivial⟩

theorem uses_addMembers (result : GroupService.CreateGroupResult) :
    (CallProg.addMembers g now result ids).Uses GroupCall.Generated := by
  induction ids with
  | nil => exact trivial
  | cons uid ids ih => exact ⟨trivial, fun _ => ih⟩

theorem uses_createGroup :
    (CallProg.createGroup c name avatar ids r now).Uses GroupCall.Generated := by
  unfold CallProg.createGroup
  split
  · exact trivial
  · simp only
    split
    · exact trivial
    · refine ⟨isGroupId_generate r, ?_⟩
      rintro (_ | _)
      · exact trivial
      · refine ⟨trivial, ?_⟩
        rintro (_ | _)
        · exact ⟨trivial, fun _ => trivial⟩
        · exact uses_addMembers _

theorem runCalls_dbOk {α : Type} {p : CallProg α} (hp : p.Uses GroupCall.Generated)
    (tape : WriteTape) (h : GroupDbOk db) : GroupDbOk (runCalls p tape db).1 := by
  refine Prog.runFaulty_keeps callExec_dbOk ?_ hp tape h
  intro o φ hφ f db h
  rw [callFail_state o φ hφ]
  exact h

theorem faultyGroupStep_dbOk (op : FaultyGroupOp) (h : GroupDbOk db) :
    GroupDbOk (faultyGroupStep db op) := by
  cases op with
  | create => exact runCalls_dbOk uses_createGroup _ h
  | transfer => exact runCalls_dbOk uses_transferOwner _ h
  | other op => exact h.calls (groupStep_calls db op)

/-! A transfer. -/

theorem roleOf_setMember (hv : view db' g = some (G.setMember m w))
    (hG : GroupStore.getMember db g = G.members) :
    roleOf db' g = Function.update (roleOf db g) w (some m.role) := by
  funext w'
  unfold roleOf
  rw [getMember_of_view hv, hG]
  by_cases hw : w' = w
  · simp [Group.setMember, hw]
  · simp [Group.setMember, hw]

/-- A member's role is set, and nothing else of the group changes. -/
theorem updateMemberRole_role (role : Int) (h : GroupDbOk db)
    (hg : GroupStore.getGroup db g = some data) (hm : GroupStore.getMember db g w = some m) :
    (GroupStore.updateMemberRole db g w role).2 = true ∧
    GroupStore.getGroup (GroupStore.updateMemberRole db g w role).1 g = some data ∧
    roleOf (GroupStore.updateMemberRole db g w role).1 g =
      Function.update (roleOf db g) w (some role) := by
  obtain ⟨hdone, hview⟩ := updateMemberRole_view role h (view_of_getGroup hg) hm
  have hv := congrFun hview g
  rw [Function.update_self] at hv
  exact ⟨hdone, (view_eq_some.mp hv).1, roleOf_setMember hv rfl⟩

/-- The demotion of a user who is no member fails without a write. -/
theorem handOver_absent (hm : GroupStore.getMember db g old = none) :
    ∀ tape, runCalls (CallProg.handOver g old new) tape db = (db, .internalError)
  | some _ :: _ => rfl
  | none :: _ => by
    unfold runCalls CallProg.handOver
    rw [Prog.runFaulty_works rfl]
    simp only [callExec, GroupStore.updateMemberRole, hm, Bool.false_eq_true, not_false_eq_true,
      if_true, Prog.runFaulty_ret]
  | [] => by
    unfold runCalls CallProg.handOver
    rw [Prog.runFaulty_end]
    simp only [callExec, GroupStore.updateMemberRole, hm, Bool.false_eq_true, not_false_eq_true,
      if_true, Prog.runFaulty_ret]

/-- Two writes over a function give it back exactly when they write what was there. -/
theorem update_update_eq_iff {f : Bytes → Option Int} {a b : Option Int} :
    Function.update (Function.update f old a) new b = f ↔
      if old = new then f old = b else f old = a ∧ f new = b := by
  split
  · rename_i he
    rw [he, Function.update_idem, Function.update_eq_self_iff, eq_comm]
  · rename_i hne
    constructor
    · intro h
      constructor
      · rw [← h, Function.update_of_ne hne, Function.update_self]
      · rw [← h, Function.update_self]
    · rintro ⟨ha, hb⟩
      rw [← ha, ← hb, Function.update_eq_self, Function.update_eq_self]

/-- The state of the group after the demotion, and after both changes of a role. -/
theorem handOver_writes (h : GroupDbOk db) (hallowed : TransferAllowed db g old new)
    (hm : GroupStore.getMember db g old = some mo) :
    ∃ db₁ db₂ db₃,
      GroupStore.updateMemberRole db g old roleMember = (db₁, true) ∧
      GroupStore.updateMemberRole db₁ g new roleOwner = (db₂, true) ∧
      GroupStore.updateGroupOwner db₂ g new = (db₃, true) ∧
      GroupStore.getGroup db₁ g = GroupStore.getGroup db g ∧
      GroupStore.getGroup db₂ g = GroupStore.getGroup db g ∧
      roleOf db₁ g = Function.update (roleOf db g) old (some roleMember) ∧
      roleOf db₂ g =
        Function.update (Function.update (roleOf db g) old (some roleMember)) new (some roleOwner) := by
  obtain ⟨_, hg, hmem⟩ := hallowed
  obtain ⟨data, hg, -⟩ := Option.map_eq_some_iff.mp hg
  rw [h.isMember_eq] at hmem
  obtain ⟨hdone₁, hg₁, hrole₁⟩ := updateMemberRole_role roleMember h hg hm
  have h₁ : GroupDbOk (GroupStore.updateMemberRole db g old roleMember).1 := h.call .updateMemberRole
  generalize GroupStore.updateMemberRole db g old roleMember = d₁ at hdone₁ hg₁ hrole₁ h₁
  obtain ⟨db₁, done₁⟩ := d₁
  -- the new owner is still a member
  obtain ⟨mn, hmn⟩ : ∃ mn, GroupStore.getMember db₁ g new = some mn := by
    rw [← Option.isSome_iff_exists, ← Option.isSome_map (f := GroupMemberData.role)]
    change (roleOf db₁ g new).isSome = true
    rw [hrole₁]
    by_cases he : new = old
    · rw [he, Function.update_self]
      rfl
    · rw [Function.update_of_ne he, roleOf, Option.isSome_map]
      exact hmem
  obtain ⟨hdone₂, hg₂, hrole₂⟩ := updateMemberRole_role roleOwner h₁ hg₁ hmn
  generalize hd₂ : GroupStore.updateMemberRole db₁ g new roleOwner = d₂ at hdone₂ hg₂ hrole₂
  obtain ⟨db₂, done₂⟩ := d₂
  refine ⟨db₁, db₂, (GroupStore.updateGroupOwner db₂ g new).1, ?_, ?_, ?_, ?_⟩
  · exact Prod.ext rfl hdone₁
  · rw [hd₂]
    exact Prod.ext rfl hdone₂
  · simp only [GroupStore.updateGroupOwner, getMember_ne_nil hmn, if_false, hg₂]
  · rw [hg₁, hg₂, hg]
    rw [hrole₁] at hrole₂
    exact ⟨rfl, rfl, hrole₁, hrole₂⟩

theorem sameRoles_iff (hg : GroupStore.getGroup db' g = GroupStore.getGroup db g) :
    SameRoles g db db' ↔ roleOf db' g = roleOf db g := by
  constructor
  · exact SameRoles.roles
  · intro hroles
    exact ⟨by rw [hg], hroles⟩

/-- Where the writes of a transfer end up, by the first of them that fails. -/
theorem handOver_run {db₁ db₂ db₃ : GroupDb}
    (hw₁ : GroupStore.updateMemberRole db g old roleMember = (db₁, true))
    (hw₂ : GroupStore.updateMemberRole db₁ g new roleOwner = (db₂, true))
    (hw₃ : GroupStore.updateGroupOwner db₂ g new = (db₃, true)) (tape : WriteTape) :
    runCalls (CallProg.handOver g old new) tape db =
      match tape with
      | some _ :: _ => (db, .internalError)
      | none :: some _ :: _ => (db₁, .internalError)
      | none :: none :: some _ :: _ => (db₂, .internalError)
      | _ => (db₃, .ok) := by
  unfold runCalls CallProg.handOver
  rcases tape with _ | ⟨_ | _, _ | ⟨_ | _, _ | ⟨_ | _, tape⟩⟩⟩
  all_goals simp [Prog.runFaulty, callFail, callExec, hw₁, hw₂, hw₃]

theorem handOver_right_iff (h : GroupDbOk db) (hallowed : TransferAllowed db g old new)
    (hm : GroupStore.getMember db g old = some mo) (tape : WriteTape) :
    ((runCalls (CallProg.handOver g old new) tape db).2 ≠ .ok →
      SameRoles g db (runCalls (CallProg.handOver g old new) tape db).1) ↔
    HandOverSafe db g old new mo tape := by
  obtain ⟨db₁, db₂, db₃, hw₁, hw₂, hw₃, hg₁, hg₂, hr₁, hr₂⟩ := handOver_writes h hallowed hm
  have hmo : roleOf db g old = some mo.role := by rw [roleOf, hm, Option.map_some]
  have herror : ErrorCode.internalError ≠ .ok := by decide
  rw [handOver_run hw₁ hw₂ hw₃]
  match tape with
  | some _ :: _ => exact iff_of_true (fun _ => ⟨rfl, rfl⟩) trivial
  | none :: some _ :: _ =>
    simp only [herror, ne_eq, not_false_eq_true, true_implies, HandOverSafe]
    rw [sameRoles_iff hg₁, hr₁, Function.update_eq_self_iff, hmo, Option.some.injEq, eq_comm]
  | none :: none :: some _ :: _ =>
    simp only [herror, ne_eq, not_false_eq_true, true_implies, HandOverSafe]
    rw [sameRoles_iff hg₂, hr₂, update_update_eq_iff, hmo, Option.some.injEq, Option.some.injEq]
  | [] => exact iff_of_true (fun hne => absurd rfl hne) trivial
  | [none] => exact iff_of_true (fun hne => absurd rfl hne) trivial
  | [none, none] => exact iff_of_true (fun hne => absurd rfl hne) trivial
  | none :: none :: none :: _ => exact iff_of_true (fun hne => absurd rfl hne) trivial

/-- A transfer that fails leaves owner and roles alone exactly when it is safe. -/
theorem transfer_right_iff (h : GroupDbOk db) (tape : WriteTape) :
    (FaultyGroupOp.transfer g old new tape).Right db ↔
      (FaultyGroupOp.transfer g old new tape).Safe db := by
  simp only [FaultyGroupOp.Right, FaultyGroupOp.Safe]
  by_cases hallowed : TransferAllowed db g old new
  · rw [runCalls_allowed hallowed]
    cases hm : GroupStore.getMember db g old with
    | none =>
      rw [handOver_absent hm]
      exact iff_of_true (fun _ => ⟨rfl, rfl⟩) (fun _ mo hmo => by cases hmo)
    | some mo =>
      rw [handOver_right_iff h hallowed hm]
      constructor
      · intro hsafe _ mo' hmo
        exact Option.some.inj hmo ▸ hsafe
      · intro hsafe
        exact hsafe hallowed mo rfl
  · obtain ⟨e, _, hrun⟩ := runCalls_refused tape hallowed
    rw [hrun]
    exact iff_of_true (fun _ => ⟨rfl, rfl⟩) (fun hyes => absurd hyes hallowed)

/-! Founding a group. -/

theorem nodup_uniqueMembers : (GroupService.uniqueMembers c ids).Nodup := by
  refine List.pairwise_map.mpr (List.Pairwise.imp ?_ (OrderedMap.sorted _))
  intro e e' hlt
  exact ne_of_lt hlt

theorem nodup_othersOf : (othersOf c ids).Nodup := nodup_uniqueMembers.filter _

theorem mem_othersOf : w ∈ othersOf c ids ↔ (w ∈ ids ∧ w ≠ []) ∧ w ≠ c := by
  rw [othersOf, List.mem_filter, mem_uniqueMembers, decide_eq_true_eq]
  tauto

/-- A group without a member has no membership key. -/
theorem memberIds_eq_nil (h : ∀ w, db.get (keyGroupMember g w) = none) :
    GroupStore.memberIds db g = [] := by
  rw [List.eq_nil_iff_forall_not_mem]
  intro w hw
  obtain ⟨⟨k, v⟩, he, _⟩ := List.mem_map.mp hw
  obtain ⟨hget, t, rfl⟩ := OrderedMap.mem_scan.mp (List.mem_filter.mp he).1
  change db.get (keyGroupMember g t) = some v at hget
  rw [h] at hget
  cases hget

/-- The deletion of a record that was just made gives the old database back. -/
theorem deleteGroup_restores (h : GroupDbOk db) (hid : IsGroupId g)
    (hfree : GroupStore.getGroup db g = none) :
    GroupStore.deleteGroup (db.put (keyGroup g) (.group data)) g = (db, true) := by
  have hkey := (h.getGroup_eq_none hid.ne_nil).mp hfree
  have hnone : GroupStore.memberIds (db.put (keyGroup g) (.group data)) g = [] := by
    apply memberIds_eq_nil
    intro w
    rw [OrderedMap.get_put_ne keyGroup_ne_keyGroupMember.symm]
    cases hv : db.get (keyGroupMember g w) with
    | none => rfl
    | some v =>
      have hs := (h.held g w hid (by rw [hv]; rfl)).2
      rw [hkey] at hs
      cases hs
  simp only [GroupStore.deleteGroup, hid.ne_nil, if_false, hnone]
  simp only [GroupStore.dropMembers, List.flatMap_nil, OrderedMap.write_cons,
    OrderedMap.apply_delete, OrderedMap.write_nil, OrderedMap.delete_put_self hkey]

theorem addMember_joins (h : GroupDbOk db) (hv : view db g = some G) (hm : m.userId ≠ [])
    (hfree : G.members m.userId = none) :
    GroupDbOk (GroupStore.addMember db g m).1 ∧
      view (GroupStore.addMember db g m).1 g = some (G.join m) := by
  refine ⟨h.call .addMember, ?_⟩
  have hg := (h.ids.of_view hv).ne_nil
  obtain ⟨hdata, hmembers⟩ := view_eq_some.mp hv
  rw [← hmembers, h.getMember_eq_none hg hm] at hfree
  simp only [GroupStore.addMember, hg, hm, or_self, if_false, hfree, hdata, Option.isSome_none,
    Bool.false_eq_true]
  rw [view_add h.ids hv hm, Function.update_self]

@[simp] theorem written_nil : written ids [] = ids := by
  cases ids <;> rfl

theorem written_subset : ∀ (ids : List Bytes) (tape : WriteTape), ∀ w ∈ written ids tape, w ∈ ids
  | _, [], _, hw => by rwa [written_nil] at hw
  | [], _ :: _, _, hw => hw
  | uid :: ids, none :: tape, w, hw => by
    rcases List.mem_cons.mp hw with rfl | hw
    · exact List.mem_cons_self
    · exact List.mem_cons_of_mem _ (written_subset ids tape w hw)
  | _ :: ids, some _ :: tape, w, hw => List.mem_cons_of_mem _ (written_subset ids tape w hw)

/-- All ids are written exactly when no entry for them is a fault. -/
theorem written_all (hnodup : ids.Nodup) (tape : WriteTape) :
    (∀ w ∈ ids, w ∈ written ids tape) ↔ ∀ x ∈ tape.take ids.length, x = none := by
  induction ids generalizing tape with
  | nil => simp
  | cons uid ids ih =>
    obtain ⟨huid, hnodup⟩ := List.nodup_cons.mp hnodup
    match tape with
    | [] => simp
    | none :: tape =>
      rw [List.length_cons, List.take_succ_cons, List.forall_mem_cons, List.forall_mem_cons,
        ← ih hnodup tape]
      simp only [written, List.mem_cons, true_or, true_and]
      constructor
      · intro h w hw
        exact (h w hw).resolve_left (fun he => huid (he ▸ hw))
      · intro h w hw
        exact Or.inr (h w hw)
    | some _ :: tape =>
      refine iff_of_false ?_ ?_
      · intro h
        exact huid (written_subset ids tape uid (h uid List.mem_cons_self))
      · intro h
        cases h (some _) List.mem_cons_self

/-- The loop adds exactly the ids whose write works. -/
theorem addMembers_written (now : Int) (result : GroupService.CreateGroupResult) (h : GroupDbOk db)
    (hv : view db g = some G) (hnodup : ids.Nodup)
    (hnew : ∀ w ∈ ids, w ≠ [] ∧ G.members w = none) (tape : WriteTape) :
    (runCalls (CallProg.addMembers g now result ids) tape db).2 = result ∧
    (∀ w, w ∉ written ids tape → GroupStore.getMember
      (runCalls (CallProg.addMembers g now result ids) tape db).1 g w = G.members w) ∧
    (∀ w ∈ written ids tape, (GroupStore.getMember
      (runCalls (CallProg.addMembers g now result ids) tape db).1 g w).isSome) := by
  induction ids generalizing db G tape with
  | nil =>
    have hnone : written [] tape = [] := by cases tape <;> rfl
    rw [hnone]
    exact ⟨rfl, fun w _ => getMember_of_view hv w, fun w hw => by cases hw⟩
  | cons uid ids ih =>
    obtain ⟨huid, hnodup⟩ := List.nodup_cons.mp hnodup
    obtain ⟨hne, hfree⟩ := hnew uid List.mem_cons_self
    have hrest := fun w hw => hnew w (List.mem_cons_of_mem _ hw)
    obtain ⟨h₁, hv₁⟩ := addMember_joins
      (m := { userId := uid, role := roleMember, joinedAt := now }) h hv hne hfree
    have hjoin : ∀ w, w ≠ uid → (G.join { userId := uid, role := roleMember, joinedAt := now }).members w =
        G.members w := fun w hw => Function.update_of_ne hw _ _
    have hstay : ∀ w ∈ ids, w ≠ uid := fun w hw he => huid (he ▸ hw)
    have hworks : ∀ rest run, run = runCalls (CallProg.addMembers g now result ids) rest
        (GroupStore.addMember db g { userId := uid, role := roleMember, joinedAt := now }).1 →
        run.2 = result ∧
        (∀ w, w ∉ uid :: written ids rest → GroupStore.getMember run.1 g w = G.members w) ∧
        (∀ w ∈ uid :: written ids rest, (GroupStore.getMember run.1 g w).isSome) := by
      rintro rest run rfl
      obtain ⟨hresult, hothers, hall⟩ := ih h₁ hv₁ hnodup
        (fun w hw => ⟨(hrest w hw).1, (hjoin w (hstay w hw)).trans (hrest w hw).2⟩) rest
      refine ⟨hresult, ?_, ?_⟩
      · intro w hw
        rw [hothers w (List.not_mem_of_not_mem_cons hw), hjoin w (List.ne_of_not_mem_cons hw)]
      · rw [List.forall_mem_cons, hothers uid (fun hw => huid (written_subset ids rest uid hw))]
        exact ⟨by simp [Group.join], hall⟩
    cases tape with
    | nil =>
      have hdone := hworks []
        (runCalls (CallProg.addMembers g now result (uid :: ids)) [] db) rfl
      rw [written_nil] at hdone ⊢
      exact hdone
    | cons fault rest =>
      cases fault with
      | none =>
        exact hworks rest
          (runCalls (CallProg.addMembers g now result (uid :: ids)) (none :: rest) db) rfl
      | some _ => exact ih h hv hnodup hrest rest

/-- A founding that is refused answers an error and writes nothing. -/
theorem createGroup_fails (name avatar : Bytes) (now : Int) (h : CreateRefused db c ids r)
    (tape : WriteTape) :
    ∃ result : GroupService.CreateGroupResult, result.errorCode ≠ .ok ∧
      runCalls (CallProg.createGroup c name avatar ids r now) tape db = (db, result) := by
  unfold runCalls CallProg.createGroup
  split
  · exact ⟨_, by decide, rfl⟩
  · rename_i hc
    simp only
    split
    · exact ⟨_, by decide, rfl⟩
    · rename_i hsize
      obtain ⟨data, hg⟩ := Option.isSome_iff_exists.mp (h.resolve_left hc |>.resolve_left hsize)
      have htaken : GroupStore.createGroup db (GroupService.newGroup
          (generateShortId (str "g_") r) c name avatar (GroupService.uniqueMembers c ids) now) =
          (db, false) := by
        simp [GroupStore.createGroup, GroupService.newGroup, (get_of_getGroup hg).2]
      refine ⟨{ errorCode := .internalError }, by decide, ?_⟩
      cases tape with
      | nil => simp [callExec, htaken]
      | cons fault rest =>
        cases fault with
        | none => simp [Prog.runFaulty, callFail, callExec, htaken]
        | some _ => rfl

/-- The first two writes of a founding that is not refused, and the way back. -/
theorem createGroup_begins (h : GroupDbOk db) (hgo : ¬ CreateRefused db c ids r)
    (name avatar : Bytes) (now : Int) :
    ∃ db₁ db₂ G, GroupStore.createGroup db (GroupService.newGroup (generateShortId (str "g_") r) c
          name avatar (GroupService.uniqueMembers c ids) now) = (db₁, true) ∧
      GroupStore.addMember db₁ (generateShortId (str "g_") r)
        { userId := c, role := roleOwner, joinedAt := now } = (db₂, true) ∧
      GroupStore.deleteGroup db₁ (generateShortId (str "g_") r) = (db, true) ∧
      db₁ ≠ db ∧ GroupDbOk db₂ ∧ view db₂ (generateShortId (str "g_") r) = some G ∧
      G.members = Function.update (fun _ => none) c
        (some { userId := c, role := roleOwner, joinedAt := now }) := by
  obtain ⟨hc, hsize, hfree⟩ := not_createRefused_iff.mp hgo
  have hid := isGroupId_generate r
  generalize hdata : GroupService.newGroup _ c name avatar _ now = data
  have hdid : data.groupId = generateShortId (str "g_") r := by rw [← hdata]; rfl
  have hdowner : data.ownerId = c := by rw [← hdata]; rfl
  rw [← hdid] at hid hfree ⊢
  have hkey := (h.getGroup_eq_none hid.ne_nil).mp hfree
  have hmade : GroupStore.createGroup db data =
      (db.put (keyGroup data.groupId) (.group data), true) := by
    simp [GroupStore.createGroup, hid.ne_nil, hdowner, hc, hkey]
  obtain ⟨hadded, hview⟩ :=
    newGroup_view (m := { userId := c, role := roleOwner, joinedAt := now }) h hid hc hfree
  have hok := (h.call (.createGroup hid)).call
    (.addMember (g := data.groupId) (m := { userId := c, role := roleOwner, joinedAt := now }))
  rw [hmade] at hok
  refine ⟨_, _, Group.join ⟨data, fun _ => none⟩ { userId := c, role := roleOwner, joinedAt := now },
    hmade, Prod.ext rfl hadded, deleteGroup_restores h hid hfree, ?_, hok, ?_, rfl⟩
  · intro he
    have hput := congrArg (fun m => OrderedMap.get m (keyGroup data.groupId)) he
    simp only [OrderedMap.get_put_self, hkey] at hput
    cases hput
  · rw [hview, Function.update_self]

/-- Where the writes of a founding end up. -/
theorem createGroup_run {db₁ db₂ : GroupDb} (hgo : ¬ CreateRefused db c ids r)
    (hw₁ : GroupStore.createGroup db (GroupService.newGroup (generateShortId (str "g_") r) c
      name avatar (GroupService.uniqueMembers c ids) now) = (db₁, true))
    (hw₂ : GroupStore.addMember db₁ (generateShortId (str "g_") r)
      { userId := c, role := roleOwner, joinedAt := now } = (db₂, true))
    (hback : GroupStore.deleteGroup db₁ (generateShortId (str "g_") r) = (db, true))
    (tape : WriteTape) :
    runCalls (CallProg.createGroup c name avatar ids r now) tape db =
      match tape with
      | some _ :: _ => (db, { errorCode := .internalError })
      | none :: some _ :: some _ :: _ => (db₁, { errorCode := .internalError })
      | none :: some _ :: _ => (db, { errorCode := .internalError })
      | tape => runCalls (CallProg.addMembers (generateShortId (str "g_") r) now
          { errorCode := .ok, groupId := generateShortId (str "g_") r }
          (othersOf c ids)) (tape.drop 2) db₂ := by
  obtain ⟨hc, hsize, _⟩ := not_createRefused_iff.mp hgo
  unfold runCalls CallProg.createGroup
  simp only [hc, if_false, not_lt.mpr hsize]
  match tape with
  | some _ :: _ => rfl
  | none :: some _ :: some _ :: _ => simp [Prog.runFaulty, callFail, callExec, hw₁]
  | none :: some _ :: none :: _ => simp [Prog.runFaulty, callFail, callExec, hw₁, hback]
  | [none, some _] => simp [Prog.runFaulty, callFail, callExec, hw₁, hback]
  | [] => simp [callExec, hw₁, hw₂, othersOf]
  | [none] => simp [Prog.runFaulty, callFail, callExec, hw₁, hw₂, othersOf]
  | none :: none :: _ => simp [Prog.runFaulty, callFail, callExec, hw₁, hw₂, othersOf]

/-- A group of the creator, to which the loop adds others. -/
theorem addMembers_founds (ids : List Bytes) {db₂ : GroupDb} (h : GroupDbOk db₂) (hv : view db₂ g = some G)
    (hG : G.members = Function.update (fun _ => none) c
      (some { userId := c, role := roleOwner, joinedAt := now }))
    (result : GroupService.CreateGroupResult) (tape : WriteTape) :
    (runCalls (CallProg.addMembers g now result (othersOf c ids)) tape db₂).2 = result ∧
    FoundedWith g c (written (othersOf c ids) tape)
      (runCalls (CallProg.addMembers g now result (othersOf c ids)) tape db₂).1 := by
  obtain ⟨hresult, hothers, hall⟩ := addMembers_written now result h hv
    nodup_othersOf
    (fun w hw => ⟨(mem_othersOf.mp hw).1.2,
      by rw [hG, Function.update_of_ne (mem_othersOf.mp hw).2]⟩) tape
  refine ⟨hresult, ?_⟩
  have hc : GroupStore.getMember (runCalls (CallProg.addMembers g now result (othersOf c ids))
      tape db₂).1 g c = some { userId := c, role := roleOwner, joinedAt := now } := by
    rw [hothers c (fun hin => (mem_othersOf.mp (written_subset _ _ c hin)).2 rfl), hG,
      Function.update_self]
  refine ⟨?_, by rw [roleOf, hc, Option.map_some]⟩
  intro w
  constructor
  · intro hw
    by_contra hno
    push Not at hno
    rw [hothers w hno.2, hG, Function.update_of_ne hno.1] at hw
    cases hw
  · rintro (rfl | hw)
    · rw [hc]
      rfl
    · exact hall w hw

/-- Founded with those whose writes worked, it is founded when all of them did. -/
theorem founded_iff (tape : WriteTape) (hgo : ¬ CreateRefused db c ids r)
    (h : FoundedWith g c (written (othersOf c ids) tape) db') :
    Founded g c ids db' ↔ ∀ x ∈ tape.take (othersOf c ids).length, x = none := by
  rw [← written_all nodup_othersOf]
  constructor
  · intro hfounded w hw
    have hin := (hfounded.members w).mpr (Or.inr (mem_othersOf.mp hw).1)
    exact ((h.members w).mp hin).resolve_left (mem_othersOf.mp hw).2
  · intro hall
    have hmembers : ∀ w, (GroupStore.getMember db' g w).isSome ↔ w = c ∨ w ∈ ids ∧ w ≠ [] := by
      intro w
      rw [h.members]
      by_cases hwc : w = c
      · simp [hwc]
      · constructor
        · rintro (he | hw)
          · exact absurd he hwc
          · exact Or.inr (mem_othersOf.mp (written_subset _ _ w hw)).1
        · rintro (he | hw)
          · exact absurd he hwc
          · exact Or.inr (hall w (mem_othersOf.mpr ⟨hw, hwc⟩))
    refine ⟨hmembers, ⟨GroupService.uniqueMembers c ids, nodup_uniqueMembers, ?_, ?_⟩, h.owner⟩
    · exact (not_createRefused_iff.mp hgo).2.1
    · intro w hw
      exact (hmembers w).mpr (mem_uniqueMembers.mp hw)

/-- Without faults every founding that is not refused founds the whole group. -/
theorem createGroup_founded (h : GroupDbOk db) (hgo : ¬ CreateRefused db c ids r)
    (name avatar : Bytes) (now : Int) :
    Founded (generateShortId (str "g_") r) c ids
      (GroupService.createGroup db c name avatar ids r now).1 := by
  obtain ⟨db₁, db₂, G, hw₁, hw₂, hback, _, hok, hv, hG⟩ := createGroup_begins h hgo name avatar now
  rw [← runCalls_createGroup, createGroup_run hgo hw₁ hw₂ hback]
  refine (founded_iff [] hgo (addMembers_founds ids hok hv hG _ []).2).mpr ?_
  simp

theorem foundRight_failed {result : GroupService.CreateGroupResult} (h : result.errorCode ≠ .ok) :
    FoundRight db c ids (db', result) ↔ db' = db := by
  constructor
  · intro hright
    exact hright.failed h
  · intro he
    exact ⟨fun _ => he, fun hok => absurd hok h⟩

theorem foundRight_made {out : GroupDb × GroupService.CreateGroupResult}
    (h : out.2 = { errorCode := .ok, groupId := g }) :
    FoundRight db c ids out ↔ Founded g c ids out.1 := by
  obtain ⟨db', result⟩ := out
  subst h
  constructor
  · intro hright
    exact hright.made rfl
  · intro hfounded
    exact ⟨fun hne => absurd rfl hne, fun _ => hfounded⟩

/-- A founding that fails leaves nothing, and one that works all members, exactly when it is safe. -/
theorem create_right_iff (h : GroupDbOk db) (tape : WriteTape) :
    (FaultyGroupOp.create c name avatar ids r now tape).Right db ↔
      (FaultyGroupOp.create c name avatar ids r now tape).Safe db := by
  simp only [FaultyGroupOp.Right, FaultyGroupOp.Safe]
  by_cases hgo : CreateRefused db c ids r
  · obtain ⟨result, hresult, hrun⟩ :=
      createGroup_fails name avatar now hgo tape
    rw [hrun, foundRight_failed hresult]
    exact iff_of_true rfl (fun hno => absurd hgo hno)
  · obtain ⟨db₁, db₂, G, hw₁, hw₂, hback, hne, hok, hv, hG⟩ := createGroup_begins h hgo name avatar now
    have herror : (GroupService.CreateGroupResult.mk .internalError []).errorCode ≠ .ok := by decide
    have hmade : ∀ rest, FoundRight db c ids (runCalls _ rest db₂) ↔ _ := fun rest =>
      have hfounded := addMembers_founds ids hok hv hG
        { errorCode := .ok, groupId := generateShortId (str "g_") r } rest
      (foundRight_made hfounded.1).trans (founded_iff _ hgo hfounded.2)
    rw [createGroup_run hgo hw₁ hw₂ hback, forall_prop_of_true hgo]
    match tape with
    | some _ :: _ => exact iff_of_true ((foundRight_failed herror).mpr rfl) trivial
    | none :: some _ :: some _ :: _ => exact iff_of_false (fun hr => hne (hr.failed herror)) id
    | none :: some _ :: none :: _ => exact iff_of_true ((foundRight_failed herror).mpr rfl) trivial
    | [none, some _] => exact iff_of_true ((foundRight_failed herror).mpr rfl) trivial
    | [] => exact (hmade []).trans (by simp [FoundSafe])
    | [none] => exact (hmade []).trans (by simp [FoundSafe])
    | none :: none :: rest => exact hmade rest

theorem faultyGroupOp_right_iff (h : GroupDbOk db) (op : FaultyGroupOp) : op.Right db ↔ op.Safe db := by
  cases op with
  | create c name avatar ids r now tape => exact create_right_iff h tape
  | transfer g old new tape => exact transfer_right_iff h tape
  | other op => exact Iff.rfl

/-- Along every run, errors leave no traces and groups are founded as a whole exactly when no fault
comes after a write that changed something. -/
theorem groupFaults_right_iff (ops : List FaultyGroupOp) :
    AllSteps faultyGroupStep (fun db op => op.Right db) OrderedMap.empty ops ↔
      AllSteps faultyGroupStep (fun db op => op.Safe db) OrderedMap.empty ops := by
  constructor
  · exact AllSteps.imp (fun db op h _ => faultyGroupStep_dbOk op h)
      (fun db op h hright => (faultyGroupOp_right_iff h op).mp hright) groupDbOk_empty
  · exact AllSteps.imp (fun db op h _ => faultyGroupStep_dbOk op h)
      (fun db op h hsafe => (faultyGroupOp_right_iff h op).mpr hsafe) groupDbOk_empty

theorem create_kept (h : GroupDbOk db) (tape : WriteTape) :
    (FaultyGroupOp.create c name avatar ids r now tape).Kept db := by
  simp only [FaultyGroupOp.Kept]
  by_cases hgo : CreateRefused db c ids r
  · obtain ⟨result, hresult, hrun⟩ :=
      createGroup_fails name avatar now hgo tape
    rw [hrun]
    exact ⟨fun _ _ => rfl, fun hok => absurd hok hresult, fun hok => absurd hok hresult⟩
  · obtain ⟨db₁, db₂, G, hw₁, hw₂, hback, _, hok, hv, hG⟩ := createGroup_begins h hgo name avatar now
    have herror : (GroupService.CreateGroupResult.mk .internalError []).errorCode ≠ .ok := by decide
    have hfailed : ∀ tape, FoundKept db c ids tape (db, ⟨.internalError, []⟩) := fun tape =>
      ⟨fun _ _ => rfl, fun hok => absurd hok herror, fun hok => absurd hok herror⟩
    have hmade : ∀ tape : WriteTape, FoundKept db c ids tape (runCalls (CallProg.addMembers
        (generateShortId (str "g_") r) now ⟨.ok, generateShortId (str "g_") r⟩ (othersOf c ids))
        (tape.drop 2) db₂) := by
      intro tape
      obtain ⟨hresult, hfounded⟩ := addMembers_founds ids hok hv hG
        { errorCode := .ok, groupId := generateShortId (str "g_") r } (tape.drop 2)
      refine ⟨?_, ?_, ?_⟩
      · rw [hresult]
        exact fun hne => absurd rfl hne
      · rw [hresult]
        exact fun _ => hfounded
      · rw [hresult]
        intro _ hnone
        exact (founded_iff _ hgo hfounded).mpr
          (fun x hx => hnone x (List.mem_of_mem_drop (List.mem_of_mem_take hx)))
    rw [createGroup_run hgo hw₁ hw₂ hback]
    match tape with
    | some _ :: _ => exact hfailed _
    | none :: some _ :: some _ :: _ =>
      exact ⟨fun _ hno => absurd trivial hno, fun hok => absurd hok herror,
        fun hok => absurd hok herror⟩
    | none :: some _ :: none :: _ => exact hfailed _
    | [none, some _] => exact hfailed _
    | [] => exact hmade []
    | [none] => exact hmade [none]
    | none :: none :: rest => exact hmade (none :: none :: rest)

theorem faultyGroupOp_kept (h : GroupDbOk db) (op : FaultyGroupOp) : op.Kept db := by
  cases op with
  | create c name avatar ids r now tape => exact create_kept h tape
  | transfer g old new tape =>
    intro herror hsafe
    exact (transfer_right_iff h tape).mpr (fun _ => hsafe) herror
  | other op => exact trivial

/-- In every run, a transfer that fails leaves owner and roles alone unless a fault came after a
change of them, a founding that fails leaves nothing unless its rollback fails too, and a group
that was made has the members whose writes worked. -/
theorem groupFaults_kept (ops : List FaultyGroupOp) :
    AllSteps faultyGroupStep (fun db op => op.Kept db) OrderedMap.empty ops := by
  have hok : AllSteps faultyGroupStep (fun _ _ => True) OrderedMap.empty ops :=
    allSteps_of_forall (fun _ _ => trivial)
  exact hok.imp (fun db op h _ => faultyGroupStep_dbOk op h)
    (fun db op h _ => faultyGroupOp_kept h op) groupDbOk_empty

/-- A hand-over whose second write fails leaves a group whose owner is a plain member. A founding
whose fourth write fails makes a group of two. One whose second write and its rollback fail
leaves the record of the group. -/
theorem groupFaults_leave_traces :
    let make := FaultyGroupOp.create (str "a") [] [] [str "b", str "c"] groupRandom 5
    ¬ AllSteps faultyGroupStep (fun db op => op.Right db) OrderedMap.empty
      [make [], .transfer sampleGroupId (str "a") (str "b") [none, some ()]] ∧
    ¬ AllSteps faultyGroupStep (fun db op => op.Right db) OrderedMap.empty
      [make [none, none, none, some ()]] ∧
    ¬ AllSteps faultyGroupStep (fun db op => op.Right db) OrderedMap.empty
      [make [none, some (), some ()]] := by
  intro make
  refine ⟨?_, ?_, ?_⟩
  · rintro ⟨_, htransfer, _⟩
    exact absurd (congrFun (htransfer (by decide +kernel)).roles (str "a")) (by decide +kernel)
  · rintro ⟨hmake, _⟩
    exact absurd ((hmake.made (by decide +kernel)).members (str "c")) (by decide +kernel)
  · rintro ⟨hmake, _⟩
    have hsame := hmake.failed (by decide +kernel)
    exact absurd (congrArg (fun db => (GroupStore.getGroup db sampleGroupId).isSome) hsame)
      (by decide +kernel)

end SwiftChat.Chat
