import SwiftChat.Chat.GroupService
import Mathlib.Logic.Relation

/-! Group ids come from the generator, and only groups have members. -/
namespace SwiftChat.Chat
open Base
variable {db : GroupDb} {g w k : Bytes} {v : GroupValue} {now : Int}

/-- The shape of a generated group id, as far as the key layout depends on it. -/
def IsGroupId (g : Bytes) : Prop := str "g_" <+: g ∧ colon ∉ g

/-- Every stored group has a generated id, and every membership key starts like one. -/
structure GroupsOk (db : GroupDb) : Prop where
  group : ∀ g, (db.get (keyGroup g)).isSome → IsGroupId g
  member : ∀ g w, (db.get (keyGroupMember g w)).isSome → str "g_" <+: g

theorem GroupsOk.of_isMember (h : GroupsOk db) (hm : GroupStore.isMember db g w = true) :
    str "g_" <+: g := by
  unfold GroupStore.isMember at hm
  split at hm
  · cases hm
  · exact h.member g w hm

theorem groupsOk_empty : GroupsOk OrderedMap.empty where
  group g h := by simp at h
  member g w h := by simp at h

theorem isGroupId_generate {n : Nat} (r : RandomString n) :
    IsGroupId (generateShortId (str "g_") r) := by
  refine ⟨List.prefix_append _ _, ?_⟩
  intro h
  rcases List.mem_append.mp h with h | h
  · exact absurd h (by decide)
  · exact absurd (r.alphaNum _ h) (by decide)

/-! The byte at position five tells the three key families apart. -/

theorem keyGroup_five (g : Bytes) : (keyGroup g)[5]? = some 58 := by
  rw [keyGroup, List.getElem?_append_left (by decide)]
  decide

theorem keyGroupMember_five (g w : Bytes) : (keyGroupMember g w)[5]? = some 95 := by
  rw [keyGroupMember, List.append_assoc, List.append_assoc, List.getElem?_append_left (by decide)]
  decide

theorem keyUserGroup_five (w g : Bytes) : (keyUserGroup w g)[5]? = some 103 := by
  rw [keyUserGroup, List.append_assoc, List.append_assoc, List.getElem?_append_left (by decide)]
  decide

theorem keyGroup_ne_keyGroupMember {g' : Bytes} : keyGroup g ≠ keyGroupMember g' w := by
  intro h
  have := keyGroup_five g
  simp [h, keyGroupMember_five] at this

theorem keyGroup_ne_keyUserGroup {g' : Bytes} : keyGroup g ≠ keyUserGroup w g' := by
  intro h
  have := keyGroup_five g
  simp [h, keyUserGroup_five] at this

theorem keyGroupMember_ne_keyUserGroup {g' w' : Bytes} :
    keyGroupMember g w ≠ keyUserGroup w' g' := by
  intro h
  have := keyGroupMember_five g w
  simp [h, keyUserGroup_five] at this

/-- A membership key of a generated group id can only be read with ids that start like it. -/
theorem isPrefix_of_keyGroupMember_eq {g' w' : Bytes} (hg : IsGroupId g)
    (h : keyGroupMember g' w' = keyGroupMember g w) : str "g_" <+: g' := by
  have hcut : ∀ g w, keyGroupMember g w = kGroupMember ++ (g ++ colon :: w) := by
    intro g w
    simp [keyGroupMember, str_colon, List.append_assoc]
  rw [hcut, hcut] at h
  have h' := List.append_cancel_left h
  have hown : g <+: g' ++ colon :: w' := ⟨colon :: w, h'.symm⟩
  have hother : g' ++ [colon] <+: g' ++ colon :: w' := ⟨w', by simp⟩
  rcases List.prefix_or_prefix_of_prefix hown hother with hp | hp
  · rcases List.prefix_concat_iff.mp hp with he | hp
    · exact absurd (he ▸ List.mem_append_right _ List.mem_cons_self) hg.2
    · exact hg.1.trans hp
  · exact absurd (hp.subset (List.mem_append_right _ List.mem_cons_self)) hg.2

theorem keyGroup_inj {g' : Bytes} (h : keyGroup g = keyGroup g') : g = g' :=
  List.append_cancel_left h

/-! Each kind of write keeps the invariant. -/

theorem GroupsOk.put_group (h : GroupsOk db) (hg : IsGroupId g) :
    GroupsOk (db.put (keyGroup g) v) where
  group g' hs := by
    by_cases he : keyGroup g' = keyGroup g
    · rwa [keyGroup_inj he]
    · rw [OrderedMap.get_put_ne he] at hs
      exact h.group g' hs
  member g' w hs := by
    rw [OrderedMap.get_put_ne keyGroup_ne_keyGroupMember.symm] at hs
    exact h.member g' w hs

theorem GroupsOk.put_member (h : GroupsOk db) (hg : IsGroupId g) :
    GroupsOk (db.put (keyGroupMember g w) v) where
  group g' hs := by
    rw [OrderedMap.get_put_ne keyGroup_ne_keyGroupMember] at hs
    exact h.group g' hs
  member g' w' hs := by
    by_cases he : keyGroupMember g' w' = keyGroupMember g w
    · exact isPrefix_of_keyGroupMember_eq hg he
    · rw [OrderedMap.get_put_ne he] at hs
      exact h.member g' w' hs

theorem GroupsOk.put_userGroup (h : GroupsOk db) : GroupsOk (db.put (keyUserGroup w g) v) where
  group g' hs := by
    rw [OrderedMap.get_put_ne keyGroup_ne_keyUserGroup] at hs
    exact h.group g' hs
  member g' w' hs := by
    rw [OrderedMap.get_put_ne keyGroupMember_ne_keyUserGroup] at hs
    exact h.member g' w' hs

/-- The invariant is about the keys that are present. -/
theorem GroupsOk.mono {db' : GroupDb} (h : GroupsOk db)
    (hkeep : ∀ k, (db'.get k).isSome → (db.get k).isSome) : GroupsOk db' :=
  ⟨fun g hs => h.group g (hkeep _ hs), fun g w hs => h.member g w (hkeep _ hs)⟩

/-- Overwriting a present key adds none. -/
theorem isSome_put_present {k' : Bytes} (hk : (db.get k).isSome) :
    ((db.put k v).get k').isSome ↔ (db.get k').isSome := by
  by_cases he : k' = k
  · rw [he, OrderedMap.get_put_self]
    exact iff_of_true rfl hk
  · rw [OrderedMap.get_put_ne he]

theorem GroupsOk.put_present (h : GroupsOk db) (hk : (db.get k).isSome) :
    GroupsOk (db.put k v) :=
  h.mono fun _ => (isSome_put_present hk).mp

theorem isSome_of_delete {k' : Bytes} (h : ((db.delete k).get k').isSome) : (db.get k').isSome := by
  rw [OrderedMap.get_delete] at h
  split at h
  · cases h
  · exact h

theorem GroupsOk.delete (h : GroupsOk db) : GroupsOk (db.delete k) :=
  h.mono fun _ => isSome_of_delete

/-- The keys a batch that drops members clears. -/
theorem get_dropMembers {ids : List Bytes} :
    (db.write (GroupStore.dropMembers g ids)).get k =
      if k ∈ ids.flatMap (fun uid => [keyGroupMember g uid, keyUserGroup uid g]) then none
      else db.get k := by
  have hdrop : GroupStore.dropMembers g ids =
      (ids.flatMap fun uid => [keyGroupMember g uid, keyUserGroup uid g]).map .delete := by
    rw [List.map_flatMap]
    rfl
  rw [hdrop, OrderedMap.get_write_deletes]
  congr

theorem isSome_of_dropMembers {ids : List Bytes}
    (h : ((db.write (GroupStore.dropMembers g ids)).get k).isSome) : (db.get k).isSome := by
  rw [get_dropMembers] at h
  split at h
  · cases h
  · exact h

theorem GroupsOk.drop {ids : List Bytes} (h : GroupsOk db) :
    GroupsOk (db.write (GroupStore.dropMembers g ids)) :=
  h.mono fun _ => isSome_of_dropMembers

theorem get_of_getGroup {data : GroupData} (h : GroupStore.getGroup db g = some data) :
    g ≠ [] ∧ db.get (keyGroup g) = some (.group data) := by
  unfold GroupStore.getGroup at h
  split at h
  · cases h
  · rename_i hne
    refine ⟨hne, ?_⟩
    split at h
    · rename_i hg
      rw [hg, Option.some.inj h]
    · cases h

theorem get_of_getMember {m : GroupMemberData} (h : GroupStore.getMember db g w = some m) :
    db.get (keyGroupMember g w) = some (.member m) := by
  unfold GroupStore.getMember at h
  split at h
  · cases h
  · split at h
    · rename_i hg
      rw [hg, Option.some.inj h]
    · cases h

theorem GroupsOk.put_known {data : GroupData} (h : GroupsOk db)
    (hg : GroupStore.getGroup db g = some data) : GroupsOk (db.put (keyGroup g) v) :=
  h.put_present (by rw [(get_of_getGroup hg).2]; rfl)

/-- The operations of the group service that can write. -/
inductive GroupOp where
  | create (creatorId groupName avatarUrl : Bytes) (memberIds : List Bytes) (r : RandomString 12)
      (now : Int)
  | dismiss (groupId operatorId : Bytes)
  | update (groupId operatorId groupName avatarUrl announcement : Bytes) (now : Int)
  | invite (groupId inviterId : Bytes) (memberIds : List Bytes) (now : Int)
  | remove (groupId operatorId memberId : Bytes)
  | leave (groupId userId : Bytes)
  | transfer (groupId oldOwnerId newOwnerId : Bytes)
  | setRole (groupId operatorId memberId : Bytes) (role : Int)

def groupStep (db : GroupDb) : GroupOp → GroupDb
  | .create creatorId groupName avatarUrl memberIds r now =>
    (GroupService.createGroup db creatorId groupName avatarUrl memberIds r now).1
  | .dismiss groupId operatorId => (GroupService.dismissGroup db groupId operatorId).1
  | .update groupId operatorId groupName avatarUrl announcement now =>
    (GroupService.updateGroup db groupId operatorId groupName avatarUrl announcement now).1
  | .invite groupId inviterId memberIds now =>
    (GroupService.inviteMembers db groupId inviterId memberIds now).1
  | .remove groupId operatorId memberId =>
    (GroupService.removeMember db groupId operatorId memberId).1
  | .leave groupId userId => (GroupService.leaveGroup db groupId userId).1
  | .transfer groupId oldOwnerId newOwnerId =>
    (GroupService.transferOwner db groupId oldOwnerId newOwnerId).1
  | .setRole groupId operatorId memberId role =>
    (GroupService.setMemberRole db groupId operatorId memberId role).1

/-- A call of the store that a group operation can make. -/
inductive StoreCall (db : GroupDb) : GroupDb → Prop where
  | createGroup {data : GroupData} (h : IsGroupId data.groupId) :
    StoreCall db (GroupStore.createGroup db data).1
  | updateGroup {g name avatar text : Bytes} {now : Int} :
    StoreCall db (GroupStore.updateGroup db g name avatar text now).1
  | updateGroupOwner {g w : Bytes} : StoreCall db (GroupStore.updateGroupOwner db g w).1
  | deleteGroup {g : Bytes} : StoreCall db (GroupStore.deleteGroup db g).1
  | dissolveGroup {g : Bytes} : StoreCall db (GroupStore.dissolveGroup db g).1
  | addMember {g : Bytes} {m : GroupMemberData} : StoreCall db (GroupStore.addMember db g m).1
  | removeMember {g w : Bytes} : StoreCall db (GroupStore.removeMember db g w).1
  | updateMemberRole {g w : Bytes} {role : Int} :
    StoreCall db (GroupStore.updateMemberRole db g w role).1

abbrev StoreCalls := Relation.ReflTransGen StoreCall

theorem StoreCall.calls {db' : GroupDb} (h : StoreCall db db') : StoreCalls db db' :=
  Relation.ReflTransGen.single h

/-- What a call of the store can write. -/
inductive StoreWrite (db : GroupDb) : GroupDb → Prop where
  | none : StoreWrite db db
  | create {g : Bytes} {data : GroupData} (hid : IsGroupId g) :
    StoreWrite db (db.put (keyGroup g) (.group data))
  | record {g : Bytes} {old data : GroupData} (hg : GroupStore.getGroup db g = some old) :
    StoreWrite db (db.put (keyGroup g) (.group data))
  | delete {g : Bytes} : StoreWrite db
      ((db.delete (keyGroup g)).write (GroupStore.dropMembers g (GroupStore.memberIds db g)))
  | dissolve {g : Bytes} {old data : GroupData} (hg : GroupStore.getGroup db g = some old) :
    StoreWrite db ((db.put (keyGroup g) (.group data)).write
      (GroupStore.dropMembers g (GroupStore.memberIds db g)))
  | add {g : Bytes} {old data : GroupData} {m : GroupMemberData}
      (hg : GroupStore.getGroup db g = some old) (hw : m.userId ≠ []) :
    StoreWrite db (((db.put (keyGroupMember g m.userId) (.member m)).put
      (keyUserGroup m.userId g) .empty).put (keyGroup g) (.group data))
  | remove {g w : Bytes} {old data : GroupData} (hg : GroupStore.getGroup db g = some old) :
    StoreWrite db (((db.delete (keyGroupMember g w)).delete (keyUserGroup w g)).put
      (keyGroup g) (.group data))
  | role {g w : Bytes} {m : GroupMemberData} {role : Int}
      (hm : GroupStore.getMember db g w = some m) :
    StoreWrite db (db.put (keyGroupMember g w) (.member { m with role := role }))

theorem StoreCall.write {db' : GroupDb} (h : StoreCall db db') : StoreWrite db db' := by
  cases h with
  | createGroup hid =>
    unfold GroupStore.createGroup
    repeat' split
    all_goals first | exact .none | exact .create hid
  | updateGroup =>
    unfold GroupStore.updateGroup
    split
    · exact .none
    · rename_i hg
      exact .record hg
  | updateGroupOwner =>
    unfold GroupStore.updateGroupOwner
    split
    · exact .none
    · split
      · exact .none
      · rename_i hg
        exact .record hg
  | deleteGroup =>
    unfold GroupStore.deleteGroup
    split
    · exact .none
    · exact .delete
  | dissolveGroup =>
    unfold GroupStore.dissolveGroup
    split
    · exact .none
    · rename_i hg
      split
      · exact .none
      · exact .dissolve hg
  | addMember =>
    unfold GroupStore.addMember
    split
    · exact .none
    · rename_i hne
      split
      · exact .none
      · split
        · exact .none
        · rename_i hg
          exact .add hg (fun hw => hne (Or.inr hw))
  | removeMember =>
    unfold GroupStore.removeMember
    split
    · exact .none
    · split
      · exact .none
      · split
        · exact .none
        · rename_i hg
          exact .remove hg
  | updateMemberRole =>
    unfold GroupStore.updateMemberRole
    split
    · exact .none
    · rename_i hm
      exact .role hm

/-- A call of the store as the operations make it: a group they delete is known or has an id of
theirs, and a user they add is one of `U`. -/
inductive OpCall (U : Bytes → Prop) (db : GroupDb) : GroupDb → Prop where
  | createGroup {data : GroupData} (h : IsGroupId data.groupId) :
    OpCall U db (GroupStore.createGroup db data).1
  | updateGroup {g name avatar text : Bytes} {now : Int} :
    OpCall U db (GroupStore.updateGroup db g name avatar text now).1
  | updateGroupOwner {g w : Bytes} : OpCall U db (GroupStore.updateGroupOwner db g w).1
  | deleteGroup {g : Bytes} (h : IsGroupId g ∨ (GroupStore.getGroup db g).isSome) :
    OpCall U db (GroupStore.deleteGroup db g).1
  | addMember {g : Bytes} {m : GroupMemberData} (h : U m.userId) :
    OpCall U db (GroupStore.addMember db g m).1
  | removeMember {g w : Bytes} : OpCall U db (GroupStore.removeMember db g w).1
  | updateMemberRole {g w : Bytes} {role : Int} :
    OpCall U db (GroupStore.updateMemberRole db g w role).1

abbrev OpCalls (U : Bytes → Prop) := Relation.ReflTransGen (OpCall U)

theorem OpCall.calls {U : Bytes → Prop} {db' : GroupDb} (h : OpCall U db db') : OpCalls U db db' :=
  Relation.ReflTransGen.single h

theorem OpCall.storeCall {U : Bytes → Prop} {db' : GroupDb} (h : OpCall U db db') :
    StoreCall db db' := by
  cases h with
  | createGroup h => exact .createGroup h
  | updateGroup => exact .updateGroup
  | updateGroupOwner => exact .updateGroupOwner
  | deleteGroup _ => exact .deleteGroup
  | addMember _ => exact .addMember
  | removeMember => exact .removeMember
  | updateMemberRole => exact .updateMemberRole

theorem OpCalls.storeCalls {U : Bytes → Prop} {db' : GroupDb} (h : OpCalls U db db') :
    StoreCalls db db' := by
  induction h with
  | refl => exact Relation.ReflTransGen.refl
  | tail _ hstep ih => exact ih.tail hstep.storeCall

/-- The users an operation may add are all among `U`. -/
def GroupOp.Adds (U : Bytes → Prop) : GroupOp → Prop
  | .create creatorId _ _ memberIds _ _ => U creatorId ∧ ∀ w ∈ memberIds, U w
  | .invite _ _ memberIds _ => ∀ w ∈ memberIds, U w
  | _ => True

theorem mem_uniqueMembers {c : Bytes} {ids : List Bytes} :
    w ∈ GroupService.uniqueMembers c ids ↔ w = c ∨ w ∈ ids ∧ w ≠ [] := by
  have hkeys : w ∈ GroupService.uniqueMembers c ids ↔
      (((ids.filter (· ≠ [])).foldl (fun s id => s.put id ())
        ((OrderedMap.empty : OrderedMap Bytes Unit).put c ())).get w).isSome := by
    rw [Option.isSome_iff_exists]
    constructor
    · intro h
      obtain ⟨e, he, rfl⟩ := List.mem_map.mp h
      exact ⟨e.2, OrderedMap.mem_entries.mp he⟩
    · rintro ⟨v, hv⟩
      exact List.mem_map.mpr ⟨(w, v), OrderedMap.mem_entries.mpr hv, rfl⟩
  rw [hkeys, OrderedMap.isSome_get_foldl_put, OrderedMap.get_put]
  by_cases h : w = c
  · simp [h]
  · simp [h]

/-- A loop that adds users or passes over them. -/
theorem OpCalls.foldl {U : Bytes → Prop} {f : GroupDb → Bytes → GroupDb} {ids : List Bytes}
    (hf : ∀ db w, U w → OpCalls U db (f db w)) (hids : ∀ w ∈ ids, U w) :
    OpCalls U db (ids.foldl f db) := by
  induction ids generalizing db with
  | nil => exact Relation.ReflTransGen.refl
  | cons w ids ih =>
    have hw := hf db w (hids w List.mem_cons_self)
    exact hw.trans (ih (fun w hw => hids w (List.mem_cons_of_mem _ hw)))

theorem createGroup_calls {U : Bytes → Prop} {c name avatar : Bytes} {ids : List Bytes}
    {r : RandomString 12} (hc : U c) (hids : ∀ w ∈ ids, U w) :
    OpCalls U db (GroupService.createGroup db c name avatar ids r now).1 := by
  unfold GroupService.createGroup
  split
  · exact Relation.ReflTransGen.refl
  · simp only
    split
    · exact Relation.ReflTransGen.refl
    · have hnew : OpCalls U db (GroupStore.createGroup db (GroupService.newGroup _ c name avatar
          (GroupService.uniqueMembers c ids) now)).1 :=
        (OpCall.createGroup (isGroupId_generate r)).calls
      split
      · exact hnew
      · split
        · exact (hnew.tail (.addMember hc)).tail (.deleteGroup (Or.inl (isGroupId_generate r)))
        · refine (hnew.tail (.addMember hc)).trans
            (OpCalls.foldl (fun _ _ hw => (OpCall.addMember hw).calls) ?_)
          intro w hw
          rcases mem_uniqueMembers.mp (List.mem_filter.mp hw).1 with rfl | hmem
          · exact hc
          · exact hids w hmem.1

theorem inviteLoop_calls {U : Bytes → Prop} {ids : List Bytes} (hids : ∀ w ∈ ids, U w) :
    OpCalls U db (GroupService.inviteLoop db g ids now) := by
  apply OpCalls.foldl _ hids
  intro db w hw
  split
  · exact Relation.ReflTransGen.refl
  · split
    · exact Relation.ReflTransGen.refl
    · exact (OpCall.addMember hw).calls

/-- A group operation is a sequence of calls of the store: its guards only choose which. -/
theorem groupStep_opCalls {U : Bytes → Prop} (db : GroupDb) (op : GroupOp) (hop : op.Adds U) :
    OpCalls U db (groupStep db op) := by
  cases op with
  | create => exact createGroup_calls hop.1 hop.2
  | dismiss =>
    simp only [groupStep, GroupService.dismissGroup]
    repeat' split
    all_goals first
      | exact Relation.ReflTransGen.refl
      | (rename_i hg _; exact (OpCall.deleteGroup (Or.inr (by rw [hg]; rfl))).calls)
  | update =>
    simp only [groupStep, GroupService.updateGroup]
    repeat' split
    all_goals first | exact Relation.ReflTransGen.refl | exact OpCall.updateGroup.calls
  | invite =>
    simp only [groupStep, GroupService.inviteMembers]
    repeat' split
    all_goals first | exact Relation.ReflTransGen.refl | exact inviteLoop_calls hop
  | remove =>
    simp only [groupStep, GroupService.removeMember]
    repeat' split
    all_goals first | exact Relation.ReflTransGen.refl | exact OpCall.removeMember.calls
  | leave =>
    simp only [groupStep, GroupService.leaveGroup]
    repeat' split
    all_goals first | exact Relation.ReflTransGen.refl | exact OpCall.removeMember.calls
  | transfer =>
    simp only [groupStep, GroupService.transferOwner]
    repeat' split
    · exact Relation.ReflTransGen.refl
    · exact Relation.ReflTransGen.refl
    · exact Relation.ReflTransGen.refl
    · exact Relation.ReflTransGen.refl
    · exact OpCall.updateMemberRole.calls
    · exact OpCall.updateMemberRole.calls.tail .updateMemberRole
    · exact (OpCall.updateMemberRole.calls.tail .updateMemberRole).tail .updateGroupOwner
  | setRole =>
    simp only [groupStep, GroupService.setMemberRole]
    repeat' split
    all_goals first | exact Relation.ReflTransGen.refl | exact OpCall.updateMemberRole.calls

theorem adds_all (op : GroupOp) : op.Adds (fun _ => True) := by
  cases op with
  | create => exact ⟨trivial, fun _ _ => trivial⟩
  | invite => exact fun _ _ => trivial
  | _ => exact trivial

theorem groupStep_calls (db : GroupDb) (op : GroupOp) : StoreCalls db (groupStep db op) :=
  (groupStep_opCalls db op (adds_all op)).storeCalls

theorem GroupsOk.of_getGroup {data : GroupData} (h : GroupsOk db)
    (hg : GroupStore.getGroup db g = some data) : IsGroupId g :=
  h.group g (by rw [(get_of_getGroup hg).2]; rfl)

theorem GroupsOk.call {db' : GroupDb} (h : GroupsOk db) (hc : StoreCall db db') : GroupsOk db' := by
  cases hc.write with
  | none => exact h
  | create hid => exact h.put_group hid
  | record hg => exact h.put_known hg
  | delete => exact h.delete.drop
  | dissolve hg => exact (h.put_known hg).drop
  | add hg _ => exact ((h.put_member (h.of_getGroup hg)).put_userGroup).put_group (h.of_getGroup hg)
  | remove hg => exact (h.delete.delete).put_group (h.of_getGroup hg)
  | role hm => exact h.put_present (by rw [get_of_getMember hm]; rfl)

theorem GroupsOk.calls {db' : GroupDb} (h : GroupsOk db) (hc : StoreCalls db db') :
    GroupsOk db' := by
  induction hc with
  | refl => exact h
  | tail _ hstep ih => exact ih.call hstep

theorem GroupsOk.of_deleted (h : GroupsOk db)
    (hg : IsGroupId g ∨ (GroupStore.getGroup db g).isSome) : IsGroupId g := by
  rcases hg with hg | hg
  · exact hg
  · obtain ⟨data, hg⟩ := Option.isSome_iff_exists.mp hg
    exact h.of_getGroup hg

/-- What each call keeps, given the ids of the groups, holds after an operation. -/
theorem OpCalls.keeps {U : Bytes → Prop} {P : GroupDb → Prop} {db' : GroupDb} (hok : GroupsOk db)
    (hkeep : ∀ {db db'}, P db → GroupsOk db → OpCall U db db' → P db') (hp : P db)
    (hc : OpCalls U db db') : P db' := by
  have hboth : GroupsOk db' ∧ P db' := by
    induction hc with
    | refl => exact ⟨hok, hp⟩
    | tail _ hstep ih => exact ⟨ih.1.call hstep.storeCall, hkeep ih.2 ih.1 hstep⟩
  exact hboth.2

/-! Members are held by groups. -/

/-- Every member of a group has a name, and the group exists. -/
def MembersHeld (db : GroupDb) : Prop :=
  ∀ g w, IsGroupId g → (db.get (keyGroupMember g w)).isSome →
    w ≠ [] ∧ (db.get (keyGroup g)).isSome

theorem membersHeld_empty : MembersHeld OrderedMap.empty := by
  intro g w _ h
  cases h

theorem keyGroupMember_inj {g' w' : Bytes} (hg : IsGroupId g) (hg' : IsGroupId g')
    (h : keyGroupMember g w = keyGroupMember g' w') : g = g' ∧ w = w' := by
  simp only [keyGroupMember, str_colon, List.append_assoc] at h
  exact append_sep_inj hg.2 hg'.2 (List.append_cancel_left h)

/-- What only takes members away and keeps the groups keeps the invariant. -/
theorem MembersHeld.shrink {db' : GroupDb} (h : MembersHeld db)
    (hm : ∀ g w, (db'.get (keyGroupMember g w)).isSome → (db.get (keyGroupMember g w)).isSome)
    (hg : ∀ g, (db.get (keyGroup g)).isSome → (db'.get (keyGroup g)).isSome) : MembersHeld db' := by
  intro g w hid hs
  obtain ⟨hw, hgroup⟩ := h g w hid (hm g w hs)
  exact ⟨hw, hg g hgroup⟩

theorem MembersHeld.put_group (h : MembersHeld db) : MembersHeld (db.put (keyGroup g) v) := by
  refine h.shrink ?_ ?_
  · intro g' w hs
    rwa [OrderedMap.get_put_ne keyGroup_ne_keyGroupMember.symm] at hs
  · intro g' hs
    rw [OrderedMap.get_put]
    split
    · rfl
    · exact hs

theorem MembersHeld.put_present (h : MembersHeld db) (hk : (db.get k).isSome) :
    MembersHeld (db.put k v) :=
  h.shrink (fun _ _ => (isSome_put_present hk).mp) (fun _ => (isSome_put_present hk).mpr)

theorem MembersHeld.put_userGroup (h : MembersHeld db) :
    MembersHeld (db.put (keyUserGroup w g) v) := by
  refine h.shrink ?_ ?_
  · intro g' w' hs
    rwa [OrderedMap.get_put_ne keyGroupMember_ne_keyUserGroup] at hs
  · intro g' hs
    rwa [OrderedMap.get_put_ne keyGroup_ne_keyUserGroup]

/-- A new member joins a group that exists. -/
theorem MembersHeld.put_member (h : MembersHeld db) (hg : IsGroupId g) (hw : w ≠ [])
    (hs : (db.get (keyGroup g)).isSome) : MembersHeld (db.put (keyGroupMember g w) v) := by
  intro g' w' hid hs'
  rw [OrderedMap.get_put_ne keyGroup_ne_keyGroupMember]
  by_cases he : keyGroupMember g' w' = keyGroupMember g w
  · obtain ⟨rfl, rfl⟩ := keyGroupMember_inj hid hg he
    exact ⟨hw, hs⟩
  · rw [OrderedMap.get_put_ne he] at hs'
    exact h g' w' hid hs'

theorem MembersHeld.delete_other (h : MembersHeld db) (hk : ∀ g, keyGroup g ≠ k) :
    MembersHeld (db.delete k) := by
  refine h.shrink (fun g w hs => isSome_of_delete hs) ?_
  intro g hs
  rwa [OrderedMap.get_delete_ne (hk g)]

theorem keyGroup_not_dropped {g' : Bytes} {ids : List Bytes} :
    keyGroup g' ∉ ids.flatMap (fun uid => [keyGroupMember g uid, keyUserGroup uid g]) := by
  intro h
  obtain ⟨uid, _, h⟩ := List.mem_flatMap.mp h
  rcases List.mem_cons.mp h with h | h
  · exact keyGroup_ne_keyGroupMember h
  · exact keyGroup_ne_keyUserGroup (List.mem_singleton.mp h)

theorem MembersHeld.drop {ids : List Bytes} (h : MembersHeld db) :
    MembersHeld (db.write (GroupStore.dropMembers g ids)) := by
  refine h.shrink (fun g' w hs => isSome_of_dropMembers hs) ?_
  intro g' hs
  rwa [get_dropMembers, if_neg keyGroup_not_dropped]

theorem mem_memberIds (hw : w ≠ []) (h : (db.get (keyGroupMember g w)).isSome) :
    w ∈ GroupStore.memberIds db g := OrderedMap.mem_scan_tails.mpr ⟨hw, h⟩

/-- A group goes with all of its members. -/
theorem MembersHeld.delete_group (h : MembersHeld db) :
    MembersHeld ((db.delete (keyGroup g)).write
      (GroupStore.dropMembers g (GroupStore.memberIds db g))) := by
  intro g' w hid hs
  obtain ⟨hw, hgroup⟩ := h g' w hid (isSome_of_delete (isSome_of_dropMembers hs))
  refine ⟨hw, ?_⟩
  rw [get_dropMembers, if_neg keyGroup_not_dropped]
  by_cases hg : g' = g
  · rw [hg] at hs
    have hmem : w ∈ GroupStore.memberIds db g :=
      mem_memberIds hw (isSome_of_delete (isSome_of_dropMembers hs))
    rw [get_dropMembers, if_pos] at hs
    · cases hs
    · exact List.mem_flatMap.mpr ⟨w, hmem, List.mem_cons_self⟩
  · rwa [OrderedMap.get_delete_ne (fun he => hg (keyGroup_inj he))]

theorem MembersHeld.call {db' : GroupDb} (h : MembersHeld db) (hok : GroupsOk db)
    (hc : StoreCall db db') : MembersHeld db' := by
  cases hc.write with
  | none => exact h
  | create _ => exact h.put_group
  | record _ => exact h.put_group
  | delete => exact h.delete_group
  | dissolve _ => exact h.put_group.drop
  | add hg hw =>
    have hs := Option.isSome_iff_exists.mpr ⟨_, (get_of_getGroup hg).2⟩
    exact ((h.put_member (hok.of_getGroup hg) hw hs).put_userGroup).put_group
  | remove _ =>
    exact ((h.delete_other fun _ => keyGroup_ne_keyGroupMember).delete_other
      fun _ => keyGroup_ne_keyUserGroup).put_group
  | role hm => exact h.put_present (by rw [get_of_getMember hm]; rfl)

theorem MembersHeld.calls {db' : GroupDb} (h : MembersHeld db) (hok : GroupsOk db)
    (hc : StoreCalls db db') : MembersHeld db' := by
  induction hc with
  | refl => exact h
  | tail hpast hstep ih => exact ih.call (hok.calls hpast) hstep

end SwiftChat.Chat
