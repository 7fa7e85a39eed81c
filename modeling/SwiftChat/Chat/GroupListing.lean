import SwiftChat.Chat.GroupChange

/-! The index by user lists the groups a user is a member of. -/
namespace SwiftChat.Chat
open Base
variable {db : GroupDb} {g w : Bytes} {v : GroupValue} {data : GroupData} {m : GroupMemberData}
  {ids : List Bytes} {now : Int}

/-- Every record carries the id it is stored under, and an entry of the index stands for a
membership. -/
structure GroupsListed (db : GroupDb) : Prop where
  named : ∀ g data, GroupStore.getGroup db g = some data → data.groupId = g
  listed : ∀ g w, IsGroupId g → (db.get (keyUserGroup w g)).isSome →
    (db.get (keyGroupMember g w)).isSome

theorem groupsListed_empty : GroupsListed OrderedMap.empty where
  named g data h := by simp [GroupStore.getGroup] at h
  listed g w _ h := by cases h

theorem keyUserGroup_inj {g' w' : Bytes} (hg : IsGroupId g) (hg' : IsGroupId g')
    (h : keyUserGroup w g = keyUserGroup w' g') : w = w' ∧ g = g' := by
  simp only [keyUserGroup, str_colon, List.append_assoc] at h
  exact append_sep_inj_right hg.2 hg'.2 (List.append_cancel_left h)

theorem GroupsListed.put_group (h : GroupsListed db) (hg : g ≠ []) (hid : data.groupId = g) :
    GroupsListed (db.put (keyGroup g) (.group data)) where
  named g' data' hd := by
    rw [getGroup_put hg] at hd
    split at hd
    · rename_i he
      rw [← Option.some.inj hd, hid, he]
    · exact h.named g' data' hd
  listed g' w hid hs := by
    rw [OrderedMap.get_put_ne keyGroup_ne_keyUserGroup.symm] at hs
    rw [OrderedMap.get_put_ne keyGroup_ne_keyGroupMember.symm]
    exact h.listed g' w hid hs

theorem GroupsListed.put_member (h : GroupsListed db) :
    GroupsListed (db.put (keyGroupMember g w) v) where
  named g' data' hd := by
    rw [getGroup_congr (OrderedMap.get_put_ne keyGroup_ne_keyGroupMember)] at hd
    exact h.named g' data' hd
  listed g' w' hid hs := by
    rw [OrderedMap.get_put_ne keyGroupMember_ne_keyUserGroup.symm] at hs
    rw [OrderedMap.get_put]
    split
    · rfl
    · exact h.listed g' w' hid hs

theorem GroupsListed.put_userGroup (h : GroupsListed db) (hg : IsGroupId g)
    (hs : (db.get (keyGroupMember g w)).isSome) : GroupsListed (db.put (keyUserGroup w g) v) where
  named g' data' hd := by
    rw [getGroup_congr (OrderedMap.get_put_ne keyGroup_ne_keyUserGroup)] at hd
    exact h.named g' data' hd
  listed g' w' hid hs' := by
    rw [OrderedMap.get_put_ne keyGroupMember_ne_keyUserGroup]
    by_cases he : keyUserGroup w' g' = keyUserGroup w g
    · obtain ⟨rfl, rfl⟩ := keyUserGroup_inj hid hg he
      exact hs
    · rw [OrderedMap.get_put_ne he] at hs'
      exact h.listed g' w' hid hs'

theorem GroupsListed.delete_group (h : GroupsListed db) : GroupsListed (db.delete (keyGroup g)) where
  named g' data' hd := by
    by_cases he : g' = g
    · rw [he] at hd
      unfold GroupStore.getGroup at hd
      rw [OrderedMap.get_delete_self] at hd
      split at hd <;> cases hd
    · rw [getGroup_congr (OrderedMap.get_delete_ne (fun hk => he (keyGroup_inj hk)))] at hd
      exact h.named g' data' hd
  listed g' w hid hs := by
    rw [OrderedMap.get_delete_ne keyGroup_ne_keyUserGroup.symm] at hs
    rw [OrderedMap.get_delete_ne keyGroup_ne_keyGroupMember.symm]
    exact h.listed g' w hid hs

/-- A membership and its entry go together. -/
theorem GroupsListed.delete_member (h : GroupsListed db) (hg : IsGroupId g) :
    GroupsListed ((db.delete (keyGroupMember g w)).delete (keyUserGroup w g)) where
  named g' data' hd := by
    rw [getGroup_congr (OrderedMap.get_delete_ne keyGroup_ne_keyUserGroup),
      getGroup_congr (OrderedMap.get_delete_ne keyGroup_ne_keyGroupMember)] at hd
    exact h.named g' data' hd
  listed g' w' hid hs := by
    have hne : keyUserGroup w' g' ≠ keyUserGroup w g := by
      intro he
      rw [he, OrderedMap.get_delete_self] at hs
      cases hs
    rw [OrderedMap.get_delete_ne hne,
      OrderedMap.get_delete_ne keyGroupMember_ne_keyUserGroup.symm] at hs
    rw [OrderedMap.get_delete_ne keyGroupMember_ne_keyUserGroup, OrderedMap.get_delete_ne]
    · exact h.listed g' w' hid hs
    · intro he
      obtain ⟨rfl, rfl⟩ := keyGroupMember_inj hid hg he
      exact hne rfl

theorem GroupsListed.drop (h : GroupsListed db) (hg : IsGroupId g) :
    GroupsListed (db.write (GroupStore.dropMembers g ids)) where
  named g' data' hd := by
    have hsame : (db.write (GroupStore.dropMembers g ids)).get (keyGroup g') =
        db.get (keyGroup g') := by
      rw [get_dropMembers, if_neg keyGroup_not_dropped]
    rw [getGroup_congr hsame] at hd
    exact h.named g' data' hd
  listed g' w hid hs := by
    rw [get_dropMembers] at hs ⊢
    split at hs
    · cases hs
    · rename_i hkept
      rw [if_neg]
      · exact h.listed g' w hid hs
      · intro hk
        obtain ⟨rfl, hw⟩ := (keyGroupMember_mem_dropped _ hid hg).mp hk
        exact hkept (List.mem_flatMap.mpr ⟨w, hw, by simp⟩)

/-! The operations of the store, on groups it knows. -/

theorem GroupsListed.updateGroup {name avatar text : Bytes} (h : GroupsListed db) :
    GroupsListed (GroupStore.updateGroup db g name avatar text now).1 := by
  unfold GroupStore.updateGroup
  cases hg : GroupStore.getGroup db g with
  | none => exact h
  | some data => exact h.put_group (get_of_getGroup hg).1 (h.named g data hg)

theorem GroupsListed.updateGroupOwner (h : GroupsListed db) :
    GroupsListed (GroupStore.updateGroupOwner db g w).1 := by
  unfold GroupStore.updateGroupOwner
  split
  · exact h
  · cases hg : GroupStore.getGroup db g with
    | none => exact h
    | some data => exact h.put_group (get_of_getGroup hg).1 (h.named g data hg)

theorem GroupsListed.deleteGroup (h : GroupsListed db) (hid : IsGroupId g) :
    GroupsListed (GroupStore.deleteGroup db g).1 := by
  simp only [GroupStore.deleteGroup, hid.ne_nil, if_false, OrderedMap.write_cons,
    OrderedMap.apply_delete]
  exact h.delete_group.drop hid

theorem GroupsListed.dissolveGroup (h : GroupsListed db) (hok : GroupsOk db) :
    GroupsListed (GroupStore.dissolveGroup db g).1 := by
  unfold GroupStore.dissolveGroup
  cases hg : GroupStore.getGroup db g with
  | none => exact h
  | some data =>
    have hput : GroupsListed (db.put (keyGroup g)
        (.group { data with status := 1, memberCount := 0 })) :=
      h.put_group (get_of_getGroup hg).1 (h.named g data hg)
    simp only
    split
    · exact h
    · exact hput.drop (hok.of_getGroup hg)

theorem GroupsListed.addMember (h : GroupsListed db) (hok : GroupsOk db) :
    GroupsListed (GroupStore.addMember db g m).1 := by
  unfold GroupStore.addMember
  split
  · exact h
  · split
    · exact h
    · cases hg : GroupStore.getGroup db g with
      | none => exact h
      | some data =>
        have hput := h.put_member (g := g) (w := m.userId) (v := .member m)
        have hlist := hput.put_userGroup (g := g) (w := m.userId) (v := .empty)
          (hok.of_getGroup hg) (by rw [OrderedMap.get_put_self]; rfl)
        exact hlist.put_group (get_of_getGroup hg).1 (h.named g data hg)

theorem GroupsListed.removeMember (h : GroupsListed db) (hok : GroupsOk db) :
    GroupsListed (GroupStore.removeMember db g w).1 := by
  unfold GroupStore.removeMember
  split
  · exact h
  · split
    · exact h
    · cases hg : GroupStore.getGroup db g with
      | none => exact h
      | some data =>
        exact (h.delete_member (hok.of_getGroup hg)).put_group (get_of_getGroup hg).1
          (h.named g data hg)

theorem GroupsListed.updateMemberRole {role : Int} (h : GroupsListed db) :
    GroupsListed (GroupStore.updateMemberRole db g w role).1 := by
  unfold GroupStore.updateMemberRole
  split
  · exact h
  · exact h.put_member

theorem GroupsListed.createGroup (h : GroupsListed db) (hid : IsGroupId data.groupId) :
    GroupsListed (GroupStore.createGroup db data).1 := by
  unfold GroupStore.createGroup
  repeat' split
  all_goals first | exact h | exact h.put_group hid.ne_nil rfl

theorem GroupsListed.call {U : Bytes → Prop} {db' : GroupDb} (h : GroupsListed db)
    (hok : GroupsOk db) (hc : OpCall U db db') : GroupsListed db' := by
  cases hc with
  | createGroup hid => exact h.createGroup hid
  | updateGroup => exact h.updateGroup
  | updateGroupOwner => exact h.updateGroupOwner
  | deleteGroup hg => exact h.deleteGroup (hok.of_deleted hg)
  | addMember _ => exact h.addMember hok
  | removeMember => exact h.removeMember hok
  | updateMemberRole => exact h.updateMemberRole

theorem GroupsListed.groupStep (h : GroupsListed db) (hok : GroupsOk db) (op : GroupOp) :
    GroupsListed (groupStep db op) :=
  OpCalls.keeps hok (fun h hok hc => h.call hok hc) h (groupStep_opCalls db op (adds_all op))

theorem GroupsListed.chatStep {s : ChatState} (h : GroupsListed s.groups)
    (hok : GroupDbOk s.groups) (op : ChatOp) : GroupsListed (chatStep s op).groups := by
  rcases chatStep_groups s op with hs | ⟨o, rfl⟩ | ⟨a, c, data, _, _, _, _, hs⟩
  · rw [hs]
    exact h
  · exact h.groupStep hok.ids o
  · rw [hs]
    exact h.dissolveGroup hok.ids

/-- Who gets a group listed is a member of it. -/
theorem GroupsListed.getUserGroups (h : GroupsListed db) (hok : GroupDbOk db)
    (hd : data ∈ GroupService.getUserGroups db w) :
    GroupStore.getGroup db data.groupId = some data ∧
      (GroupStore.getMember db data.groupId w).isSome := by
  unfold GroupService.getUserGroups at hd
  split at hd
  · cases hd
  · rename_i hw
    obtain ⟨g, hg, hget⟩ := List.mem_filterMap.mp hd
    obtain rfl := h.named g data hget
    have hid := hok.ids.of_getGroup hget
    refine ⟨hget, ?_⟩
    rw [GroupStore.getUserGroupIds, if_neg hw] at hg
    obtain ⟨⟨k, v⟩, he, hk⟩ := List.mem_map.mp hg
    obtain ⟨hv, g, rfl⟩ := OrderedMap.mem_scan.mp (List.mem_filter.mp he).1
    rw [List.drop_left] at hk
    have hmember := h.listed data.groupId w hid
      (by rw [show db.get (keyUserGroup w data.groupId) = some v by rw [← hk]; exact hv]; rfl)
    cases hm : GroupStore.getMember db data.groupId w with
    | some m => rfl
    | none =>
      rw [(hok.getMember_eq_none hid.ne_nil hw).mp hm] at hmember
      cases hmember

end SwiftChat.Chat
