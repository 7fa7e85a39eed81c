import SwiftChat.Chat.GroupListing
import SwiftChat.Chat.GroupOwner

/-! The memberships of a user and the groups listed for the user are the same. -/
namespace SwiftChat.Chat
open Base
variable {db : GroupDb} {g u w k : Bytes} {v : GroupValue} {data : GroupData} {m : GroupMemberData}
  {ids : List Bytes} {s : ChatState}

/-- The other half of the index: every membership has its entry, and users whose ids are free of
the separator are found in groups only. -/
structure GroupsIndexed (db : GroupDb) : Prop where
  known : ∀ g w, colon ∉ w →
    (db.get (keyGroupMember g w)).isSome ∨ (db.get (keyUserGroup w g)).isSome → IsGroupId g
  indexed : ∀ g w, IsGroupId g → (db.get (keyGroupMember g w)).isSome →
    (db.get (keyUserGroup w g)).isSome

theorem groupsIndexed_empty : GroupsIndexed OrderedMap.empty where
  known g w _ h := by simp at h
  indexed g w _ h := by simp at h

/-- A membership key is read in one way only when the user's id is free of the separator. -/
theorem keyGroupMember_inj_plain {g' w' : Bytes} (hw : colon ∉ w) (hw' : colon ∉ w')
    (h : keyGroupMember g w = keyGroupMember g' w') : g = g' ∧ w = w' := by
  simp only [keyGroupMember, str_colon, List.append_assoc] at h
  exact append_sep_inj_right hw hw' (List.append_cancel_left h)

theorem keyUserGroup_inj_plain {g' w' : Bytes} (hw : colon ∉ w) (hw' : colon ∉ w')
    (h : keyUserGroup w g = keyUserGroup w' g') : w = w' ∧ g = g' := by
  simp only [keyUserGroup, str_colon, List.append_assoc] at h
  exact append_sep_inj hw hw' (List.append_cancel_left h)

/-- Only the presence of the two kinds of keys counts. -/
theorem GroupsIndexed.congr {db' : GroupDb} (h : GroupsIndexed db)
    (hm : ∀ g w, (db'.get (keyGroupMember g w)).isSome ↔ (db.get (keyGroupMember g w)).isSome)
    (hu : ∀ g w, (db'.get (keyUserGroup w g)).isSome ↔ (db.get (keyUserGroup w g)).isSome) :
    GroupsIndexed db' where
  known g w hw hs := by
    rw [hm, hu] at hs
    exact h.known g w hw hs
  indexed g w hid hs := by
    rw [hm] at hs
    rw [hu]
    exact h.indexed g w hid hs

theorem GroupsIndexed.put_group (h : GroupsIndexed db) : GroupsIndexed (db.put (keyGroup g) v) := by
  apply h.congr
  · intro g' w
    rw [OrderedMap.get_put_ne keyGroup_ne_keyGroupMember.symm]
  · intro g' w
    rw [OrderedMap.get_put_ne keyGroup_ne_keyUserGroup.symm]

theorem GroupsIndexed.delete_group (h : GroupsIndexed db) :
    GroupsIndexed (db.delete (keyGroup g)) := by
  apply h.congr
  · intro g' w
    rw [OrderedMap.get_delete_ne keyGroup_ne_keyGroupMember.symm]
  · intro g' w
    rw [OrderedMap.get_delete_ne keyGroup_ne_keyUserGroup.symm]

theorem GroupsIndexed.put_present (h : GroupsIndexed db) (hk : (db.get k).isSome) :
    GroupsIndexed (db.put k v) :=
  h.congr (fun _ _ => isSome_put_present hk) (fun _ _ => isSome_put_present hk)

/-- A user joins a group in both indexes. -/
theorem GroupsIndexed.join {v' : GroupValue} (h : GroupsIndexed db) (hg : IsGroupId g)
    (hw : colon ∉ w) :
    GroupsIndexed ((db.put (keyGroupMember g w) v).put (keyUserGroup w g) v') where
  known g' w' hw' hs := by
    by_cases he : g' = g
    · exact he ▸ hg
    · rw [OrderedMap.get_put_ne keyGroupMember_ne_keyUserGroup,
        OrderedMap.get_put_ne (fun hk => he (keyGroupMember_inj_plain hw' hw hk).1),
        OrderedMap.get_put_ne (fun hk => he (keyUserGroup_inj_plain hw' hw hk).2),
        OrderedMap.get_put_ne keyGroupMember_ne_keyUserGroup.symm] at hs
      exact h.known g' w' hw' hs
  indexed g' w' hid hs := by
    rw [OrderedMap.get_put_ne keyGroupMember_ne_keyUserGroup] at hs
    by_cases he : keyUserGroup w' g' = keyUserGroup w g
    · rw [he, OrderedMap.get_put_self]
      rfl
    · have hne : keyGroupMember g' w' ≠ keyGroupMember g w := by
        intro hk
        obtain ⟨rfl, rfl⟩ := keyGroupMember_inj hid hg hk
        exact he rfl
      rw [OrderedMap.get_put_ne hne] at hs
      rw [OrderedMap.get_put_ne he, OrderedMap.get_put_ne keyGroupMember_ne_keyUserGroup.symm]
      exact h.indexed g' w' hid hs

/-- A user leaves a group in both indexes. -/
theorem GroupsIndexed.part (h : GroupsIndexed db) (hg : IsGroupId g) :
    GroupsIndexed ((db.delete (keyGroupMember g w)).delete (keyUserGroup w g)) where
  known g' w' hw' hs := by
    refine h.known g' w' hw' (hs.imp ?_ ?_)
    · exact fun hs => isSome_of_delete (isSome_of_delete hs)
    · exact fun hs => isSome_of_delete (isSome_of_delete hs)
  indexed g' w' hid hs := by
    have hold := h.indexed g' w' hid (isSome_of_delete (isSome_of_delete hs))
    have hne : keyUserGroup w' g' ≠ keyUserGroup w g := by
      intro hk
      obtain ⟨rfl, rfl⟩ := keyUserGroup_inj hid hg hk
      rw [OrderedMap.get_delete_ne keyGroupMember_ne_keyUserGroup,
        OrderedMap.get_delete_self] at hs
      cases hs
    rwa [OrderedMap.get_delete_ne hne,
      OrderedMap.get_delete_ne keyGroupMember_ne_keyUserGroup.symm]

theorem GroupsIndexed.drop (h : GroupsIndexed db) (hg : IsGroupId g) :
    GroupsIndexed (db.write (GroupStore.dropMembers g ids)) where
  known g' w hw hs :=
    h.known g' w hw (hs.imp (fun hs => isSome_of_dropMembers hs) fun hs => isSome_of_dropMembers hs)
  indexed g' w hid hs := by
    have hold := h.indexed g' w hid (isSome_of_dropMembers hs)
    rw [get_dropMembers] at hs ⊢
    split at hs
    · cases hs
    · rename_i hkept
      rw [if_neg]
      · exact hold
      · intro hk
        obtain ⟨uid, hu, hk⟩ := List.mem_flatMap.mp hk
        rcases List.mem_cons.mp hk with hk | hk
        · exact keyGroupMember_ne_keyUserGroup hk.symm
        · obtain ⟨rfl, rfl⟩ := keyUserGroup_inj hid hg (List.mem_singleton.mp hk)
          exact hkept ((keyGroupMember_mem_dropped _ hid hg).mpr ⟨rfl, hu⟩)

/-! The calls of the store, one by one. -/

theorem GroupsIndexed.addMember (h : GroupsIndexed db) (hok : GroupsOk db) (hw : colon ∉ m.userId) :
    GroupsIndexed (GroupStore.addMember db g m).1 := by
  unfold GroupStore.addMember
  split
  · exact h
  · split
    · exact h
    · cases hg : GroupStore.getGroup db g with
      | none => exact h
      | some data =>
        have hjoin : GroupsIndexed ((db.put (keyGroupMember g m.userId) (.member m)).put
            (keyUserGroup m.userId g) .empty) := h.join (hok.of_getGroup hg) hw
        exact hjoin.put_group

theorem GroupsIndexed.removeMember (h : GroupsIndexed db) (hok : GroupsOk db) :
    GroupsIndexed (GroupStore.removeMember db g w).1 := by
  unfold GroupStore.removeMember
  split
  · exact h
  · split
    · exact h
    · cases hg : GroupStore.getGroup db g with
      | none => exact h
      | some data => exact (h.part (hok.of_getGroup hg)).put_group

theorem GroupsIndexed.deleteGroup (h : GroupsIndexed db) (hg : IsGroupId g) :
    GroupsIndexed (GroupStore.deleteGroup db g).1 := by
  simp only [GroupStore.deleteGroup, hg.ne_nil, if_false, OrderedMap.write_cons,
    OrderedMap.apply_delete]
  exact h.delete_group.drop hg

theorem GroupsIndexed.dissolveGroup (h : GroupsIndexed db) (hok : GroupsOk db) :
    GroupsIndexed (GroupStore.dissolveGroup db g).1 := by
  unfold GroupStore.dissolveGroup
  cases hg : GroupStore.getGroup db g with
  | none => exact h
  | some data =>
    simp only
    split
    · exact h
    · have hput : GroupsIndexed (db.put (keyGroup g)
          (.group { data with status := 1, memberCount := 0 })) := h.put_group
      exact hput.drop (hok.of_getGroup hg)

/-- Calls that add no user whose id contains the separator. -/
theorem GroupsIndexed.call {db' : GroupDb} (h : GroupsIndexed db) (hok : GroupsOk db)
    (hc : OpCall (colon ∉ ·) db db') : GroupsIndexed db' := by
  cases hc with
  | createGroup _ =>
    unfold GroupStore.createGroup
    repeat' split
    all_goals first | exact h | exact h.put_group
  | updateGroup =>
    unfold GroupStore.updateGroup
    split
    · exact h
    · exact h.put_group
  | updateGroupOwner =>
    unfold GroupStore.updateGroupOwner
    repeat' split
    all_goals first | exact h | exact h.put_group
  | deleteGroup hg => exact h.deleteGroup (hok.of_deleted hg)
  | addMember hw => exact h.addMember hok hw
  | removeMember => exact h.removeMember hok
  | updateMemberRole =>
    unfold GroupStore.updateMemberRole
    split
    · exact h
    · rename_i hm
      exact h.put_present (by rw [get_of_getMember hm]; rfl)

/-- The operation names no new member whose id contains the separator. -/
def ChatOp.AddsPlain : ChatOp → Prop
  | .group op => op.Adds (colon ∉ ·)
  | _ => True

theorem GroupsIndexed.chatStep (h : GroupsIndexed s.groups) (hok : GroupsOk s.groups) (op : ChatOp)
    (hop : op.AddsPlain) : GroupsIndexed (chatStep s op).groups := by
  rcases chatStep_groups s op with hs | ⟨o, rfl⟩ | ⟨a, c, data, _, _, _, _, hs⟩
  · rw [hs]
    exact h
  · exact OpCalls.keeps hok (fun h hok hc => h.call hok hc) h (groupStep_opCalls s.groups o hop)
  · rw [hs]
    exact h.dissolveGroup hok

theorem mem_getUserGroupIds :
    g ∈ GroupStore.getUserGroupIds db u ↔
      u ≠ [] ∧ g ≠ [] ∧ (db.get (keyUserGroup u g)).isSome := by
  unfold GroupStore.getUserGroupIds
  split
  · rename_i hu
    simp [hu]
  · rename_i hu
    exact OrderedMap.mem_scan_tails.trans ⟨fun h => ⟨hu, h⟩, fun h => h.2⟩

theorem getUserGroupIds_nodup : (GroupStore.getUserGroupIds db u).Nodup := by
  unfold GroupStore.getUserGroupIds
  split
  · exact List.nodup_nil
  · exact OrderedMap.scan_tails_nodup

/-- The two indexes agree. -/
theorem isMember_iff_listed (h : GroupsIndexed db) (hl : GroupsListed db) (hu : colon ∉ u) :
    GroupStore.isMember db g u = true ↔ g ∈ GroupStore.getUserGroupIds db u := by
  rw [mem_getUserGroupIds]
  unfold GroupStore.isMember
  constructor
  · intro hm
    split at hm
    · cases hm
    · rename_i hne
      push Not at hne
      exact ⟨hne.2, hne.1, h.indexed g u (h.known g u hu (Or.inl hm)) hm⟩
  · rintro ⟨hune, hgne, hs⟩
    rw [if_neg (by push Not; exact ⟨hgne, hune⟩)]
    exact hl.listed g u (h.known g u hu (Or.inr hs)) hs

/-- A group with a member is stored and live. -/
theorem GroupsHealthy.live (h : GroupsHealthy db) (hm : GroupStore.isMember db g u = true)
    (hid : IsGroupId g) : ∃ data, GroupStore.getGroup db g = some data ∧ data.status = 0 := by
  rw [h.1.isMember_eq] at hm
  cases hg : GroupStore.getGroup db g with
  | none =>
    rw [h.1.getMember_of_absent hid hg] at hm
    cases hm
  | some data =>
    have hv := view_of_getGroup hg
    exact ⟨data, rfl, (h.2 g _ hv).live (w := u) hm⟩

/-- What the index by user needs of a reachable state. -/
theorem chatAfter_indexed (ops : List ChatOp) (hops : ∀ op ∈ ops, op.AddsPlain) :
    GroupsIndexed (chatAfter ops).groups ∧ GroupsListed (chatAfter ops).groups ∧
      GroupsHealthy (chatAfter ops).groups := by
  have hrun := @run_invariant _ _ chatStep {} ops
    (fun s => GroupsIndexed s.groups ∧ GroupsListed s.groups ∧ GroupsHealthy s.groups)
    ChatOp.AddsPlain ?_ ⟨groupsIndexed_empty, groupsListed_empty, groupsHealthy_empty⟩ hops
  · exact hrun
  · rintro s op ⟨hi, hl, hh⟩ hop
    exact ⟨hi.chatStep hh.1.ids op hop, hl.chatStep hh.1 op, hh.chatStep⟩

/-- In every reachable state a user with a plain id is a member of exactly the groups listed for
the user, each listed once, and each is live. -/
theorem member_iff_listed_once (ops : List ChatOp) (hops : ∀ op ∈ ops, op.AddsPlain) (g u : Bytes)
    (hu : colon ∉ u) :
    (GroupStore.getUserGroupIds (chatAfter ops).groups u).count g =
        (if GroupStore.isMember (chatAfter ops).groups g u then 1 else 0) ∧
      (g ∈ GroupStore.getUserGroupIds (chatAfter ops).groups u →
        ∃ data, GroupStore.getGroup (chatAfter ops).groups g = some data ∧ data.status = 0) := by
  obtain ⟨hi, hl, hh⟩ := chatAfter_indexed ops hops
  have hiff := isMember_iff_listed (g := g) hi hl hu
  constructor
  · split
    · rename_i hm
      exact List.count_eq_one_of_mem getUserGroupIds_nodup (hiff.mp hm)
    · rename_i hm
      exact List.count_eq_zero.mpr (fun hg => hm (hiff.mpr hg))
  · intro hg
    have hs := (mem_getUserGroupIds.mp hg).2.2
    exact hh.live (hiff.mpr hg) (hi.known g u hu (Or.inr hs))

/-- `b` of the group of three, after `c` has left it. -/
theorem member_listed_once_sample :
    (GroupStore.getUserGroupIds (chatAfter
        [makeGroup, .group (.leave sampleGroupId (str "c"))]).groups (str "b")).count
      sampleGroupId = 1 := by
  have hops : ∀ op ∈ [makeGroup, .group (.leave sampleGroupId (str "c"))], op.AddsPlain := by
    intro op hop
    rcases List.mem_pair.mp hop with rfl | rfl
    · exact ⟨by decide, by decide⟩
    · exact trivial
  have hlisted := (member_iff_listed_once _ hops sampleGroupId (str "b") (by decide)).1
  rw [hlisted]
  decide

end SwiftChat.Chat
