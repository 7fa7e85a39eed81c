import SwiftChat.Chat.GroupInvariant
import Mathlib.Logic.Function.Basic

/-! A group as its record and its members, and what each write of the store does to it. -/
namespace SwiftChat.Chat
open Base
variable {db : GroupDb} {g w k : Bytes} {v : GroupValue} {data : GroupData} {m : GroupMemberData}
  {ids : List Bytes}

/-- Every value is of the kind its key says. -/
structure GroupsTyped (db : GroupDb) : Prop where
  group : ∀ g v, db.get (keyGroup g) = some v → ∃ data, v = .group data
  member : ∀ g w v, db.get (keyGroupMember g w) = some v → ∃ m, v = .member m

theorem groupsTyped_empty : GroupsTyped OrderedMap.empty where
  group g v h := by cases h
  member g w v h := by cases h

theorem GroupsTyped.put_group (h : GroupsTyped db) :
    GroupsTyped (db.put (keyGroup g) (.group data)) where
  group g' v hv := by
    rcases OrderedMap.get_put_some hv with ⟨_, rfl⟩ | ⟨_, hold⟩
    · exact ⟨data, rfl⟩
    · exact h.group g' v hold
  member g' w v hv := by
    rw [OrderedMap.get_put_ne keyGroup_ne_keyGroupMember.symm] at hv
    exact h.member g' w v hv

theorem GroupsTyped.put_member (h : GroupsTyped db) :
    GroupsTyped (db.put (keyGroupMember g w) (.member m)) where
  group g' v hv := by
    rw [OrderedMap.get_put_ne keyGroup_ne_keyGroupMember] at hv
    exact h.group g' v hv
  member g' w' v hv := by
    rcases OrderedMap.get_put_some hv with ⟨_, rfl⟩ | ⟨_, hold⟩
    · exact ⟨m, rfl⟩
    · exact h.member g' w' v hold

theorem GroupsTyped.put_userGroup (h : GroupsTyped db) :
    GroupsTyped (db.put (keyUserGroup w g) v) where
  group g' v hv := by
    rw [OrderedMap.get_put_ne keyGroup_ne_keyUserGroup] at hv
    exact h.group g' v hv
  member g' w' v hv := by
    rw [OrderedMap.get_put_ne keyGroupMember_ne_keyUserGroup] at hv
    exact h.member g' w' v hv

/-- What only takes entries away keeps the kinds. -/
theorem GroupsTyped.shrink {db' : GroupDb} (h : GroupsTyped db)
    (hkeep : ∀ k v, db'.get k = some v → db.get k = some v) : GroupsTyped db' :=
  ⟨fun g v hv => h.group g v (hkeep _ v hv), fun g w v hv => h.member g w v (hkeep _ v hv)⟩

theorem GroupsTyped.delete (h : GroupsTyped db) : GroupsTyped (db.delete k) := by
  apply h.shrink
  intro k' v hv
  exact (OrderedMap.get_delete_some hv).2

theorem GroupsTyped.drop (h : GroupsTyped db) :
    GroupsTyped (db.write (GroupStore.dropMembers g ids)) := by
  apply h.shrink
  intro k' v hv
  rw [get_dropMembers] at hv
  split at hv
  · cases hv
  · exact hv

theorem GroupsTyped.call {db' : GroupDb} (h : GroupsTyped db) (hc : StoreCall db db') :
    GroupsTyped db' := by
  cases hc.write with
  | none => exact h
  | create _ => exact h.put_group
  | record _ => exact h.put_group
  | delete => exact h.delete.drop
  | dissolve _ => exact h.put_group.drop
  | add _ _ => exact h.put_member.put_userGroup.put_group
  | remove _ => exact h.delete.delete.put_group
  | role _ => exact h.put_member

/-- What holds of the group database in every reachable state. -/
structure GroupDbOk (db : GroupDb) : Prop where
  ids : GroupsOk db
  held : MembersHeld db
  typed : GroupsTyped db

theorem groupDbOk_empty : GroupDbOk OrderedMap.empty :=
  ⟨groupsOk_empty, membersHeld_empty, groupsTyped_empty⟩

theorem GroupDbOk.call {db' : GroupDb} (h : GroupDbOk db) (hc : StoreCall db db') :
    GroupDbOk db' :=
  ⟨h.ids.call hc, h.held.call h.ids hc, h.typed.call hc⟩

theorem GroupDbOk.calls {db' : GroupDb} (h : GroupDbOk db) (hc : StoreCalls db db') :
    GroupDbOk db' := by
  induction hc with
  | refl => exact h
  | tail _ hstep ih => exact ih.call hstep

/-- A group: its record and, by user, its members. -/
structure Group where
  data : GroupData
  members : Bytes → Option GroupMemberData

namespace Group

def isMember (G : Group) (w : Bytes) : Prop := (G.members w).isSome

/-- `m` joins; the record counts one more. -/
def join (G : Group) (m : GroupMemberData) : Group where
  data := { G.data with memberCount := G.data.memberCount + 1, updatedAt := 0 }
  members := Function.update G.members m.userId (some m)

/-- `w` is out; the record counts one less. -/
def part (G : Group) (w : Bytes) : Group where
  data := { G.data with memberCount := max 0 (G.data.memberCount - 1) }
  members := Function.update G.members w none

def setMember (G : Group) (m : GroupMemberData) (w : Bytes) : Group :=
  { G with members := Function.update G.members w (some m) }

def dissolve (G : Group) : Group where
  data := { G.data with status := 1, memberCount := 0 }
  members := fun _ => none

end Group

/-- The group a database holds under an id. -/
def view (db : GroupDb) (g : Bytes) : Option Group :=
  (GroupStore.getGroup db g).map fun data => ⟨data, GroupStore.getMember db g⟩

theorem view_empty : view OrderedMap.empty = fun _ => none := by
  funext g
  simp [view, GroupStore.getGroup]

theorem view_eq_some {G : Group} :
    view db g = some G ↔
      GroupStore.getGroup db g = some G.data ∧ GroupStore.getMember db g = G.members := by
  unfold view
  cases hg : GroupStore.getGroup db g with
  | none => simp
  | some data =>
    obtain ⟨data', members⟩ := G
    simp

theorem view_of_getGroup (h : GroupStore.getGroup db g = some data) :
    view db g = some ⟨data, GroupStore.getMember db g⟩ := view_eq_some.mpr ⟨h, rfl⟩

theorem view_eq_none : view db g = none ↔ GroupStore.getGroup db g = none := by
  simp [view]

theorem IsGroupId.ne_nil (h : IsGroupId g) : g ≠ [] := by
  rintro rfl
  exact absurd (List.prefix_nil.mp h.1) (by decide)

theorem GroupsOk.of_view {G : Group} (h : GroupsOk db) (hv : view db g = some G) : IsGroupId g :=
  h.of_getGroup (view_eq_some.mp hv).1

theorem GroupDbOk.getGroup_eq_none (h : GroupDbOk db) (hg : g ≠ []) :
    GroupStore.getGroup db g = none ↔ db.get (keyGroup g) = none := by
  simp only [GroupStore.getGroup, hg, if_false]
  cases hv : db.get (keyGroup g) with
  | none => simp
  | some v =>
    obtain ⟨data, rfl⟩ := h.typed.group g v hv
    simp

theorem GroupDbOk.isMember_eq (h : GroupDbOk db) :
    GroupStore.isMember db g w = (GroupStore.getMember db g w).isSome := by
  unfold GroupStore.isMember GroupStore.getMember
  split
  · rfl
  · cases hv : db.get (keyGroupMember g w) with
    | none => rfl
    | some v =>
      obtain ⟨m, rfl⟩ := h.typed.member g w v hv
      rfl

theorem GroupDbOk.getMember_eq_none (h : GroupDbOk db) (hg : g ≠ []) (hw : w ≠ []) :
    GroupStore.getMember db g w = none ↔ db.get (keyGroupMember g w) = none := by
  simp only [GroupStore.getMember, hg, hw, or_self, if_false]
  cases hv : db.get (keyGroupMember g w) with
  | none => simp
  | some v =>
    obtain ⟨m, rfl⟩ := h.typed.member g w v hv
    simp

/-- Only groups have members. -/
theorem GroupDbOk.getMember_of_absent (h : GroupDbOk db) (hid : IsGroupId g)
    (hg : GroupStore.getGroup db g = none) : GroupStore.getMember db g = fun _ => none := by
  funext w
  by_cases hw : w = []
  · simp [GroupStore.getMember, hw]
  · rw [h.getMember_eq_none hid.ne_nil hw]
    cases hv : db.get (keyGroupMember g w) with
    | none => rfl
    | some v =>
      have hs := (h.held g w hid (by rw [hv]; rfl)).2
      rw [(h.getGroup_eq_none hid.ne_nil).mp hg] at hs
      cases hs

/-! Lookups decide the view. -/

theorem getGroup_congr {db' : GroupDb} (h : db'.get (keyGroup g) = db.get (keyGroup g)) :
    GroupStore.getGroup db' g = GroupStore.getGroup db g := by
  unfold GroupStore.getGroup
  rw [h]

theorem getMember_congr {db' : GroupDb}
    (h : db'.get (keyGroupMember g w) = db.get (keyGroupMember g w)) :
    GroupStore.getMember db' g w = GroupStore.getMember db g w := by
  unfold GroupStore.getMember
  rw [h]

theorem getGroup_put (hg : g ≠ []) (g' : Bytes) :
    GroupStore.getGroup (db.put (keyGroup g) (.group data)) g' =
      if g' = g then some data else GroupStore.getGroup db g' := by
  by_cases he : g' = g
  · simp [GroupStore.getGroup, he, hg]
  · rw [if_neg he]
    apply getGroup_congr
    rw [OrderedMap.get_put_ne (fun hk => he (keyGroup_inj hk))]

theorem getMember_put_group (g' : Bytes) :
    GroupStore.getMember (db.put (keyGroup g) v) g' = GroupStore.getMember db g' := by
  funext w
  apply getMember_congr
  rw [OrderedMap.get_put_ne keyGroup_ne_keyGroupMember.symm]

theorem view_put_group (hg : g ≠ []) :
    view (db.put (keyGroup g) (.group data)) =
      Function.update (view db) g (some ⟨data, GroupStore.getMember db g⟩) := by
  funext g'
  unfold view
  rw [getGroup_put hg, getMember_put_group]
  by_cases he : g' = g
  · subst he
    simp
  · simp [he]

theorem getGroup_put_member (g' : Bytes) :
    GroupStore.getGroup (db.put (keyGroupMember g w) v) g' = GroupStore.getGroup db g' := by
  apply getGroup_congr
  rw [OrderedMap.get_put_ne keyGroup_ne_keyGroupMember]

/-- A view at another id does not see a membership of `g`. -/
theorem view_of_other {db' : GroupDb} {g' : Bytes} (hok : GroupsOk db)
    (hgroup : db'.get (keyGroup g') = db.get (keyGroup g'))
    (hmember : IsGroupId g' → ∀ w, db'.get (keyGroupMember g' w) = db.get (keyGroupMember g' w)) :
    view db' g' = view db g' := by
  have hsame : GroupStore.getGroup db' g' = GroupStore.getGroup db g' := getGroup_congr hgroup
  cases hv : view db g' with
  | none => rw [view_eq_none, hsame, ← view_eq_none, hv]
  | some G =>
    obtain ⟨hg, hm⟩ := view_eq_some.mp hv
    refine view_eq_some.mpr ⟨hsame.trans hg, ?_⟩
    rw [← hm]
    funext w
    exact getMember_congr (hmember (hok.of_view hv) w)

theorem view_put_member (hok : GroupsOk db) (hg : IsGroupId g) (hw : w ≠ []) :
    view (db.put (keyGroupMember g w) (.member m)) =
      Function.update (view db) g ((view db g).map (·.setMember m w)) := by
  funext g'
  by_cases he : g' = g
  · subst he
    simp only [view, getGroup_put_member, Function.update_self, Option.map_map]
    congr 1
    funext data
    refine congrArg (Group.mk data) ?_
    funext w'
    by_cases hw' : w' = w
    · simp [GroupStore.getMember, hw', hg.ne_nil, hw]
    · rw [Function.update_of_ne hw']
      apply getMember_congr
      rw [OrderedMap.get_put_ne (fun hk => hw' (keyGroupMember_inj hg hg hk).2)]
  · rw [Function.update_of_ne he]
    apply view_of_other hok
    · exact OrderedMap.get_put_ne keyGroup_ne_keyGroupMember
    · intro hid w'
      exact OrderedMap.get_put_ne (fun hk => he (keyGroupMember_inj hid hg hk).1)

theorem view_put_userGroup (hok : GroupsOk db) : view (db.put (keyUserGroup w g) v) = view db := by
  funext g'
  apply view_of_other hok
  · exact OrderedMap.get_put_ne keyGroup_ne_keyUserGroup
  · intro _ w'
    exact OrderedMap.get_put_ne keyGroupMember_ne_keyUserGroup

theorem view_delete_userGroup (hok : GroupsOk db) : view (db.delete (keyUserGroup w g)) = view db := by
  funext g'
  apply view_of_other hok
  · exact OrderedMap.get_delete_ne keyGroup_ne_keyUserGroup
  · intro _ w'
    exact OrderedMap.get_delete_ne keyGroupMember_ne_keyUserGroup

theorem view_delete_group : view (db.delete (keyGroup g)) = Function.update (view db) g none := by
  funext g'
  by_cases he : g' = g
  · subst he
    rw [Function.update_self, view_eq_none]
    unfold GroupStore.getGroup
    split
    · rfl
    · rw [OrderedMap.get_delete_self]
  · rw [Function.update_of_ne he]
    unfold view
    rw [getGroup_congr (OrderedMap.get_delete_ne (fun hk => he (keyGroup_inj hk)))]
    congr 1
    funext data
    refine congrArg (Group.mk data) ?_
    funext w
    exact getMember_congr (OrderedMap.get_delete_ne keyGroup_ne_keyGroupMember.symm)

theorem view_delete_member (hok : GroupsOk db) (hg : IsGroupId g) :
    view (db.delete (keyGroupMember g w)) =
      Function.update (view db) g
        ((view db g).map fun G => { G with members := Function.update G.members w none }) := by
  funext g'
  by_cases he : g' = g
  · subst he
    unfold view
    rw [getGroup_congr (OrderedMap.get_delete_ne keyGroup_ne_keyGroupMember), Function.update_self,
      Option.map_map]
    congr 1
    funext data
    refine congrArg (Group.mk data) ?_
    funext w'
    by_cases hw' : w' = w
    · simp [GroupStore.getMember, hw']
    · rw [Function.update_of_ne hw']
      apply getMember_congr
      rw [OrderedMap.get_delete_ne (fun hk => hw' (keyGroupMember_inj hg hg hk).2)]
  · rw [Function.update_of_ne he]
    apply view_of_other hok
    · exact OrderedMap.get_delete_ne keyGroup_ne_keyGroupMember
    · intro hid w'
      exact OrderedMap.get_delete_ne (fun hk => he (keyGroupMember_inj hid hg hk).1)

theorem keyGroupMember_mem_dropped {g' : Bytes} (ids : List Bytes) (hid : IsGroupId g')
    (hg : IsGroupId g) :
    keyGroupMember g' w ∈ ids.flatMap (fun uid => [keyGroupMember g uid, keyUserGroup uid g]) ↔
      g' = g ∧ w ∈ ids := by
  constructor
  · intro h
    obtain ⟨uid, hu, h⟩ := List.mem_flatMap.mp h
    rcases List.mem_cons.mp h with h | h
    · obtain ⟨rfl, rfl⟩ := keyGroupMember_inj hid hg h
      exact ⟨rfl, hu⟩
    · exact absurd (List.mem_singleton.mp h) keyGroupMember_ne_keyUserGroup
  · rintro ⟨rfl, hw⟩
    exact List.mem_flatMap.mpr ⟨w, hw, List.mem_cons_self⟩

/-- A batch that drops every member of `g` leaves the record alone. -/
theorem view_drop (hok : GroupsOk db) (hg : IsGroupId g)
    (hall : ∀ w, (GroupStore.getMember db g w).isSome → w ∈ ids) :
    view (db.write (GroupStore.dropMembers g ids)) =
      Function.update (view db) g
        ((view db g).map fun G => { G with members := fun _ => none }) := by
  have hrecord : ∀ g', (db.write (GroupStore.dropMembers g ids)).get (keyGroup g') =
      db.get (keyGroup g') := by
    intro g'
    rw [get_dropMembers, if_neg keyGroup_not_dropped]
  funext g'
  by_cases he : g' = g
  · subst he
    unfold view
    rw [getGroup_congr (hrecord g'), Function.update_self, Option.map_map]
    congr 1
    funext data
    refine congrArg (Group.mk data) ?_
    funext w
    by_cases hw : w ∈ ids
    · have hkey := (keyGroupMember_mem_dropped (w := w) ids hg hg).mpr ⟨rfl, hw⟩
      simp [GroupStore.getMember, get_dropMembers, hkey]
    · have hkey := mt (keyGroupMember_mem_dropped (w := w) ids hg hg).mp (fun h => hw h.2)
      have hsame : GroupStore.getMember (db.write (GroupStore.dropMembers g' ids)) g' w =
          GroupStore.getMember db g' w := getMember_congr (by rw [get_dropMembers, if_neg hkey])
      rw [hsame]
      cases hm : GroupStore.getMember db g' w with
      | none => rfl
      | some m => exact absurd (hall w (by rw [hm]; rfl)) hw
  · rw [Function.update_of_ne he]
    apply view_of_other hok (hrecord g')
    intro hid w
    rw [get_dropMembers, if_neg (fun h => he ((keyGroupMember_mem_dropped _ hid hg).mp h).1)]

theorem mem_memberIds_of_getMember (h : (GroupStore.getMember db g w).isSome) :
    w ∈ GroupStore.memberIds db g := by
  obtain ⟨m, hm⟩ := Option.isSome_iff_exists.mp h
  have hw : w ≠ [] := by
    rintro rfl
    simp [GroupStore.getMember] at hm
  exact mem_memberIds hw (by rw [get_of_getMember hm]; rfl)

/-! The writes of the store, seen from outside. -/

/-- The batch of `AddMember` on the record it read. -/
theorem view_add {G : Group} (hok : GroupsOk db) (hv : view db g = some G) (hw : m.userId ≠ []) :
    view (db.write [.put (keyGroupMember g m.userId) (.member m),
        .put (keyUserGroup m.userId g) .empty, .put (keyGroup g)
          (.group { G.data with memberCount := G.data.memberCount + 1, updatedAt := 0 })]) =
      Function.update (view db) g (some (G.join m)) := by
  have hid := hok.of_view hv
  have hmember := view_put_member (m := m) hok hid hw
  rw [hv] at hmember
  have hstep : view ((db.put (keyGroupMember g m.userId) (.member m)).put
      (keyUserGroup m.userId g) .empty) =
      Function.update (view db) g (some (G.setMember m m.userId)) := by
    rw [view_put_userGroup (hok.put_member hid), hmember]
    rfl
  have hG := view_eq_some.mp (show view _ g = some (G.setMember m m.userId) by
    rw [hstep, Function.update_self])
  simp only [OrderedMap.write_cons, OrderedMap.apply_put, OrderedMap.write_nil]
  rw [view_put_group hid.ne_nil, hstep, Function.update_idem, hG.2]
  rfl

/-- The batch of `RemoveMember` on the record it read. -/
theorem view_remove {G : Group} (hok : GroupsOk db) (hv : view db g = some G) :
    view (db.write [.delete (keyGroupMember g w), .delete (keyUserGroup w g), .put (keyGroup g)
        (.group { G.data with memberCount := max 0 (G.data.memberCount - 1) })]) =
      Function.update (view db) g (some (G.part w)) := by
  have hid := hok.of_view hv
  have hmember := view_delete_member (w := w) hok hid
  rw [hv] at hmember
  have hstep : view ((db.delete (keyGroupMember g w)).delete (keyUserGroup w g)) =
      Function.update (view db) g
        (some { G with members := Function.update G.members w none }) := by
    rw [view_delete_userGroup hok.delete, hmember]
    rfl
  have hG := view_eq_some.mp (show view _ g = some { G with members := _ } by
    rw [hstep, Function.update_self])
  simp only [OrderedMap.write_cons, OrderedMap.apply_put, OrderedMap.apply_delete,
    OrderedMap.write_nil]
  rw [view_put_group hid.ne_nil, hstep, Function.update_idem, hG.2]
  rfl

theorem view_rewrite {G : Group} (hok : GroupsOk db) (hv : view db g = some G) :
    view (db.put (keyGroup g) (.group data)) =
      Function.update (view db) g (some { G with data := data }) := by
  rw [view_put_group (hok.of_view hv).ne_nil, (view_eq_some.mp hv).2]

theorem view_setMember {G : Group} (hok : GroupsOk db) (hv : view db g = some G) (hw : w ≠ []) :
    view (db.put (keyGroupMember g w) (.member m)) =
      Function.update (view db) g (some (G.setMember m w)) := by
  rw [view_put_member hok (hok.of_view hv) hw, hv]
  rfl

/-- The batch of `DissolveGroup` on the record and the members it read. -/
theorem view_dissolve {G : Group} (hok : GroupsOk db) (hv : view db g = some G)
    (hall : ∀ w, (G.members w).isSome → w ∈ ids) :
    view (db.write (.put (keyGroup g) (.group { G.data with status := 1, memberCount := 0 }) ::
        GroupStore.dropMembers g ids)) =
      Function.update (view db) g (some G.dissolve) := by
  have hid := hok.of_view hv
  rw [OrderedMap.write_cons, OrderedMap.apply_put, view_drop (hok.put_group hid) hid,
    view_rewrite hok hv, Function.update_self, Function.update_idem]
  · rfl
  · intro w hw
    rw [getMember_put_group, (view_eq_some.mp hv).2] at hw
    exact hall w hw

theorem view_deleteGroup (hok : GroupsOk db) (hid : IsGroupId g) :
    view (GroupStore.deleteGroup db g).1 = Function.update (view db) g none := by
  simp only [GroupStore.deleteGroup, hid.ne_nil, if_false, OrderedMap.write_cons,
    OrderedMap.apply_delete]
  rw [view_drop hok.delete hid, view_delete_group, Function.update_self, Option.map_none,
    Function.update_idem]
  intro w hw
  rw [getMember_congr (OrderedMap.get_delete_ne keyGroup_ne_keyGroupMember.symm)] at hw
  exact mem_memberIds_of_getMember hw

end SwiftChat.Chat
