import SwiftChat.Chat.Privilege

/-! The times in a group's record: when it was made, and when it was last changed. -/
namespace SwiftChat.Chat
open Base
variable {db db' : GroupDb} {g a c name avatar text : Bytes} {ids : List Bytes} {op : GroupOp}
  {m : GroupMemberData} {G : Group} {r : RandomString 12} {now made changed : Int}

/-- The creation and the update time of a group. -/
def groupTimes (db : GroupDb) (g : Bytes) : Option (Int × Int) :=
  (GroupStore.getGroup db g).map fun data => (data.createdAt, data.updatedAt)

/-- No group was changed before it was made. -/
def GroupTimesOrdered (db : GroupDb) : Prop :=
  ∀ g made changed, groupTimes db g = some (made, changed) → made ≤ changed

/-- No update time goes back while its group exists. -/
def GroupTimesForward (db db' : GroupDb) : Prop :=
  ∀ g made changed made' changed', groupTimes db g = some (made, changed) →
    groupTimes db' g = some (made', changed') → changed ≤ changed'

theorem groupTimes_eq_view :
    groupTimes db g = (view db g).map fun G => (G.data.createdAt, G.data.updatedAt) := by
  simp [groupTimes, view, Option.map_map, Function.comp_def]

theorem groupTimes_of_view (hv : view db g = some G) :
    groupTimes db g = some (G.data.createdAt, G.data.updatedAt) := by
  rw [groupTimes_eq_view, hv, Option.map_some]

theorem groupTimes_update (hv : view db' = Function.update (view db) g (some G)) :
    groupTimes db' =
      Function.update (groupTimes db) g (some (G.data.createdAt, G.data.updatedAt)) := by
  funext g'
  rw [groupTimes_eq_view, hv]
  by_cases he : g' = g
  · rw [he, Function.update_self, Function.update_self, Option.map_some]
  · rw [Function.update_of_ne he, Function.update_of_ne he, groupTimes_eq_view]

/-- A write of the times of one group. -/
theorem groupTimes_set_iff (h : GroupTimesOrdered db)
    (hset : groupTimes db' = Function.update (groupTimes db) g (some (made, changed))) :
    GroupTimesOrdered db' ∧ GroupTimesForward db db' ↔
      made ≤ changed ∧ ∀ t ∈ groupTimes db g, t.2 ≤ changed := by
  have hself : groupTimes db' g = some (made, changed) := by rw [hset, Function.update_self]
  constructor
  · rintro ⟨hordered, hforward⟩
    exact ⟨hordered g made changed hself, fun t ht => hforward g t.1 t.2 made changed ht hself⟩
  · rintro ⟨hle, hold⟩
    constructor
    · intro g' made' changed' hg'
      rw [hset] at hg'
      by_cases he : g' = g
      · rw [he, Function.update_self] at hg'
        cases hg'
        exact hle
      · rw [Function.update_of_ne he] at hg'
        exact h g' made' changed' hg'
    · intro g' made₀ changed₀ made' changed' hbefore hafter
      rw [hset] at hafter
      by_cases he : g' = g
      · rw [he, Function.update_self] at hafter
        cases hafter
        exact hold (made₀, changed₀) (he ▸ hbefore)
      · rw [Function.update_of_ne he] at hafter
        have hsame := Option.some.inj (hbefore.symm.trans hafter)
        exact (Prod.mk.inj hsame).2.le

/-- A step that takes groups away at most. -/
theorem groupTimes_kept (h : GroupTimesOrdered db)
    (hkept : ∀ g, groupTimes db' g = groupTimes db g ∨ groupTimes db' g = none) :
    GroupTimesOrdered db' ∧ GroupTimesForward db db' := by
  constructor
  · intro g made changed hg
    rcases hkept g with hsame | hnone
    · exact h g made changed (hsame ▸ hg)
    · rw [hnone] at hg
      cases hg
  · intro g made changed made' changed' hbefore hafter
    rcases hkept g with hsame | hnone
    · rw [hsame, hbefore] at hafter
      exact (Prod.mk.inj (Option.some.inj hafter)).2.le
    · rw [hnone] at hafter
      cases hafter

theorem groupTimes_same (h : GroupTimesOrdered db) (hs : db' = db) :
    GroupTimesOrdered db' ∧ GroupTimesForward db db' := by
  apply groupTimes_kept h
  intro g
  rw [hs]
  exact Or.inl rfl

/-! The operations that write the times. `AddMember` clears the update time. -/

theorem addMember_cleared (h : GroupDbOk db) (ht : groupTimes db g = some (made, 0)) :
    groupTimes (GroupStore.addMember db g m).1 = groupTimes db := by
  rcases addMember_view (m := m) (g := g) h with hs | ⟨G, hv, _, hview⟩
  · rw [hs]
  · rw [groupTimes_update hview]
    have hbefore := (groupTimes_of_view hv).symm.trans ht
    obtain ⟨hmade, _⟩ := Prod.mk.inj (Option.some.inj hbefore)
    have hjoin : some ((G.join m).data.createdAt, (G.join m).data.updatedAt) = groupTimes db g := by
      rw [ht, ← hmade]
      rfl
    rw [hjoin, Function.update_eq_self]

theorem addMembers_cleared (ids : List Bytes) (h : GroupDbOk db)
    (ht : groupTimes db g = some (made, 0)) :
    groupTimes (GroupService.addMembers db g ids now) = groupTimes db := by
  induction ids generalizing db with
  | nil => rfl
  | cons uid ids ih =>
    have hone : groupTimes (GroupStore.addMember db g
        { userId := uid, role := roleMember, joinedAt := now }).1 = groupTimes db :=
      addMember_cleared h ht
    have hrest := ih (h.call .addMember) ((congrFun hone g).trans ht)
    exact hrest.trans hone

/-- A new group is one that was never changed. -/
theorem createGroup_times (name avatar : Bytes) (now : Int) (h : GroupDbOk db)
    (hgo : ¬ CreateRefused db c ids r) :
    groupTimes (GroupService.createGroup db c name avatar ids r now).1 =
      Function.update (groupTimes db) (generateShortId (str "g_") r) (some (now, 0)) := by
  obtain ⟨db₁, hok, hview, hs⟩ := createGroup_founds name avatar now h hgo
  have hfounded := groupTimes_update hview
  have hself := congrFun hfounded (generateShortId (str "g_") r)
  rw [Function.update_self] at hself
  rw [hs, addMembers_cleared _ hok hself]
  exact hfounded

theorem addMember_added (h : GroupDbOk db) (hv : view db g = some G) (hw : m.userId ≠ [])
    (hfree : GroupStore.isMember db g m.userId = false) :
    view (GroupStore.addMember db g m).1 = Function.update (view db) g (some (G.join m)) := by
  have hid := (h.ids.of_view hv).ne_nil
  rw [GroupStore.isMember, if_neg (by push Not; exact ⟨hid, hw⟩)] at hfree
  rw [GroupStore.addMember, if_neg (by push Not; exact ⟨hid, hw⟩), hfree, (view_eq_some.mp hv).1]
  exact view_add h.ids hv hw

/-- A new member clears the update time. -/
theorem addMember_clears (h : GroupDbOk db) (ht : groupTimes db g = some (made, changed))
    (hw : m.userId ≠ []) (hfree : GroupStore.isMember db g m.userId = false) :
    groupTimes (GroupStore.addMember db g m).1 =
      Function.update (groupTimes db) g (some (made, 0)) := by
  obtain ⟨G, hv, hG⟩ := Option.map_eq_some_iff.mp (groupTimes_eq_view.symm.trans ht)
  rw [groupTimes_update (addMember_added h hv hw hfree), ← (Prod.mk.inj hG).1]
  rfl

/-- The ids that an invitation passes over. -/
def PassedOver (db : GroupDb) (g : Bytes) (ids : List Bytes) : Prop :=
  ∀ uid ∈ ids, uid = [] ∨ GroupStore.isMember db g uid = true

theorem inviteLoop_cons (uid : Bytes) :
    GroupService.inviteLoop db g (uid :: ids) now =
      GroupService.inviteLoop (if uid = [] then db
        else if GroupStore.isMember db g uid then db
        else (GroupStore.addMember db g
          { userId := uid, role := roleMember, joinedAt := now }).1) g ids now := rfl

/-- An id that is passed over changes nothing. -/
theorem inviteLoop_skip {uid : Bytes} (h : uid = [] ∨ GroupStore.isMember db g uid = true) :
    GroupService.inviteLoop db g (uid :: ids) now = GroupService.inviteLoop db g ids now := by
  rw [inviteLoop_cons]
  rcases h with hnil | hin
  · rw [if_pos hnil]
  · rw [if_pos hin, ite_self]

theorem inviteLoop_passed (h : PassedOver db g ids) :
    GroupService.inviteLoop db g ids now = db := by
  induction ids with
  | nil => rfl
  | cons uid ids ih =>
    have hrest := ih (fun uid' hmem => h uid' (List.mem_cons_of_mem _ hmem))
    rw [inviteLoop_skip (h uid List.mem_cons_self), hrest]

/-- An invitation that adds somebody clears the update time. -/
theorem inviteLoop_cleared (h : GroupDbOk db) (ht : groupTimes db g = some (made, changed))
    (hnew : ¬ PassedOver db g ids) :
    groupTimes (GroupService.inviteLoop db g ids now) =
      Function.update (groupTimes db) g (some (made, 0)) := by
  induction ids generalizing db changed with
  | nil => exact absurd (fun _ hmem => by cases hmem) hnew
  | cons uid ids ih =>
    by_cases hpass : uid = [] ∨ GroupStore.isMember db g uid = true
    · rw [inviteLoop_skip hpass]
      apply ih h ht
      intro hall
      apply hnew
      intro uid' hmem
      rcases List.mem_cons.mp hmem with rfl | hmem
      · exact hpass
      · exact hall uid' hmem
    · push Not at hpass
      obtain ⟨hne, hnot⟩ := hpass
      rw [inviteLoop_cons, if_neg hne, if_neg hnot]
      have hone : groupTimes (GroupStore.addMember db g
          { userId := uid, role := roleMember, joinedAt := now }).1 =
          Function.update (groupTimes db) g (some (made, 0)) :=
        addMember_clears h ht hne (by simpa using hnot)
      have hself := congrFun hone g
      rw [Function.update_self] at hself
      have hok : GroupDbOk (GroupStore.addMember db g
          { userId := uid, role := roleMember, joinedAt := now }).1 := h.call .addMember
      by_cases hrest : PassedOver (GroupStore.addMember db g
          { userId := uid, role := roleMember, joinedAt := now }).1 g ids
      · rw [inviteLoop_passed hrest, hone]
      · rw [ih hok hself hrest, hone, Function.update_idem]

/-- An update that is refused finds no group, or nobody with a right to it. -/
def UpdateRefused (db : GroupDb) (g a : Bytes) : Prop :=
  a = [] ∨ ∀ data ∈ GroupStore.getGroup db g, data.ownerId ≠ a ∧
    (GroupStore.getMember db g a).all (fun m => m.role ≠ roleAdmin) = true

theorem getGroup_ne_nil {data : GroupData} (hg : GroupStore.getGroup db g = some data) :
    g ≠ [] := by
  rintro rfl
  simp [GroupStore.getGroup] at hg

theorem updateGroup_refused (h : UpdateRefused db g a) :
    (GroupService.updateGroup db g a name avatar text now).1 = db := by
  unfold GroupService.updateGroup
  split
  · rfl
  · rename_i hne
    push Not at hne
    cases hg : GroupStore.getGroup db g with
    | none => rfl
    | some data =>
      rcases h with ha | hright
      · exact absurd ha hne.2
      · simp only
        rw [if_pos (hright data hg)]

/-- An update writes the time it reads, unless that is zero. -/
theorem updateGroup_times (h : GroupDbOk db) (ht : groupTimes db g = some (made, changed))
    (hgo : ¬ UpdateRefused db g a) :
    groupTimes (GroupService.updateGroup db g a name avatar text now).1 =
      Function.update (groupTimes db) g (some (made, if now ≠ 0 then now else changed)) := by
  obtain ⟨data, hg, hdata⟩ := Option.map_eq_some_iff.mp ht
  obtain ⟨rfl, rfl⟩ := Prod.mk.inj hdata
  have hright : a ≠ [] ∧ ¬ (data.ownerId ≠ a ∧
      (GroupStore.getMember db g a).all (fun m => m.role ≠ roleAdmin) = true) := by
    constructor
    · exact fun ha => hgo (Or.inl ha)
    · intro hno
      apply hgo
      refine Or.inr ?_
      intro data' hg'
      obtain rfl := Option.some.inj (hg.symm.trans hg')
      exact hno
  have hguard : ¬ (g = [] ∨ a = []) := by
    rintro (hnil | hnil)
    · exact getGroup_ne_nil hg hnil
    · exact hright.1 hnil
  rw [GroupService.updateGroup, if_neg hguard, hg]
  simp only
  rw [if_neg hright.2, GroupService.storeCode, GroupStore.updateGroup, hg]
  exact groupTimes_update (view_rewrite h.ids (view_of_getGroup hg))

/-- An invitation that adds nobody. -/
def InvitesNobody (db : GroupDb) (g a : Bytes) (ids : List Bytes) : Prop :=
  GroupStore.getGroup db g = none ∨ GroupStore.isMember db g a = false ∨ PassedOver db g ids

theorem inviteMembers_nobody (h : InvitesNobody db g a ids) :
    (GroupService.inviteMembers db g a ids now).1 = db := by
  unfold GroupService.inviteMembers
  split
  · rfl
  · cases hg : GroupStore.getGroup db g with
    | none => rfl
    | some data =>
      rcases h with hnone | hout | hpass
      · rw [hnone] at hg
        cases hg
      · simp [hout]
      · simp only [inviteLoop_passed hpass]
        split <;> rfl

theorem inviteMembers_times (h : GroupDbOk db) (ht : groupTimes db g = some (made, changed))
    (hgo : ¬ InvitesNobody db g a ids) :
    groupTimes (GroupService.inviteMembers db g a ids now).1 =
      Function.update (groupTimes db) g (some (made, 0)) := by
  unfold InvitesNobody at hgo
  push Not at hgo
  obtain ⟨hg, hin, hnew⟩ := hgo
  obtain ⟨data, hdata⟩ := Option.ne_none_iff_exists'.mp hg
  have hguard : ¬ (g = [] ∨ a = []) := by
    rintro (hnil | hnil)
    · exact getGroup_ne_nil hdata hnil
    · exact hin (by simp [GroupStore.isMember, hnil])
  rw [GroupService.inviteMembers, if_neg hguard, hdata]
  simp only
  rw [if_neg (not_not_intro (by simpa using hin))]
  exact inviteLoop_cleared h ht hnew

/-- What the operation reads from the clock. -/
def GroupOp.clock : GroupOp → Option Int
  | .create _ _ _ _ _ now => some now
  | .update _ _ _ _ _ now => some now
  | .invite _ _ _ now => some now
  | _ => none

/-- The others leave the times of every group they leave. -/
theorem Act.keeps_times {o x : Option Group} (h : Act g op o x) (hop : op.clock = none) :
    x = none ∨ x.map (fun G => (G.data.createdAt, G.data.updatedAt)) =
      o.map (fun G => (G.data.createdAt, G.data.updatedAt)) := by
  cases h with
  | stay => exact Or.inr rfl
  | create => cases hop
  | dismiss => exact Or.inl rfl
  | update => cases hop
  | invite => cases hop
  | remove => exact Or.inr rfl
  | leave => exact Or.inr rfl
  | transfer => exact Or.inr rfl
  | setRole => exact Or.inr rfl

theorem groupStep_keeps_times (h : GroupDbOk db) (hop : op.clock = none) (g : Bytes) :
    groupTimes (groupStep db op) g = groupTimes db g ∨ groupTimes (groupStep db op) g = none := by
  rw [groupTimes_eq_view, groupTimes_eq_view]
  rcases (groupStep_act h op g).keeps_times hop with hnone | hsame
  · exact Or.inr (by rw [hnone, Option.map_none])
  · exact Or.inl hsame

/-- The step writes no update time before the time the group was made or last changed. -/
def KeepsTimes (db : GroupDb) : GroupOp → Prop
  | .create creatorId _ _ memberIds r now => CreateRefused db creatorId memberIds r ∨ now ≤ 0
  | .update g a _ _ _ now =>
    UpdateRefused db g a ∨ now = 0 ∨ ∀ t ∈ groupTimes db g, t.2 ≤ now
  | .invite g a ids _ => InvitesNobody db g a ids ∨ ∀ t ∈ groupTimes db g, t.2 ≤ 0
  | _ => True

theorem groupTimes_step_iff (h : GroupDbOk db) (ht : GroupTimesOrdered db) (op : GroupOp) :
    GroupTimesOrdered (groupStep db op) ∧ GroupTimesForward db (groupStep db op) ↔
      KeepsTimes db op := by
  cases op with
  | create c name avatar ids r now =>
    by_cases hgo : CreateRefused db c ids r
    · exact iff_of_true (groupTimes_same ht (createGroup_refused hgo)) (Or.inl hgo)
    · have hnone : groupTimes db (generateShortId (str "g_") r) = none := by
        rw [groupTimes, (not_createRefused_iff.mp hgo).2.2, Option.map_none]
      rw [groupStep, groupTimes_set_iff ht (createGroup_times name avatar now h hgo), hnone]
      simp [KeepsTimes, hgo]
  | update g a name avatar text now =>
    by_cases hgo : UpdateRefused db g a
    · exact iff_of_true (groupTimes_same ht (updateGroup_refused hgo)) (Or.inl hgo)
    · obtain ⟨t, hbefore⟩ : ∃ t, groupTimes db g = some t := by
        rw [← Option.isSome_iff_exists, groupTimes, Option.isSome_map]
        by_contra hno
        exact hgo (Or.inr fun data hg => absurd (by rw [hg]; rfl) hno)
      have hle := ht g t.1 t.2 hbefore
      rw [groupStep, groupTimes_set_iff ht (updateGroup_times h hbefore hgo), hbefore]
      simp only [KeepsTimes, hgo, false_or, Option.mem_def, Option.some.injEq, forall_eq', hbefore]
      split
      · omega
      · omega
  | invite g a ids now =>
    by_cases hgo : InvitesNobody db g a ids
    · exact iff_of_true (groupTimes_same ht (inviteMembers_nobody hgo)) (Or.inl hgo)
    · obtain ⟨t, hbefore⟩ : ∃ t, groupTimes db g = some t := by
        rw [← Option.isSome_iff_exists, groupTimes, Option.isSome_map,
          ← Option.ne_none_iff_isSome]
        exact fun hnone => hgo (Or.inl hnone)
      have hle := ht g t.1 t.2 hbefore
      rw [groupStep, groupTimes_set_iff ht (inviteMembers_times h hbefore hgo), hbefore]
      simp only [KeepsTimes, hgo, false_or, Option.mem_def, Option.some.injEq, forall_eq', hbefore]
      omega
  | _ => exact iff_of_true (groupTimes_kept ht (groupStep_keeps_times h rfl)) trivial

/-- Along the run no group was changed before it was made, and no update time goes back. -/
def GroupTimesRight (ops : List GroupOp) : Prop :=
  Always groupStep GroupTimesOrdered OrderedMap.empty ops ∧
    AllSteps groupStep (fun db op => GroupTimesForward db (groupStep db op)) OrderedMap.empty ops

/-- The operation is no creation that goes through. -/
def FoundsNothing (db : GroupDb) : GroupOp → Prop
  | .create creatorId _ _ memberIds r _ => CreateRefused db creatorId memberIds r
  | _ => True

/-- Where there is no group, only a creation does anything. -/
theorem groupStep_empty (hop : FoundsNothing OrderedMap.empty op) :
    groupStep OrderedMap.empty op = OrderedMap.empty := by
  have hnone : ∀ g, GroupStore.getGroup OrderedMap.empty g = none := by
    intro g
    simp [GroupStore.getGroup]
  cases op with
  | create => exact createGroup_refused hop
  | update g a => exact updateGroup_refused (Or.inr fun data hg => by rw [hnone g] at hg; cases hg)
  | invite g a => exact inviteMembers_nobody (Or.inl (hnone g))
  | _ =>
    simp only [groupStep, GroupService.dismissGroup, GroupService.removeMember,
      GroupService.leaveGroup, GroupService.transferOwner, GroupService.setMemberRole, hnone]
    split <;> rfl

theorem keepsTimes_empty_iff (hop : ∀ t ∈ op.clock, 0 < t) :
    KeepsTimes OrderedMap.empty op ↔ FoundsNothing OrderedMap.empty op := by
  have hnone : ∀ g, GroupStore.getGroup OrderedMap.empty g = none := by
    intro g
    simp [GroupStore.getGroup]
  cases op with
  | create c name avatar ids r now =>
    have hpos : ¬ now ≤ 0 := not_le.mpr (hop now rfl)
    exact or_iff_left hpos
  | update g a =>
    refine iff_of_true (Or.inl (Or.inr ?_)) trivial
    intro data hg
    rw [hnone g] at hg
    cases hg
  | invite g a => exact iff_of_true (Or.inl (Or.inl (hnone g))) trivial
  | _ => exact Iff.rfl

/-- On a clock after the epoch the run keeps the times exactly when it makes no group. -/
theorem keepsTimes_iff_foundsNothing {ops : List GroupOp}
    (hpos : ∀ op ∈ ops, ∀ t ∈ op.clock, 0 < t) :
    AllSteps groupStep KeepsTimes OrderedMap.empty ops ↔
      AllSteps groupStep FoundsNothing OrderedMap.empty ops := by
  induction ops with
  | nil => exact Iff.rfl
  | cons op ops ih =>
    have hrest := ih (fun op' hmem => hpos op' (List.mem_cons_of_mem _ hmem))
    rw [allSteps_cons, allSteps_cons, keepsTimes_empty_iff (hpos op List.mem_cons_self)]
    apply and_congr_right
    intro hop
    rw [groupStep_empty hop]
    exact hrest

/-- Along a run no group was changed before it was made and no update time goes back exactly when no
operation writes an earlier time. On a clock after the epoch that is when no group is made. -/
theorem groupTimes_right_iff (ops : List GroupOp) :
    (GroupTimesRight ops ↔ AllSteps groupStep KeepsTimes OrderedMap.empty ops) ∧
      ((∀ op ∈ ops, ∀ t ∈ op.clock, 0 < t) →
        (GroupTimesRight ops ↔ AllSteps groupStep FoundsNothing OrderedMap.empty ops)) := by
  have hiff : GroupTimesRight ops ↔ AllSteps groupStep KeepsTimes OrderedMap.empty ops := by
    refine always_and_allSteps_iff (I := GroupDbOk) ?_ ?_ groupDbOk_empty ?_
    · exact fun db op hok => hok.calls (groupStep_calls db op)
    · exact fun db op hok ht => groupTimes_step_iff hok ht op
    · intro g made changed hg
      simp [groupTimes, GroupStore.getGroup] at hg
  refine ⟨hiff, ?_⟩
  intro hpos
  rw [hiff, keepsTimes_iff_foundsNothing hpos]

/-- A group made at time 5. -/
def foundAtFive : List GroupOp :=
  [.create (str "a") [] [] [str "b", str "c"] groupRandom 5]

/-- A group made at time 0 and renamed at time 5. -/
def foundAtZero : List GroupOp :=
  [.create (str "a") [] [] [str "b", str "c"] groupRandom 0,
    .update sampleGroupId (str "a") (str "n") [] [] 5]

/-- Two are too few for a group. -/
def foundTooFew : List GroupOp := [.create (str "a") [] [] [str "b"] groupRandom 5]

theorem groupTimes_right_renamed :
    (groupTimes (run groupStep OrderedMap.empty foundAtZero) sampleGroupId = some (0, 5) ∧
      GroupTimesRight foundAtZero) ∧ GroupTimesRight foundTooFew := by
  have hrenamed : ∀ t ∈ groupTimes (run groupStep OrderedMap.empty (foundAtZero.take 1))
      sampleGroupId, t.2 ≤ 5 := by
    decide +kernel
  have hpos : ∀ op ∈ foundTooFew, ∀ t ∈ op.clock, 0 < t := by
    intro op hmem t ht
    rw [List.mem_singleton.mp hmem] at ht
    cases ht
    decide
  refine ⟨⟨by decide +kernel, (groupTimes_right_iff foundAtZero).1.mpr ?_⟩,
    ((groupTimes_right_iff foundTooFew).2 hpos).mpr ⟨Or.inr (Or.inl (by decide)), trivial⟩⟩
  exact ⟨Or.inr (by decide), Or.inr (Or.inr hrenamed), trivial⟩

/-- The group that was made at time 5 was last changed at time 0. -/
theorem groupTimes_cleared :
    ¬ ∀ ops : List GroupOp, (ops.filterMap GroupOp.clock).Pairwise (· ≤ ·) →
      GroupTimesRight ops := by
  intro h
  have hlast := (h foundAtFive (List.pairwise_singleton _ _)).1.last
  have htimes : groupTimes (run groupStep OrderedMap.empty foundAtFive) sampleGroupId =
      some (5, 0) := by
    decide +kernel
  exact absurd (hlast _ _ _ htimes) (by decide)

end SwiftChat.Chat
