import SwiftChat.Chat.ChatRun
import SwiftChat.Chat.GroupView
import Mathlib.Logic.Relation

/-! What the operations can do to a group, whoever calls them and in whatever order. -/
namespace SwiftChat.Chat
open Base
variable {db : GroupDb} {g w : Bytes} {data : GroupData} {m : GroupMemberData} {G : Group}
  {S : Scope} {now : Int} {s : ChatState}

/-- One change of a group that the guards of the operations let through; `roles` are the roles
`SetMemberRole` is asked for. -/
inductive Change (roles : Int → Prop) : Option Group → Option Group → Prop where
  | create {data : GroupData} {m : GroupMemberData} (hlive : data.status = 0)
      (hcount : 3 ≤ data.memberCount) (howner : m.userId = data.ownerId)
      (hrole : m.role = roleOwner) : Change roles none (some (Group.join ⟨data, fun _ => none⟩ m))
  | join {G : Group} {m : GroupMemberData} (hin : ∃ w, G.isMember w)
      (hfree : G.members m.userId = none) (hrole : m.role = roleMember) :
      Change roles (some G) (some (G.join m))
  | part {G : Group} {w : Bytes} {m : GroupMemberData} (hm : G.members w = some m)
      (hsafe : w ≠ G.data.ownerId ∨ m.role ≠ roleOwner) : Change roles (some G) (some (G.part w))
  | rewrite {G : Group} {data : GroupData} (howner : data.ownerId = G.data.ownerId)
      (hstatus : data.status = G.data.status) (hcount : data.memberCount = G.data.memberCount) :
      Change roles (some G) (some { G with data := data })
  | transfer {G : Group} {new : Bytes} {old next : GroupMemberData}
      (hold : G.members G.data.ownerId = some old)
      (hnew : (G.setMember { old with role := roleMember } G.data.ownerId).members new = some next) :
      Change roles (some G)
        (some { (G.setMember { old with role := roleMember } G.data.ownerId).setMember
          { next with role := roleOwner } new with data := { G.data with ownerId := new } })
  | setRole {G : Group} {w : Bytes} {m : GroupMemberData} {role : Int} (hm : G.members w = some m)
      (hsafe : m.role ≠ roleOwner) (hrole : roles role) :
      Change roles (some G) (some (G.setMember { m with role := role } w))
  | dissolve {G : Group} : Change roles (some G) (some G.dissolve)
  | dismiss {G : Group} : Change roles (some G) none

/-- What operations ask for: the roles they give, the ids they draw, the groups they dismiss. -/
structure Scope where
  roles : Int → Prop := fun _ => True
  new : Bytes → Prop := fun _ => True
  gone : Bytes → Prop := fun _ => True

/-- One group changes and the others stay as they are. -/
def ViewStep (S : Scope) (V V' : Bytes → Option Group) : Prop :=
  ∃ g x, Change S.roles (V g) x ∧ (V g = none → S.new g) ∧ (x = none → S.gone g) ∧
    V' = Function.update V g x

abbrev ViewSteps (S : Scope) := Relation.ReflTransGen (ViewStep S)

theorem ViewSteps.change {V V' : Bytes → Option Group} {G' : Group} (ho : V g = some G)
    (hc : Change S.roles (some G) (some G')) (hv : V' = Function.update V g (some G')) :
    ViewSteps S V V' := by
  refine Relation.ReflTransGen.single ⟨g, some G', ho ▸ hc, ?_, ?_, hv⟩
  · intro hnone
    rw [ho] at hnone
    cases hnone
  · intro hnone
    cases hnone

/-- What every change of a group keeps holds of all groups along any number of changes. -/
theorem ViewSteps.forall_group {V V' : Bytes → Option Group} {P : Group → Prop}
    (hkeep : ∀ o G, Change S.roles o (some G) → (∀ G₀, o = some G₀ → P G₀) → P G)
    (h : ViewSteps S V V') (hV : ∀ g G, V g = some G → P G) :
    ∀ g G, V' g = some G → P G := by
  induction h with
  | refl => exact hV
  | tail _ hstep ih =>
    obtain ⟨g, x, hc, _, _, rfl⟩ := hstep
    intro g' G hG
    by_cases he : g' = g
    · subst he
      rw [Function.update_self] at hG
      subst hG
      exact hkeep _ G hc (fun G₀ h₀ => ih g' G₀ h₀)
    · rw [Function.update_of_ne he] at hG
      exact ih g' G hG

/-- The same for one group whose id is not drawn. -/
theorem ViewSteps.at_group {V V' : Bytes → Option Group} {P : Group → Prop} (hg : ¬ S.new g)
    (hkeep : ∀ G G', Change S.roles (some G) (some G') → P G → P G')
    (h : ViewSteps S V V') (hV : ∀ G, V g = some G → P G) : ∀ G, V' g = some G → P G := by
  induction h with
  | refl => exact hV
  | @tail V₁ V₂ _ hstep ih =>
    obtain ⟨g', x, hc, hnew, _, rfl⟩ := hstep
    intro G hG
    by_cases he : g = g'
    · subst he
      rw [Function.update_self] at hG
      subst hG
      cases ho : V₁ g with
      | none => exact absurd (hnew ho) hg
      | some G₀ => exact hkeep G₀ G (ho ▸ hc) (ih G₀ ho)
    · rw [Function.update_of_ne he] at hG
      exact ih G hG

/-- A group that nobody dismisses stays. -/
theorem ViewSteps.stays {V V' : Bytes → Option Group} (hg : ¬ S.gone g) (h : ViewSteps S V V')
    (hV : (V g).isSome) : (V' g).isSome := by
  induction h with
  | refl => exact hV
  | tail _ hstep ih =>
    obtain ⟨g', x, _, _, hgone, rfl⟩ := hstep
    by_cases he : g = g'
    · subst he
      rw [Function.update_self]
      cases x with
      | none => exact absurd (hgone rfl) hg
      | some G => rfl
    · rw [Function.update_of_ne he]
      exact ih

/-- The operation asks for nothing else; only the owner's dismissal counts. -/
def GroupOp.InScope (S : Scope) (db : GroupDb) : GroupOp → Prop
  | .create _ _ _ _ r _ => S.new (generateShortId (str "g_") r)
  | .dismiss g a => ∀ data, GroupStore.getGroup db g = some data → data.ownerId = a → S.gone g
  | .setRole _ _ _ role => S.roles role
  | _ => True

def ChatOp.InScope (S : Scope) (s : ChatState) : ChatOp → Prop
  | .group op => op.InScope S s.groups
  | _ => True

theorem inScope_all (s : ChatState) (op : ChatOp) : op.InScope {} s := by
  cases op with
  | group o =>
    cases o with
    | dismiss g a => exact fun _ _ _ => trivial
    | _ => exact trivial
  | _ => exact trivial

/-! The operations one by one. -/

theorem getMember_of_view (hv : view db g = some G) (w : Bytes) :
    GroupStore.getMember db g w = G.members w := congrFun (view_eq_some.mp hv).2 w

/-- `AddMember` refuses an id that is empty, known or names no group. -/
theorem addMember_view (h : GroupDbOk db) :
    (GroupStore.addMember db g m).1 = db ∨
    ∃ G, view db g = some G ∧ G.members m.userId = none ∧
      view (GroupStore.addMember db g m).1 = Function.update (view db) g (some (G.join m)) := by
  unfold GroupStore.addMember
  split
  · exact Or.inl rfl
  · rename_i hne
    push Not at hne
    split
    · exact Or.inl rfl
    · rename_i hfree
      cases hg : GroupStore.getGroup db g with
      | none => exact Or.inl rfl
      | some data =>
        have hv := view_of_getGroup hg
        have hadded := view_add h.ids hv hne.2
        refine Or.inr ⟨_, hv, ?_, hadded⟩
        exact (h.getMember_eq_none hne.1 hne.2).mpr (by simpa using hfree)

theorem addMember_steps (h : GroupDbOk db) (hr : m.role = roleMember)
    (hin : (GroupStore.getMember db g w).isSome) :
    ViewSteps S (view db) (view (GroupStore.addMember db g m).1) ∧
      (GroupStore.getMember (GroupStore.addMember db g m).1 g w).isSome := by
  rcases addMember_view (m := m) (g := g) h with hs | ⟨G, hv, hfree, hs⟩
  · rw [hs]
    exact ⟨Relation.ReflTransGen.refl, hin⟩
  · rw [getMember_of_view hv] at hin
    refine ⟨ViewSteps.change hv (.join ⟨w, hin⟩ hfree hr) hs, ?_⟩
    have hafter : view (GroupStore.addMember db g m).1 g = some (G.join m) := by
      rw [hs, Function.update_self]
    rw [getMember_of_view hafter]
    unfold Group.join
    by_cases hw : w = m.userId
    · simp [hw]
    · simpa [hw] using hin

/-- A loop of additions to a group that has a member. -/
theorem foldl_addMember_steps {ids : List Bytes} {f : GroupDb → Bytes → GroupDb}
    (hf : ∀ db uid, f db uid = db ∨ ∃ m : GroupMemberData, m.role = roleMember ∧
      f db uid = (GroupStore.addMember db g m).1) (h : GroupDbOk db)
    (hin : (GroupStore.getMember db g w).isSome) :
    ViewSteps S (view db) (view (ids.foldl f db)) := by
  induction ids generalizing db with
  | nil => exact Relation.ReflTransGen.refl
  | cons uid ids ih =>
    rw [List.foldl_cons]
    rcases hf db uid with hs | ⟨m, hr, hs⟩
    · rw [hs]
      exact ih h hin
    · rw [hs]
      obtain ⟨hsteps, hin'⟩ := addMember_steps h hr hin
      exact hsteps.trans (ih (h.call .addMember) hin')

theorem addMembers_steps {ids : List Bytes} (h : GroupDbOk db)
    (hin : (GroupStore.getMember db g w).isSome) :
    ViewSteps S (view db) (view (GroupService.addMembers db g ids now)) := by
  apply foldl_addMember_steps _ h hin
  intro db uid
  exact Or.inr ⟨_, rfl, rfl⟩

theorem inviteLoop_steps {ids : List Bytes} (h : GroupDbOk db)
    (hin : (GroupStore.getMember db g w).isSome) :
    ViewSteps S (view db) (view (GroupService.inviteLoop db g ids now)) := by
  apply foldl_addMember_steps _ h hin
  intro db uid
  split
  · exact Or.inl rfl
  · split
    · exact Or.inl rfl
    · exact Or.inr ⟨_, rfl, rfl⟩

/-- A new group starts with its owner as only member. -/
theorem newGroup_view (h : GroupDbOk db) (hid : IsGroupId data.groupId) (howner : m.userId ≠ [])
    (hfree : GroupStore.getGroup db data.groupId = none) :
    (GroupStore.addMember (db.put (keyGroup data.groupId) (.group data)) data.groupId m).2 = true ∧
    view (GroupStore.addMember (db.put (keyGroup data.groupId) (.group data)) data.groupId m).1 =
      Function.update (view db) data.groupId (some (Group.join ⟨data, fun _ => none⟩ m)) := by
  have hv : view (db.put (keyGroup data.groupId) (.group data)) =
      Function.update (view db) data.groupId (some ⟨data, fun _ => none⟩) := by
    rw [view_put_group hid.ne_nil, h.getMember_of_absent hid hfree]
  have hv' : view (db.put (keyGroup data.groupId) (.group data)) data.groupId =
      some ⟨data, fun _ => none⟩ := by
    rw [hv, Function.update_self]
  have hget := (view_eq_some.mp hv').1
  have hnone : (db.put (keyGroup data.groupId) (.group data)).get
      (keyGroupMember data.groupId m.userId) = none := by
    rw [OrderedMap.get_put_ne keyGroup_ne_keyGroupMember.symm,
      ← h.getMember_eq_none hid.ne_nil howner, h.getMember_of_absent hid hfree]
  unfold GroupStore.addMember
  rw [if_neg (by push Not; exact ⟨hid.ne_nil, howner⟩), hnone, hget]
  refine ⟨rfl, ?_⟩
  exact (view_add (h.ids.put_group hid) hv' howner).trans (by rw [hv, Function.update_idem])

/-- `CreateGroup` is refused without a creator, with too few members, or when the id it draws is
taken. -/
def CreateRefused (db : GroupDb) (creatorId : Bytes) (memberIds : List Bytes)
    (r : RandomString 12) : Prop :=
  creatorId = [] ∨ (GroupService.uniqueMembers creatorId memberIds).length < minGroupMembers ∨
    (GroupStore.getGroup db (generateShortId (str "g_") r)).isSome = true

/-- What a founding that goes on has found. -/
theorem not_createRefused_iff {c : Bytes} {ids : List Bytes} {r : RandomString 12} :
    ¬ CreateRefused db c ids r ↔ c ≠ [] ∧
      minGroupMembers ≤ (GroupService.uniqueMembers c ids).length ∧
      GroupStore.getGroup db (generateShortId (str "g_") r) = none := by
  unfold CreateRefused
  push Not
  simp

theorem createGroup_refused {c name avatar : Bytes} {ids : List Bytes} {r : RandomString 12}
    (h : CreateRefused db c ids r) :
    (GroupService.createGroup db c name avatar ids r now).1 = db := by
  unfold GroupService.createGroup
  split
  · rfl
  · rename_i hc
    simp only
    split
    · rfl
    · rename_i hsize
      rcases h with h | h | h
      · exact absurd h hc
      · exact absurd h hsize
      · obtain ⟨data, hg⟩ := Option.isSome_iff_exists.mp h
        have htaken : GroupStore.createGroup db (GroupService.newGroup
            (generateShortId (str "g_") r) c name avatar (GroupService.uniqueMembers c ids) now) =
            (db, false) := by
          simp [GroupStore.createGroup, GroupService.newGroup, (get_of_getGroup hg).2]
        simp only [htaken, Bool.false_eq_true, not_false_eq_true, if_true]

/-- Otherwise it makes a group of its creator and adds the others. -/
theorem createGroup_founds {c : Bytes} {ids : List Bytes} {r : RandomString 12}
    (name avatar : Bytes) (now : Int) (h : GroupDbOk db) (hgo : ¬ CreateRefused db c ids r) :
    ∃ db₁, GroupDbOk db₁ ∧
      view db₁ = Function.update (view db) (generateShortId (str "g_") r)
        (some (Group.join ⟨GroupService.newGroup (generateShortId (str "g_") r) c name avatar
          (GroupService.uniqueMembers c ids) now, fun _ => none⟩
          { userId := c, role := roleOwner, joinedAt := now })) ∧
      (GroupService.createGroup db c name avatar ids r now).1 =
        GroupService.addMembers db₁ (generateShortId (str "g_") r)
          ((GroupService.uniqueMembers c ids).filter (· ≠ c)) now := by
  obtain ⟨hc, hsize, hfree⟩ := not_createRefused_iff.mp hgo
  have hid := isGroupId_generate r
  simp only [GroupService.createGroup, hc, if_false, not_lt.mpr hsize]
  generalize hdata : GroupService.newGroup _ c name avatar _ now = data
  have hdid : data.groupId = generateShortId (str "g_") r := by rw [← hdata]; rfl
  have hdowner : data.ownerId = c := by rw [← hdata]; rfl
  rw [← hdid] at hid hfree ⊢
  have hmade : GroupStore.createGroup db data =
      (db.put (keyGroup data.groupId) (.group data), true) := by
    have hg := (h.getGroup_eq_none hid.ne_nil).mp hfree
    simp [GroupStore.createGroup, hid.ne_nil, hdowner, hc, hg]
  have hmake := newGroup_view (m := { userId := c, role := roleOwner, joinedAt := now }) h hid hc hfree
  have hok := (h.call (.createGroup hid)).call
    (.addMember (g := data.groupId) (m := { userId := c, role := roleOwner, joinedAt := now }))
  rw [hmade] at hok
  refine ⟨_, hok, hmake.2, ?_⟩
  simp only [hmade, not_true_eq_false, if_false]
  rw [if_neg (not_not_intro hmake.1)]

theorem createGroup_made {c : Bytes} {ids : List Bytes} {r : RandomString 12}
    (name avatar : Bytes) (now : Int) (h : GroupDbOk db) (hgo : ¬ CreateRefused db c ids r) :
    ∃ db₁ data m others, GroupDbOk db₁ ∧ data.status = 0 ∧ 3 ≤ data.memberCount ∧
      data.ownerId = c ∧ m.userId = data.ownerId ∧ m.role = roleOwner ∧
      view db₁ = Function.update (view db) (generateShortId (str "g_") r)
        (some (Group.join ⟨data, fun _ => none⟩ m)) ∧
      (GroupService.createGroup db c name avatar ids r now).1 =
        GroupService.addMembers db₁ (generateShortId (str "g_") r) others now := by
  obtain ⟨db₁, hok, hview, hs⟩ := createGroup_founds name avatar now h hgo
  refine ⟨db₁, _, _, _, hok, rfl, ?_, rfl, rfl, rfl, hview, hs⟩
  have hsize := (not_createRefused_iff.mp hgo).2.1
  change (3 : Int) ≤ ((GroupService.uniqueMembers c ids).length : Int)
  have : minGroupMembers = 3 := rfl
  omega

theorem createGroup_steps {c name avatar : Bytes} {ids : List Bytes} {r : RandomString 12}
    (h : GroupDbOk db) (hnew : S.new (generateShortId (str "g_") r)) :
    ViewSteps S (view db)
      (view (GroupService.createGroup db c name avatar ids r now).1) := by
  by_cases hgo : CreateRefused db c ids r
  · rw [createGroup_refused hgo]
  · obtain ⟨db₁, data, m, others, hok, hlive, hcount, _, howner, hrole, hview, hs⟩ :=
      createGroup_made name avatar now h hgo
    have hfree : view db (generateShortId (str "g_") r) = none :=
      view_eq_none.mpr (not_createRefused_iff.mp hgo).2.2
    have hcreate : ViewSteps S (view db) (view db₁) :=
      Relation.ReflTransGen.single ⟨_, _, hfree ▸ .create hlive hcount howner hrole,
        fun _ => hnew, (fun hnone => by cases hnone), hview⟩
    have hafter := congrFun hview (generateShortId (str "g_") r)
    rw [Function.update_self] at hafter
    rw [hs]
    refine hcreate.trans (addMembers_steps (w := m.userId) hok ?_)
    rw [getMember_of_view hafter]
    simp [Group.join]

theorem updateGroup_steps {name avatar text : Bytes} (h : GroupDbOk db) :
    ViewSteps S (view db) (view (GroupStore.updateGroup db g name avatar text now).1) := by
  unfold GroupStore.updateGroup
  cases hg : GroupStore.getGroup db g with
  | none => exact Relation.ReflTransGen.refl
  | some data =>
    have hv := view_of_getGroup hg
    refine ViewSteps.change hv (.rewrite ?_ ?_ ?_) (view_rewrite h.ids hv)
    all_goals rfl

theorem deleteGroup_steps (h : GroupDbOk db) (hg : GroupStore.getGroup db g = some data)
    (hgone : S.gone g) : ViewSteps S (view db) (view (GroupStore.deleteGroup db g).1) := by
  have hv := view_of_getGroup hg
  refine Relation.ReflTransGen.single ⟨g, none, hv ▸ .dismiss, ?_, fun _ => hgone,
    view_deleteGroup h.ids (h.ids.of_view hv)⟩
  intro hnone
  rw [hv] at hnone
  cases hnone

theorem dissolveGroup_view (h : GroupDbOk db) (hv : view db g = some G) (hlive : G.data.status ≠ 1) :
    view (GroupStore.dissolveGroup db g).1 = Function.update (view db) g (some G.dissolve) := by
  simp only [GroupStore.dissolveGroup, (view_eq_some.mp hv).1, hlive, if_false]
  refine view_dissolve h.ids hv ?_
  intro w hw
  rw [← getMember_of_view hv] at hw
  exact mem_memberIds_of_getMember hw

theorem removeMember_steps (h : GroupDbOk db) (hg : GroupStore.getGroup db g = some data)
    (hm : GroupStore.getMember db g w = some m) (hsafe : w ≠ data.ownerId ∨ m.role ≠ roleOwner) :
    ViewSteps S (view db) (view (GroupStore.removeMember db g w).1) := by
  have hv := view_of_getGroup hg
  unfold GroupStore.removeMember
  split
  · exact Relation.ReflTransGen.refl
  · split
    · exact Relation.ReflTransGen.refl
    · rw [hg]
      have hremoved := @view_remove db g w _ h.ids hv
      exact ViewSteps.change hv (.part hm hsafe) hremoved

theorem getMember_ne_nil (h : GroupStore.getMember db g w = some m) : w ≠ [] := by
  rintro rfl
  simp [GroupStore.getMember] at h

theorem updateMemberRole_view (role : Int) (h : GroupDbOk db) (hv : view db g = some G)
    (hm : G.members w = some m) :
    (GroupStore.updateMemberRole db g w role).2 = true ∧
    view (GroupStore.updateMemberRole db g w role).1 =
      Function.update (view db) g (some (G.setMember { m with role := role } w)) := by
  rw [← getMember_of_view hv] at hm
  simp only [GroupStore.updateMemberRole, hm]
  exact ⟨trivial, view_setMember h.ids hv (getMember_ne_nil hm)⟩

/-- The three writes of a transfer. -/
theorem transfer_view {old next : Bytes} {mo mn : GroupMemberData} (h : GroupDbOk db)
    (hv : view db g = some G) (hold : G.members old = some mo)
    (hnew : (G.setMember { mo with role := roleMember } old).members next = some mn) :
    view (GroupStore.updateGroupOwner (GroupStore.updateMemberRole
        (GroupStore.updateMemberRole db g old roleMember).1 g next roleOwner).1 g next).1 =
      Function.update (view db) g
        (some { (G.setMember { mo with role := roleMember } old).setMember
          { mn with role := roleOwner } next with data := { G.data with ownerId := next } }) ∧
    (GroupStore.updateMemberRole db g old roleMember).2 = true ∧
    (GroupStore.updateMemberRole (GroupStore.updateMemberRole db g old roleMember).1 g next
      roleOwner).2 = true := by
  obtain ⟨hdone, hdemote⟩ := updateMemberRole_view roleMember h hv hold
  have h₁ : GroupDbOk (GroupStore.updateMemberRole db g old roleMember).1 :=
    h.call .updateMemberRole
  have hv₁ := congrFun hdemote g
  rw [Function.update_self] at hv₁
  obtain ⟨hdone₂, hpromote⟩ := updateMemberRole_view roleOwner h₁ hv₁ hnew
  have h₂ : GroupDbOk (GroupStore.updateMemberRole
      (GroupStore.updateMemberRole db g old roleMember).1 g next roleOwner).1 :=
    h₁.call .updateMemberRole
  have hv₂ := congrFun hpromote g
  rw [Function.update_self] at hv₂
  have hne : next ≠ [] := by
    rw [← getMember_of_view hv₁] at hnew
    exact getMember_ne_nil hnew
  refine ⟨?_, hdone, hdone₂⟩
  unfold GroupStore.updateGroupOwner
  rw [if_neg hne, (view_eq_some.mp hv₂).1]
  refine (view_rewrite h₂.ids hv₂).trans ?_
  rw [hpromote, hdemote, Function.update_idem, Function.update_idem]
  rfl

/-- A transfer that passes its guards goes through when the owner is a member, and otherwise does
nothing. -/
theorem transferOwner_view (h : GroupDbOk db) (g old next : Bytes) :
    (GroupService.transferOwner db g old next).1 = db ∨
    ∃ G mo mn, view db g = some G ∧ G.data.ownerId = old ∧ G.members G.data.ownerId = some mo ∧
      (G.setMember { mo with role := roleMember } G.data.ownerId).members next = some mn ∧
      view (GroupService.transferOwner db g old next).1 = Function.update (view db) g
        (some { (G.setMember { mo with role := roleMember } G.data.ownerId).setMember
          { mn with role := roleOwner } next with data := { G.data with ownerId := next } }) := by
  unfold GroupService.transferOwner
  split
  · exact Or.inl rfl
  · cases hg : GroupStore.getGroup db g with
    | none => exact Or.inl rfl
    | some data =>
      simp only
      split
      · exact Or.inl rfl
      · rename_i howner
        obtain rfl : data.ownerId = old := not_not.mp howner
        split
        · exact Or.inl rfl
        · rename_i hmem
          have hv := view_of_getGroup hg
          cases hold : GroupStore.getMember db g data.ownerId with
          | none =>
            have hnone : GroupStore.updateMemberRole db g data.ownerId roleMember = (db, false) := by
              simp only [GroupStore.updateMemberRole, hold]
            simp only [hnone]
            exact Or.inl rfl
          | some mo =>
            -- the new owner is still a member after the old one is demoted
            obtain ⟨mn, hmn⟩ : ∃ mn, (Group.setMember ⟨data, GroupStore.getMember db g⟩
                { mo with role := roleMember } data.ownerId).members next = some mn := by
              unfold Group.setMember
              by_cases he : next = data.ownerId
              · exact ⟨_, by rw [he]; exact Function.update_self _ _ _⟩
              · rw [not_not, h.isMember_eq] at hmem
                obtain ⟨mn, hmn⟩ := Option.isSome_iff_exists.mp hmem
                exact ⟨mn, by simpa only [Function.update_of_ne he] using hmn⟩
            obtain ⟨hview, hdone, hdone₂⟩ := transfer_view h hv hold hmn
            simp only [hdone, hdone₂, not_true_eq_false, if_false]
            exact Or.inr ⟨_, mo, mn, hv, rfl, hold, hmn, hview⟩

theorem transferOwner_steps {old next : Bytes} (h : GroupDbOk db) :
    ViewSteps S (view db) (view (GroupService.transferOwner db g old next).1) := by
  rcases transferOwner_view h g old next with
    hs | ⟨G, mo, mn, hv, _, hold, hnew, hview⟩
  · rw [hs]
  · exact ViewSteps.change hv (.transfer hold hnew) hview

/-- Only the owner gives roles, and only to members without the role of an owner. -/
theorem setMemberRole_view (h : GroupDbOk db) (g a w : Bytes) (role : Int) :
    (GroupService.setMemberRole db g a w role).1 = db ∨
    ∃ G m, view db g = some G ∧ G.data.ownerId = a ∧ G.members w = some m ∧ m.role ≠ roleOwner ∧
      view (GroupService.setMemberRole db g a w role).1 =
        Function.update (view db) g (some (G.setMember { m with role := role } w)) := by
  unfold GroupService.setMemberRole
  split
  · exact Or.inl rfl
  · cases hg : GroupStore.getGroup db g with
    | none => exact Or.inl rfl
    | some data =>
      simp only
      split
      · exact Or.inl rfl
      · rename_i howner
        cases hm : GroupStore.getMember db g w with
        | none => exact Or.inl rfl
        | some m =>
          simp only
          split
          · exact Or.inl rfl
          · rename_i hsafe
            have hv := view_of_getGroup hg
            exact Or.inr ⟨_, m, hv, not_not.mp howner, hm, hsafe, (updateMemberRole_view _ h hv hm).2⟩

theorem setMemberRole_steps {a : Bytes} {role : Int} (h : GroupDbOk db) (hrole : S.roles role) :
    ViewSteps S (view db) (view (GroupService.setMemberRole db g a w role).1) := by
  rcases setMemberRole_view h g a w role with
    hs | ⟨G, m, hv, _, hm, hsafe, hview⟩
  · rw [hs]
  · exact ViewSteps.change hv (.setRole hm hsafe hrole) hview

/-- Every group operation is a sequence of changes. -/
theorem groupStep_steps (h : GroupDbOk db) (op : GroupOp) (hscope : op.InScope S db) :
    ViewSteps S (view db) (view (groupStep db op)) := by
  cases op with
  | create => exact createGroup_steps h hscope
  | dismiss g a =>
    simp only [groupStep, GroupService.dismissGroup]
    repeat' split
    all_goals first
      | exact Relation.ReflTransGen.refl
      | (rename_i hg howner; exact deleteGroup_steps h hg (hscope _ hg (not_not.mp howner)))
  | update =>
    simp only [groupStep, GroupService.updateGroup]
    repeat' split
    all_goals first
      | exact Relation.ReflTransGen.refl
      | exact updateGroup_steps h
  | invite g a ids now =>
    simp only [groupStep, GroupService.inviteMembers]
    repeat' split
    · exact Relation.ReflTransGen.refl
    · exact Relation.ReflTransGen.refl
    · exact Relation.ReflTransGen.refl
    · rename_i hin
      rw [h.isMember_eq] at hin
      exact inviteLoop_steps h (not_not.mp hin)
  | remove g a w =>
    simp only [groupStep, GroupService.removeMember]
    repeat' split
    all_goals first
      | exact Relation.ReflTransGen.refl
      | (rename_i _ _ hg _ _ _ _ _ _ hm hrole _ _
         exact removeMember_steps h hg hm (Or.inr hrole))
  | leave g w =>
    simp only [groupStep, GroupService.leaveGroup]
    repeat' split
    · exact Relation.ReflTransGen.refl
    · exact Relation.ReflTransGen.refl
    · exact Relation.ReflTransGen.refl
    · exact Relation.ReflTransGen.refl
    · rename_i hg howner hmem
      rw [h.isMember_eq] at hmem
      obtain ⟨m, hm⟩ := Option.isSome_iff_exists.mp (not_not.mp hmem)
      exact removeMember_steps h hg hm (Or.inl (fun he => howner he.symm))
  | transfer => exact transferOwner_steps h
  | setRole => exact setMemberRole_steps h hscope

/-- So is every operation of the chat service. -/
theorem chatStep_steps (h : GroupDbOk s.groups) (op : ChatOp) (hscope : op.InScope S s) :
    ViewSteps S (view s.groups) (view (chatStep s op).groups) := by
  rcases chatStep_groups s op with hs | ⟨o, rfl⟩ | ⟨a, c, data, _, hg, _, hlive, hs⟩
  · rw [hs]
  · exact groupStep_steps h o hscope
  · have hv := view_of_getGroup hg
    rw [hs]
    exact ViewSteps.change hv .dissolve (dissolveGroup_view h hv hlive)

theorem chatAfter_dbOk (ops : List ChatOp) : GroupDbOk (chatAfter ops).groups :=
  groupDbOk_empty.calls (chatAfter_groups ops)

/-- Every reachable state is reached by changes of groups. -/
theorem chatAfter_steps (ops : List ChatOp) :
    ViewSteps {} (fun _ => none) (view (chatAfter ops).groups) := by
  have hrun := @run_invariant _ _ chatStep {} ops
    (fun s => GroupDbOk s.groups ∧ ViewSteps {} (fun _ => none) (view s.groups))
    (fun _ => True) ?_ ⟨groupDbOk_empty, ?_⟩ (fun _ _ => trivial)
  · exact hrun.2
  · rintro s op ⟨hok, hsteps⟩ _
    exact ⟨hok.calls (chatStep_calls s op),
      hsteps.trans (chatStep_steps hok op (inScope_all s op))⟩
  · rw [view_empty]

/-- What every change keeps holds of every group of every reachable state. -/
theorem chatAfter_group {P : Group → Prop}
    (hkeep : ∀ o G, Change (fun _ => True) o (some G) → (∀ G₀, o = some G₀ → P G₀) → P G)
    (ops : List ChatOp) (hv : view (chatAfter ops).groups g = some G) : P G :=
  (chatAfter_steps ops).forall_group hkeep (fun _ _ h => by cases h) g G hv

/-! A group of three, for runs on fixed input. -/

def groupRandom : RandomString 12 := RandomString.replicate 12 71 rfl

def sampleGroupId : Bytes := generateShortId (str "g_") groupRandom

/-- `a` makes a group with `b` and `c`. -/
def makeGroup : ChatOp := .group (.create (str "a") [] [] [str "b", str "c"] groupRandom 5)

end SwiftChat.Chat
