import SwiftChat.Chat.GroupOwner

/-! Who can do what to a group, along runs of the group operations. -/
namespace SwiftChat.Chat
open Base
variable {db db' : GroupDb} {g u w a : Bytes} {data : GroupData} {m : GroupMemberData}
  {G G' : Group} {o x : Option Group} {op : GroupOp} {now : Int}

/-- Some users joined as plain members; nothing else changed that needs a right. -/
structure Group.Grown (G G' : Group) : Prop where
  owner : G'.data.ownerId = G.data.ownerId
  name : G'.data.groupName = G.data.groupName
  avatar : G'.data.avatarUrl = G.data.avatarUrl
  text : G'.data.announcement = G.data.announcement
  kept : ∀ w m, G.members w = some m → G'.members w = some m
  fresh : ∀ w m, G.members w = none → G'.members w = some m → m.role = roleMember

theorem Group.Grown.refl (G : Group) : G.Grown G where
  owner := rfl
  name := rfl
  avatar := rfl
  text := rfl
  kept _ _ h := h
  fresh w m hnone h := by
    rw [hnone] at h
    cases h

theorem Group.Grown.join (h : G.Grown G') (hfree : G'.members m.userId = none)
    (hrole : m.role = roleMember) : G.Grown (G'.join m) where
  owner := h.owner
  name := h.name
  avatar := h.avatar
  text := h.text
  kept w m' hw := by
    have hold := h.kept w m' hw
    have hne : w ≠ m.userId := by
      rintro rfl
      rw [hfree] at hold
      cases hold
    exact (Function.update_of_ne hne _ _).trans hold
  fresh w m' hnone hw := by
    by_cases he : w = m.userId
    · rw [he] at hw
      rw [← Option.some.inj ((Function.update_self m.userId _ _).symm.trans hw), hrole]
    · exact h.fresh w m' hnone ((Function.update_of_ne he _ _).symm.trans hw)

/-- A loop of additions lets a group grow and leaves the others alone. -/
theorem foldl_addMember_grown (ids : List Bytes) {f : GroupDb → Bytes → GroupDb}
    (hf : ∀ db uid, f db uid = db ∨ ∃ m : GroupMemberData, m.role = roleMember ∧
      f db uid = (GroupStore.addMember db g m).1) (h : GroupDbOk db) (hv : view db g = some G') :
    G.Grown G' → ∃ G'', G.Grown G'' ∧
      view (ids.foldl f db) = Function.update (view db) g (some G'') := by
  induction ids generalizing db G' with
  | nil =>
    intro hgrown
    refine ⟨G', hgrown, ?_⟩
    rw [List.foldl_nil, ← hv, Function.update_eq_self]
  | cons uid ids ih =>
    intro hgrown
    rw [List.foldl_cons]
    rcases hf db uid with hs | ⟨m, hr, hs⟩
    · rw [hs]
      exact ih h hv hgrown
    · rw [hs]
      rcases addMember_view (m := m) (g := g) h with hsame | ⟨G₀, hv₀, hfree, hview⟩
      · rw [hsame]
        exact ih h hv hgrown
      · obtain rfl : G' = G₀ := Option.some.inj (hv.symm.trans hv₀)
        have hafter := congrFun hview g
        rw [Function.update_self] at hafter
        obtain ⟨G'', hG'', hs'⟩ := ih (h.call .addMember) hafter (hgrown.join hfree hr)
        exact ⟨G'', hG'', by rw [hs', hview, Function.update_idem]⟩

/-- What an operation does to the group `g`, with the right it has to it. -/
inductive Act (g : Bytes) : GroupOp → Option Group → Option Group → Prop where
  | stay {op : GroupOp} {o : Option Group} : Act g op o o
  | create {G : Group} {c name avatar : Bytes} {ids : List Bytes} {r : RandomString 12} {now : Int}
      (howner : G.data.ownerId = c) (hin : ∃ m, G.members c = some m ∧ m.role = roleOwner)
      (hrole : ∀ w m, G.members w = some m → w = c ∨ m.role = roleMember) :
      Act g (.create c name avatar ids r now) none (some G)
  | dismiss {G : Group} : Act g (.dismiss g G.data.ownerId) (some G) none
  | update {G : Group} {a name avatar text : Bytes} {now : Int} {data : GroupData}
      (hright : a = G.data.ownerId ∨ ∃ m, G.members a = some m ∧ m.role = roleAdmin)
      (howner : data.ownerId = G.data.ownerId) :
      Act g (.update g a name avatar text now) (some G) (some { G with data := data })
  | invite {G G' : Group} {a : Bytes} {ids : List Bytes} {now : Int} (hgrown : G.Grown G') :
      Act g (.invite g a ids now) (some G) (some G')
  | remove {G : Group} {a w : Bytes} {actor m : GroupMemberData} (ha : G.members a = some actor)
      (hright : actor.role = roleOwner ∨ actor.role = roleAdmin) (hm : G.members w = some m)
      (hsafe : m.role ≠ roleOwner) : Act g (.remove g a w) (some G) (some (G.part w))
  | leave {G : Group} {w : Bytes} (hw : w ≠ G.data.ownerId) :
      Act g (.leave g w) (some G) (some (G.part w))
  | transfer {G : Group} {new : Bytes} {old next : GroupMemberData} :
      Act g (.transfer g G.data.ownerId new) (some G)
        (some { (G.setMember { old with role := roleMember } G.data.ownerId).setMember
          { next with role := roleOwner } new with data := { G.data with ownerId := new } })
  | setRole {G : Group} {w : Bytes} {m : GroupMemberData} {role : Int} (hm : G.members w = some m)
      (hsafe : m.role ≠ roleOwner) : Act g (.setRole g G.data.ownerId w role) (some G)
        (some (G.setMember { m with role := role } w))

/-- An operation on one group leaves the others alone. -/
theorem Act.of_update (hv : view db' = Function.update (view db) g x) (hact : Act g op (view db g) x)
    (g' : Bytes) : Act g' op (view db g') (view db' g') := by
  rw [hv]
  by_cases he : g' = g
  · subst he
    rw [Function.update_self]
    exact hact
  · rw [Function.update_of_ne he]
    exact .stay

theorem Act.of_eq (hv : db' = db) (g' : Bytes) : Act g' op (view db g') (view db' g') := by
  rw [hv]
  exact .stay

theorem createGroup_act {c name avatar : Bytes} {ids : List Bytes} {r : RandomString 12}
    (h : GroupDbOk db) (g : Bytes) : Act g (.create c name avatar ids r now) (view db g)
      (view (GroupService.createGroup db c name avatar ids r now).1 g) := by
  by_cases hgo : CreateRefused db c ids r
  · exact Act.of_eq (createGroup_refused hgo) g
  · obtain ⟨db₁, data, m, others, hok, _, _, hc, howner, hrole, hview, hs⟩ :=
      createGroup_made name avatar now h hgo
    have hfree : view db (generateShortId (str "g_") r) = none :=
      view_eq_none.mpr (not_createRefused_iff.mp hgo).2.2
    have hafter := congrFun hview (generateShortId (str "g_") r)
    rw [Function.update_self] at hafter
    obtain ⟨G, hgrown, hadd⟩ := foldl_addMember_grown others
      (fun db uid => Or.inr ⟨{ userId := uid, role := roleMember, joinedAt := now }, rfl, rfl⟩) hok
      hafter (Group.Grown.refl _)
    refine Act.of_update (g := generateShortId (str "g_") r) (x := some G) ?_ ?_ g
    · rw [hs]
      exact hadd.trans (by rw [hview, Function.update_idem])
    · rw [hfree]
      refine .create (hgrown.owner.trans hc) ⟨m, hgrown.kept c m ?_, hrole⟩ ?_
      · rw [← howner.trans hc]
        exact Function.update_self _ _ _
      intro w m' hw
      by_cases he : w = m.userId
      · exact Or.inl (he.trans (howner.trans hc))
      · refine Or.inr (hgrown.fresh w m' ?_ hw)
        exact Function.update_of_ne he _ _

theorem dismissGroup_act (h : GroupDbOk db) (g' : Bytes) :
    Act g' (.dismiss g a) (view db g') (view (GroupService.dismissGroup db g a).1 g') := by
  unfold GroupService.dismissGroup
  split
  · exact .stay
  · cases hg : GroupStore.getGroup db g with
    | none => exact .stay
    | some data =>
      simp only
      split
      · exact .stay
      · rename_i howner
        obtain rfl : data.ownerId = a := not_not.mp howner
        have hv := view_of_getGroup hg
        refine Act.of_update (view_deleteGroup h.ids (h.ids.of_view hv)) ?_ g'
        rw [hv]
        exact .dismiss (G := ⟨data, GroupStore.getMember db g⟩)

theorem updateGroup_act {name avatar text : Bytes} (h : GroupDbOk db) (g' : Bytes) :
    Act g' (.update g a name avatar text now) (view db g')
      (view (GroupService.updateGroup db g a name avatar text now).1 g') := by
  unfold GroupService.updateGroup
  split
  · exact .stay
  · cases hg : GroupStore.getGroup db g with
    | none => exact .stay
    | some data =>
      simp only
      split
      · exact .stay
      · rename_i hright
        have hv := view_of_getGroup hg
        simp only [GroupService.storeCode, GroupStore.updateGroup, hg]
        refine Act.of_update (view_rewrite h.ids hv) ?_ g'
        rw [hv]
        refine .update ?_ rfl
        push Not at hright
        by_cases howner : data.ownerId = a
        · exact Or.inl howner.symm
        · have hadmin := hright howner
          cases hm : GroupStore.getMember db g a with
          | none => simp [hm] at hadmin
          | some m => exact Or.inr ⟨m, hm, by simpa [hm] using hadmin⟩

theorem inviteMembers_act {ids : List Bytes} (h : GroupDbOk db) (g' : Bytes) :
    Act g' (.invite g a ids now) (view db g')
      (view (GroupService.inviteMembers db g a ids now).1 g') := by
  unfold GroupService.inviteMembers
  split
  · exact .stay
  · cases hg : GroupStore.getGroup db g with
    | none => exact .stay
    | some data =>
      simp only
      split
      · exact .stay
      · have hv := view_of_getGroup hg
        obtain ⟨G, hgrown, hadd⟩ := foldl_addMember_grown (g := g) ids
          (f := fun db uid => if uid = [] then db else if GroupStore.isMember db g uid then db
            else (GroupStore.addMember db g
              { userId := uid, role := roleMember, joinedAt := now }).1)
          (fun db uid => by
            split
            · exact Or.inl rfl
            · split
              · exact Or.inl rfl
              · exact Or.inr ⟨_, rfl, rfl⟩) h hv (Group.Grown.refl _)
        refine Act.of_update hadd ?_ g'
        rw [hv]
        exact .invite hgrown

theorem removeMember_view (h : GroupDbOk db) (hv : view db g = some G) (hm : G.members w = some m) :
    view (GroupStore.removeMember db g w).1 = Function.update (view db) g (some (G.part w)) := by
  rw [← getMember_of_view hv] at hm
  have hkey : (db.get (keyGroupMember g w)).isNone = false := by
    rw [get_of_getMember hm]
    rfl
  have hremoved := @view_remove db g w _ h.ids hv
  simpa only [GroupStore.removeMember, (h.ids.of_view hv).ne_nil, getMember_ne_nil hm, or_self,
    if_false, hkey, (view_eq_some.mp hv).1, Bool.false_eq_true] using hremoved

theorem removeMember_act (h : GroupDbOk db) (g' : Bytes) :
    Act g' (.remove g a w) (view db g') (view (GroupService.removeMember db g a w).1 g') := by
  unfold GroupService.removeMember
  split
  · exact .stay
  · cases hg : GroupStore.getGroup db g with
    | none => exact .stay
    | some data =>
      cases ha : GroupStore.getMember db g a with
      | none =>
        simp only
        split <;> exact .stay
      | some actor =>
        cases hm : GroupStore.getMember db g w with
        | none =>
          simp only
          split <;> exact .stay
        | some m =>
          simp only
          repeat' split
          all_goals try exact .stay
          rename_i hsafe hright _
          have hv := view_of_getGroup hg
          refine Act.of_update (removeMember_view h hv hm) ?_ g'
          rw [hv]
          refine .remove ha ?_ hm hsafe
          by_contra hno
          push Not at hno
          exact hright hno

theorem leaveGroup_act (h : GroupDbOk db) (g' : Bytes) :
    Act g' (.leave g w) (view db g') (view (GroupService.leaveGroup db g w).1 g') := by
  unfold GroupService.leaveGroup
  split
  · exact .stay
  · cases hg : GroupStore.getGroup db g with
    | none => exact .stay
    | some data =>
      simp only
      split
      · exact .stay
      · rename_i howner
        split
        · exact .stay
        · rename_i hmem
          rw [not_not, h.isMember_eq] at hmem
          obtain ⟨m, hm⟩ := Option.isSome_iff_exists.mp hmem
          have hv := view_of_getGroup hg
          refine Act.of_update (removeMember_view h hv hm) ?_ g'
          rw [hv]
          exact .leave (fun he => howner he.symm)

/-- A transfer goes through when the owner is a member, and otherwise does nothing. -/
theorem transferOwner_act {next : Bytes} (h : GroupDbOk db) (g' : Bytes) :
    Act g' (.transfer g a next) (view db g')
      (view (GroupService.transferOwner db g a next).1 g') := by
  rcases transferOwner_view h g a next with
    hs | ⟨G, mo, mn, hv, rfl, _, _, hview⟩
  · exact Act.of_eq hs g'
  · refine Act.of_update hview ?_ g'
    rw [hv]
    exact .transfer

theorem setMemberRole_act {role : Int} (h : GroupDbOk db) (g' : Bytes) :
    Act g' (.setRole g a w role) (view db g')
      (view (GroupService.setMemberRole db g a w role).1 g') := by
  rcases setMemberRole_view h g a w role with
    hs | ⟨G, m, hv, rfl, hm, hsafe, hview⟩
  · exact Act.of_eq hs g'
  · refine Act.of_update hview ?_ g'
    rw [hv]
    exact .setRole hm hsafe

/-- Every operation acts on every group within its rights. -/
theorem groupStep_act (h : GroupDbOk db) (op : GroupOp) (g : Bytes) :
    Act g op (view db g) (view (groupStep db op) g) := by
  cases op with
  | create => exact createGroup_act h g
  | dismiss => exact dismissGroup_act h g
  | update => exact updateGroup_act h g
  | invite => exact inviteMembers_act h g
  | remove => exact removeMember_act h g
  | leave => exact leaveGroup_act h g
  | transfer => exact transferOwner_act h g
  | setRole => exact setMemberRole_act h g

/-- The user who issues an operation. -/
def GroupOp.actor : GroupOp → Bytes
  | .create creatorId .. => creatorId
  | .dismiss _ operatorId => operatorId
  | .update _ operatorId .. => operatorId
  | .invite _ inviterId .. => inviterId
  | .remove _ operatorId _ => operatorId
  | .leave _ userId => userId
  | .transfer _ oldOwnerId _ => oldOwnerId
  | .setRole _ operatorId .. => operatorId

/-- `u` does not own `g`. -/
def NotOwner (g u : Bytes) (db : GroupDb) : Prop :=
  ∀ data ∈ GroupStore.getGroup db g, data.ownerId ≠ u

/-- The operation is no request of an owner of `g` that gives `u` a role. -/
def GivesNoRole (g u : Bytes) (db : GroupDb) (op : GroupOp) : Prop :=
  ∀ data ∈ GroupStore.getGroup db g, ∀ role, op ≠ .setRole g data.ownerId u role

/-- What `u` may change in `g` without a right: others join, and `u` leaves. -/
structure LeavesAlone (g u : Bytes) (db db' : GroupDb) : Prop where
  record : ∀ data, GroupStore.getGroup db g = some data → ∃ data',
    GroupStore.getGroup db' g = some data' ∧ data'.ownerId = data.ownerId ∧
      data'.groupName = data.groupName ∧ data'.avatarUrl = data.avatarUrl ∧
      data'.announcement = data.announcement
  members : ∀ data w m, GroupStore.getGroup db g = some data →
    GroupStore.getMember db g w = some m → GroupStore.getMember db' g w = some m ∨
      (w = u ∧ GroupStore.getMember db' g w = none)

/-- Only the owner of the moment changes a role or the owner, and nobody removes the owner. -/
structure OwnerOnly (g : Bytes) (db : GroupDb) (op : GroupOp) : Prop where
  role : ∀ data w m m', GroupStore.getGroup db g = some data →
    GroupStore.getMember db g w = some m → GroupStore.getMember (groupStep db op) g w = some m' →
    m'.role ≠ m.role → op.actor = data.ownerId
  owner : ∀ data data', GroupStore.getGroup db g = some data →
    GroupStore.getGroup (groupStep db op) g = some data' → data'.ownerId ≠ data.ownerId →
    op.actor = data.ownerId
  stays : ∀ data data', GroupStore.getGroup db g = some data →
    GroupStore.getGroup (groupStep db op) g = some data' →
    GroupStore.isMember (groupStep db op) g data.ownerId = true

/-- The owner is a member with the role of an owner. -/
def Group.Owned (G : Group) : Prop := ∃ m, G.members G.data.ownerId = some m ∧ m.role = roleOwner

/-- As a member, `u` has the role of a plain one. -/
def Group.Plain (u : Bytes) (G : Group) : Prop := ∀ m, G.members u = some m → m.role = roleMember

theorem Group.part_members (hne : u ≠ w) : (G.part w).members u = G.members u :=
  Function.update_of_ne hne _ _

theorem Group.setMember_members (hne : u ≠ w) : (G.setMember m w).members u = G.members u :=
  Function.update_of_ne hne _ _

theorem Group.part_self : (G.part w).members w = none := Function.update_self _ _ _

/-- Who is a member after someone has left was one before. -/
theorem Group.members_of_part (hm : (G.part w).members u = some m) : G.members u = some m := by
  by_cases he : u = w
  · rw [he, Group.part_self] at hm
    cases hm
  · exact (Group.part_members he).symm.trans hm

theorem Group.setMember_self : (G.setMember m w).members w = some m := Function.update_self _ _ _

/-- The owner is never the one who loses the role or the membership. -/
theorem Act.owned (h : Act g op o (some G')) (ho : ∀ G, o = some G → G.Owned) : G'.Owned := by
  cases h with
  | stay => exact ho _ rfl
  | create howner hin _ =>
    rw [← howner] at hin
    exact hin
  | @update G _ _ _ _ _ data _ howner =>
    change ∃ m, G.members data.ownerId = some m ∧ _
    rw [howner]
    exact ho _ rfl
  | invite hgrown =>
    obtain ⟨m, hm, hrole⟩ := ho _ rfl
    exact ⟨m, hgrown.owner ▸ hgrown.kept _ _ hm, hrole⟩
  | @remove G _ w _ m _ _ hm hsafe =>
    obtain ⟨mo, hmo, hrole⟩ := ho _ rfl
    have hne : G.data.ownerId ≠ w := by
      rintro rfl
      exact hsafe (Option.some.inj (hm.symm.trans hmo) ▸ hrole)
    exact ⟨mo, (Group.part_members hne).trans hmo, hrole⟩
  | leave hw =>
    obtain ⟨mo, hmo, hrole⟩ := ho _ rfl
    exact ⟨mo, (Group.part_members hw.symm).trans hmo, hrole⟩
  | transfer => exact ⟨_, Group.setMember_self, rfl⟩
  | @setRole G w m role hm hsafe =>
    obtain ⟨mo, hmo, hrole⟩ := ho _ rfl
    have hne : G.data.ownerId ≠ w := by
      rintro rfl
      exact hsafe (Option.some.inj (hm.symm.trans hmo) ▸ hrole)
    exact ⟨mo, (Group.setMember_members hne).trans hmo, hrole⟩

/-- Who neither becomes the owner nor is given a role stays a plain member. -/
theorem Act.plain (h : Act g op o (some G')) (hgives : ∀ G, o = some G → ∀ role,
    op ≠ .setRole g G.data.ownerId u role) (howner : G'.data.ownerId ≠ u)
    (ho : ∀ G, o = some G → G.Plain u) : G'.Plain u := by
  intro mu hmu
  cases h with
  | stay => exact ho _ rfl mu hmu
  | create hc _ hrole =>
    rcases hrole u mu hmu with rfl | hrole
    · exact absurd hc howner
    · exact hrole
  | update _ _ => exact ho _ rfl mu hmu
  | @invite G _ _ _ _ hgrown =>
    cases hold : G.members u with
    | none => exact hgrown.fresh u mu hold hmu
    | some m =>
      rw [hgrown.kept u m hold] at hmu
      exact Option.some.inj hmu ▸ ho G rfl m hold
  | remove => exact ho _ rfl mu (Group.members_of_part hmu)
  | leave => exact ho _ rfl mu (Group.members_of_part hmu)
  | @transfer G new old next =>
    have hm' := (Group.setMember_members howner.symm).symm.trans hmu
    by_cases he : u = G.data.ownerId
    · rw [he, Group.setMember_self] at hm'
      rw [← Option.some.inj hm']
    · exact ho G rfl mu ((Group.setMember_members he).symm.trans hm')
  | @setRole G w _ role _ _ =>
    have he : u ≠ w := by
      rintro rfl
      exact hgives G rfl role rfl
    exact ho G rfl mu ((Group.setMember_members he).symm.trans hmu)

/-- A plain member who issues an operation changes nothing that needs a right. -/
theorem Act.leavesAlone (h : Act g op (some G) o) (hactor : op.actor = u)
    (howner : G.data.ownerId ≠ u) (hplain : G.Plain u) :
    ∃ G', o = some G' ∧ (G'.data.ownerId = G.data.ownerId ∧
      G'.data.groupName = G.data.groupName ∧ G'.data.avatarUrl = G.data.avatarUrl ∧
      G'.data.announcement = G.data.announcement) ∧
      ∀ w m, G.members w = some m → G'.members w = some m ∨ (w = u ∧ G'.members w = none) := by
  cases h with
  | stay => exact ⟨G, rfl, ⟨rfl, rfl, rfl, rfl⟩, fun w m hm => Or.inl hm⟩
  | dismiss => exact absurd hactor howner
  | update hright _ =>
    rcases hright with he | ⟨m, hm, hrole⟩
    · exact absurd (he.symm.trans hactor) howner
    · have hadmin := hplain m (hactor ▸ hm)
      rw [hrole] at hadmin
      exact absurd hadmin (by decide)
  | @invite _ G' _ _ _ hgrown =>
    exact ⟨G', rfl, ⟨hgrown.owner, hgrown.name, hgrown.avatar, hgrown.text⟩,
      fun w m hm => Or.inl (hgrown.kept w m hm)⟩
  | @remove _ _ _ actor _ ha hright _ _ =>
    have hrole := hplain actor (hactor ▸ ha)
    rw [hrole] at hright
    exact absurd hright (by decide)
  | @leave _ w _ =>
    obtain rfl : w = u := hactor
    refine ⟨G.part w, rfl, ⟨rfl, rfl, rfl, rfl⟩, ?_⟩
    intro w' m hm
    by_cases he : w' = w
    · exact Or.inr ⟨he, he ▸ Group.part_self⟩
    · exact Or.inl ((Group.part_members he).trans hm)
  | transfer => exact absurd hactor howner
  | setRole _ _ => exact absurd hactor howner

/-- A role or an owner that changes is changed by the owner. -/
theorem Act.by_owner (h : Act g op (some G) (some G')) :
    op.actor = G.data.ownerId ∨ G'.data.ownerId = G.data.ownerId ∧
      ∀ w m m', G.members w = some m → G'.members w = some m' → m'.role = m.role := by
  have hsame : ∀ {m m' : GroupMemberData}, some m' = some m → m'.role = m.role := by
    intro m m' he
    rw [Option.some.inj he]
  cases h with
  | stay => exact Or.inr ⟨rfl, fun w m m' hm hm' => hsame (hm'.symm.trans hm)⟩
  | update _ howner => exact Or.inr ⟨howner, fun w m m' hm hm' => hsame (hm'.symm.trans hm)⟩
  | invite hgrown =>
    exact Or.inr ⟨hgrown.owner, fun w m m' hm hm' => hsame (hm'.symm.trans (hgrown.kept w m hm))⟩
  | remove =>
    refine Or.inr ⟨rfl, fun w m m' hm hm' => ?_⟩
    exact hsame ((Group.members_of_part hm').symm.trans hm)
  | leave =>
    refine Or.inr ⟨rfl, fun w m m' hm hm' => ?_⟩
    exact hsame ((Group.members_of_part hm').symm.trans hm)
  | transfer => exact Or.inl rfl
  | setRole _ _ => exact Or.inl rfl

/-- Nobody takes the membership from the owner, not even the owner. -/
theorem Act.stays (h : Act g op (some G) (some G')) (ho : G.Owned) :
    (G'.members G.data.ownerId).isSome := by
  have hafter : G'.Owned := h.owned (fun G₀ he => Option.some.inj he ▸ ho)
  obtain ⟨mo, hmo, _⟩ := hafter
  suffices hsame : G'.data.ownerId = G.data.ownerId ∨ (G'.members G.data.ownerId).isSome by
    rcases hsame with he | hs
    · rw [← he, hmo]
      rfl
    · exact hs
  cases h with
  | stay => exact Or.inl rfl
  | update _ howner => exact Or.inl howner
  | invite hgrown => exact Or.inl hgrown.owner
  | remove _ _ _ _ => exact Or.inl rfl
  | leave _ => exact Or.inl rfl
  | @transfer _ new old next =>
    by_cases he : G.data.ownerId = new
    · exact Or.inl he.symm
    · refine Or.inr ?_
      have hm := (Group.setMember_members (m := { next with role := roleOwner })
        (G := G.setMember { old with role := roleMember } G.data.ownerId) he).trans
        Group.setMember_self
      exact Option.isSome_iff_exists.mpr ⟨_, hm⟩
  | setRole _ _ => exact Or.inl rfl

/-- What the group operations keep: every group is one its owner belongs to. -/
structure GroupsOwned (db : GroupDb) : Prop where
  ok : GroupDbOk db
  owned : ∀ g G, view db g = some G → G.Owned

theorem groupsOwned_empty : GroupsOwned OrderedMap.empty where
  ok := groupDbOk_empty
  owned g G hv := by
    rw [view_empty] at hv
    cases hv

theorem GroupsOwned.step (h : GroupsOwned db) (op : GroupOp) :
    GroupsOwned (groupStep db op) where
  ok := h.ok.calls (groupStep_calls db op)
  owned g G hv := by
    have hact := groupStep_act h.ok op g
    rw [hv] at hact
    exact hact.owned (fun G₀ he => h.owned g G₀ he)

theorem GroupsOwned.ownerOnly (h : GroupsOwned db) (op : GroupOp) (g : Bytes) :
    OwnerOnly g db op := by
  have hact := groupStep_act h.ok op g
  constructor
  · intro data w m m' hg hm hm' hne
    have hv := view_of_getGroup hg
    cases hv' : view (groupStep db op) g with
    | none =>
      have hnone := (h.step op).ok.getMember_of_absent (h.ok.ids.of_view hv)
        (view_eq_none.mp hv')
      rw [hnone] at hm'
      cases hm'
    | some G' =>
      rw [hv, hv'] at hact
      rcases hact.by_owner with hactor | ⟨_, hsame⟩
      · exact hactor
      · rw [getMember_of_view hv'] at hm'
        exact absurd (hsame w m m' hm hm') hne
  · intro data data' hg hg' hne
    rw [view_of_getGroup hg, view_of_getGroup hg'] at hact
    rcases hact.by_owner with hactor | ⟨hsame, _⟩
    · exact hactor
    · exact absurd hsame hne
  · intro data data' hg hg'
    have hv := view_of_getGroup hg
    rw [hv, view_of_getGroup hg'] at hact
    rw [(h.step op).ok.isMember_eq]
    exact hact.stays (h.owned g _ hv)

/-- As a member of `g`, if it exists, `u` has the role of a plain one. -/
def PlainIn (g u : Bytes) (db : GroupDb) : Prop := ∀ G, view db g = some G → G.Plain u

theorem GroupsOwned.plainIn (h : GroupsOwned db) (hgives : GivesNoRole g u db op)
    (hafter : NotOwner g u (groupStep db op)) (hplain : PlainIn g u db) :
    PlainIn g u (groupStep db op) := by
  intro G' hv'
  have hact := groupStep_act h.ok op g
  rw [hv'] at hact
  refine hact.plain ?_ (hafter G'.data (view_eq_some.mp hv').1) hplain
  intro G hv role
  exact hgives G.data (view_eq_some.mp hv).1 role

theorem GroupsOwned.leavesAlone (h : GroupsOwned db) (howner : NotOwner g u db)
    (hplain : PlainIn g u db) (hactor : op.actor = u) : LeavesAlone g u db (groupStep db op) := by
  have hact := groupStep_act h.ok op g
  constructor
  · intro data hg
    have hv := view_of_getGroup hg
    rw [hv] at hact
    obtain ⟨G', hv', hsame, _⟩ := hact.leavesAlone hactor (howner data hg) (hplain _ hv)
    exact ⟨G'.data, (view_eq_some.mp hv').1, hsame⟩
  · intro data w m hg hm
    have hv := view_of_getGroup hg
    rw [hv] at hact
    obtain ⟨G', hv', _, hmembers⟩ := hact.leavesAlone hactor (howner data hg) (hplain _ hv)
    rw [getMember_of_view hv']
    exact hmembers w m hm

/-- A user who never owned a group and was given no role by an owner has changed nothing in it that
needs a right; and only the owner of the moment changes roles or the owner, and the owner stays. -/
theorem privileges_held (ops : List GroupOp) (g u : Bytes) :
    (Always groupStep (NotOwner g u) OrderedMap.empty ops →
      AllSteps groupStep (GivesNoRole g u) OrderedMap.empty ops →
      AllSteps groupStep (fun db op => op.actor = u → LeavesAlone g u db (groupStep db op))
        OrderedMap.empty ops) ∧
    AllSteps groupStep (OwnerOnly g) OrderedMap.empty ops := by
  have hany : AllSteps groupStep (fun _ _ => True) OrderedMap.empty ops :=
    allSteps_of_forall fun _ _ => trivial
  constructor
  · intro hnever hgives
    refine (hnever.allSteps.and hgives).imp
      (I := fun db => GroupsOwned db ∧ NotOwner g u db ∧ PlainIn g u db) ?_ ?_
      ⟨groupsOwned_empty, hnever.first, ?_⟩
    · rintro db op ⟨hok, _, hplain⟩ ⟨hafter, hgives⟩
      exact ⟨hok.step op, hafter, hok.plainIn hgives hafter hplain⟩
    · rintro db op ⟨hok, howner, hplain⟩ _ hactor
      exact hok.leavesAlone howner hplain hactor
    · intro G hv
      rw [view_empty] at hv
      cases hv
  · exact hany.imp (fun db op hok _ => hok.step op) (fun db op hok _ => hok.ownerOnly op g)
      groupsOwned_empty

/-- `a` makes a group with `b` and `c`; `b` tries to remove `c`. -/
def memberRemoves : List GroupOp :=
  [.create (str "a") [] [] [str "b", str "c"] groupRandom 5,
    .remove sampleGroupId (str "b") (str "c")]

theorem memberRemoves_leaves_alone :
    AllSteps groupStep (fun db op => op.actor = str "b" →
      LeavesAlone sampleGroupId (str "b") db (groupStep db op)) OrderedMap.empty memberRemoves := by
  refine (privileges_held memberRemoves sampleGroupId (str "b")).1 ?_ ?_
  · refine always_cons.mpr ⟨?_, always_cons.mpr ⟨?_, always_nil.mpr ?_⟩⟩
    all_goals
      unfold NotOwner
      decide +kernel
  · refine ⟨?_, ?_, trivial⟩
    all_goals
      intro data _ role he
      cases he

end SwiftChat.Chat
