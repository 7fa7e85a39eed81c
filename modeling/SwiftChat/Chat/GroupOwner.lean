import SwiftChat.Chat.GroupChange

/-! The owner of a live group is a member of it with the role of an owner; when the owner is the
only one with that role. -/
namespace SwiftChat.Chat
open Base
variable {db : GroupDb} {g w : Bytes} {data : GroupData} {m : GroupMemberData} {G : Group}
  {roles : Int → Prop} {s : ChatState} {o : Option Group}

/-- A live group has its owner as a member with the role of an owner, and one that is not live has
no members. -/
structure Group.Ok (G : Group) : Prop where
  owner : G.data.status = 0 → ∃ m, G.members G.data.ownerId = some m ∧ m.role = roleOwner
  ended : G.data.status ≠ 0 → ∀ w, G.members w = none

theorem Group.Ok.live (h : G.Ok) (hm : G.isMember w) : G.data.status = 0 := by
  by_contra hne
  rw [Group.isMember, h.ended hne w] at hm
  cases hm

theorem Group.Ok.join (h : G.Ok) (hin : ∃ w, G.isMember w) (hfree : G.members m.userId = none) :
    (G.join m).Ok where
  owner hlive := by
    obtain ⟨mo, hmo, hrole⟩ := h.owner hlive
    refine ⟨mo, ?_, hrole⟩
    have hne : G.data.ownerId ≠ m.userId := by
      intro he
      rw [he, hfree] at hmo
      cases hmo
    exact (Function.update_of_ne hne _ _).trans hmo
  ended hne := by
    obtain ⟨w, hw⟩ := hin
    exact absurd (h.live hw) hne

theorem Group.Ok.part (h : G.Ok) (hm : G.members w = some m)
    (hsafe : w ≠ G.data.ownerId ∨ m.role ≠ roleOwner) : (G.part w).Ok where
  owner hlive := by
    obtain ⟨mo, hmo, hrole⟩ := h.owner hlive
    refine ⟨mo, ?_, hrole⟩
    have hne : G.data.ownerId ≠ w := by
      rintro rfl
      rcases hsafe with hs | hs
      · exact hs rfl
      · rw [hmo] at hm
        exact hs (Option.some.inj hm ▸ hrole)
    exact (Function.update_of_ne hne _ _).trans hmo
  ended hne := by
    rw [h.ended hne w] at hm
    cases hm

theorem Group.Ok.rewrite (h : G.Ok) (howner : data.ownerId = G.data.ownerId)
    (hstatus : data.status = G.data.status) : Group.Ok { G with data := data } where
  owner hlive := by
    rw [howner]
    exact h.owner (hstatus ▸ hlive)
  ended hne := h.ended (hstatus ▸ hne)

theorem Group.Ok.setMember {role : Int} (h : G.Ok) (hm : G.members w = some m)
    (hsafe : m.role ≠ roleOwner) : (G.setMember { m with role := role } w).Ok where
  owner hlive := by
    obtain ⟨mo, hmo, hrole⟩ := h.owner hlive
    refine ⟨mo, ?_, hrole⟩
    have hne : G.data.ownerId ≠ w := by
      rintro rfl
      rw [hmo] at hm
      exact hsafe (Option.some.inj hm ▸ hrole)
    exact (Function.update_of_ne hne _ _).trans hmo
  ended hne := by
    rw [h.ended hne w] at hm
    cases hm

/-- Every change keeps the owner in. -/
theorem Change.ok (h : Change roles o (some G)) (hok : ∀ G₀, o = some G₀ → G₀.Ok) : G.Ok := by
  cases h with
  | @create data m hlive _ howner hrole =>
    refine ⟨fun _ => ⟨m, ?_, hrole⟩, fun hne => absurd hlive hne⟩
    change Function.update _ m.userId _ data.ownerId = _
    rw [← howner, Function.update_self]
  | join hin hfree _ => exact (hok _ rfl).join hin hfree
  | part hm hsafe => exact (hok _ rfl).part hm hsafe
  | rewrite howner hstatus _ => exact (hok _ rfl).rewrite howner hstatus
  | transfer hold hnew =>
    refine ⟨fun _ => ⟨_, Function.update_self _ _ _, rfl⟩, fun hne => ?_⟩
    rw [(hok _ rfl).ended hne] at hold
    cases hold
  | setRole hm hsafe _ => exact (hok _ rfl).setMember hm hsafe
  | dissolve => exact ⟨fun hlive => absurd (show (1 : Int) = 0 from hlive) (by decide), fun _ _ => rfl⟩

/-- A group that has ended keeps its owner and has ended for good. -/
theorem Change.ended (h : Change roles (some G) o) (hok : G.Ok) (hstatus : G.data.status = 1) :
    ∀ G', o = some G' → G'.data.status = 1 ∧ G'.data.ownerId = G.data.ownerId := by
  have hnone := hok.ended (by omega : G.data.status ≠ 0)
  intro G' ho
  cases h with
  | join hin _ _ =>
    obtain ⟨w, hw⟩ := hin
    rw [Group.isMember, hnone w] at hw
    cases hw
  | part hm _ =>
    rw [hnone] at hm
    cases hm
  | rewrite howner hsame _ =>
    obtain rfl := Option.some.inj ho
    exact ⟨hsame.trans hstatus, howner⟩
  | transfer hold _ =>
    rw [hnone] at hold
    cases hold
  | setRole hm _ _ =>
    rw [hnone] at hm
    cases hm
  | dissolve =>
    obtain rfl := Option.some.inj ho
    exact ⟨rfl, rfl⟩
  | dismiss => cases ho

/-- In every reachable state the owner of a live group is a member with the role of an owner. -/
theorem owner_in_live_group (ops : List ChatOp) (g : Bytes) (data : GroupData)
    (hg : GroupStore.getGroup (chatAfter ops).groups g = some data) (hlive : data.status = 0) :
    ∃ m, GroupStore.getMember (chatAfter ops).groups g data.ownerId = some m ∧
      m.role = roleOwner :=
  (chatAfter_group (fun _ _ => Change.ok) ops (view_of_getGroup hg)).owner hlive

/-- The group of three after `a` has handed it over to `b` and left. -/
def handedOver : List ChatOp :=
  [makeGroup, .group (.transfer sampleGroupId (str "a") (str "b")),
    .group (.leave sampleGroupId (str "a"))]

theorem handedOver_owner : ∃ data,
    GroupStore.getGroup (chatAfter handedOver).groups sampleGroupId = some data ∧
      data.ownerId = str "b" ∧
      ∃ m, GroupStore.getMember (chatAfter handedOver).groups sampleGroupId data.ownerId = some m ∧
        m.role = roleOwner := by
  refine ⟨_, rfl, rfl, ?_⟩
  exact owner_in_live_group handedOver sampleGroupId _ rfl rfl

/-! Nobody else has the role, unless the owner gives it away. -/

/-- Who has the role of an owner is the owner. -/
def SoleOwner (db : GroupDb) : Prop :=
  ∀ g data w m, GroupStore.getGroup db g = some data → GroupStore.getMember db g w = some m →
    m.role = roleOwner → w = data.ownerId

/-- The owner can remove every other member. -/
def OwnerRemoves (db : GroupDb) : Prop :=
  ∀ g data w, GroupStore.getGroup db g = some data → GroupStore.isMember db g w = true →
    w ≠ data.ownerId → (GroupService.removeMember db g data.ownerId w).2 = .ok

/-- The operation is no request of an owner that gives another member the role of an owner. -/
def KeepsSoleOwner (s : ChatState) : ChatOp → Prop
  | .group (.setRole g a w role) =>
    role = roleOwner → w ≠ a →
      (GroupStore.getGroup s.groups g).all (fun data => data.ownerId ≠ a) = true ∨
        GroupStore.isMember s.groups g w = false
  | _ => True

/-- The invariant the two statements rest on. -/
def GroupsHealthy (db : GroupDb) : Prop := GroupDbOk db ∧ ∀ g G, view db g = some G → G.Ok

theorem groupsHealthy_empty : GroupsHealthy OrderedMap.empty := by
  refine ⟨groupDbOk_empty, ?_⟩
  intro g G hv
  rw [view_empty] at hv
  cases hv

theorem GroupsHealthy.chatStep {op : ChatOp} (h : GroupsHealthy s.groups) :
    GroupsHealthy (chatStep s op).groups := by
  refine ⟨h.1.calls (chatStep_calls s op), ?_⟩
  exact (chatStep_steps h.1 op (inScope_all s op)).forall_group (fun _ _ => Change.ok) h.2

def Group.SoleOwner (G : Group) : Prop :=
  ∀ w m, G.members w = some m → m.role = roleOwner → w = G.data.ownerId

theorem soleOwner_iff_view :
    SoleOwner db ↔ ∀ g G, view db g = some G → G.SoleOwner := by
  constructor
  · intro h g G hv w m hm
    rw [← getMember_of_view hv] at hm
    exact h g G.data w m (view_eq_some.mp hv).1 hm
  · intro h g data w m hg hm
    exact h g _ (view_of_getGroup hg) w m hm

/-- A change that gives nobody the role of an owner keeps the owner the only one. -/
theorem Change.soleOwner (h : Change (· ≠ roleOwner) o (some G))
    (hsole : ∀ G₀, o = some G₀ → G₀.SoleOwner) : G.SoleOwner := by
  intro w m hm hrole
  cases h with
  | @create data mo _ _ howner _ =>
    by_cases hw : w = mo.userId
    · exact hw.trans howner
    · exact absurd ((Function.update_of_ne hw _ _).symm.trans hm) (by simp)
  | @join G m' hin hfree hr =>
    by_cases hw : w = m'.userId
    · rw [hw] at hm
      have hsame := Option.some.inj ((Function.update_self m'.userId _ _).symm.trans hm)
      rw [← hsame, hr] at hrole
      exact absurd hrole (by decide)
    · exact hsole G rfl w m ((Function.update_of_ne hw _ _).symm.trans hm) hrole
  | @part G w' m' hm' _ =>
    by_cases hw : w = w'
    · rw [hw] at hm
      exact absurd ((Function.update_self w' _ _).symm.trans hm) (by simp)
    · exact hsole G rfl w m ((Function.update_of_ne hw _ _).symm.trans hm) hrole
  | rewrite howner _ _ =>
    rw [howner]
    exact hsole _ rfl w m hm hrole
  | @transfer G new old next hold hnew =>
    by_cases hw : w = new
    · exact hw
    · have hm' := (Function.update_of_ne hw _ _).symm.trans hm
      by_cases hwo : w = G.data.ownerId
      · rw [hwo] at hm'
        have hsame := Option.some.inj ((Function.update_self G.data.ownerId _ _).symm.trans hm')
        rw [← hsame] at hrole
        exact absurd (show roleMember = roleOwner from hrole) (by decide)
      · exact absurd (hsole G rfl w m ((Function.update_of_ne hwo _ _).symm.trans hm') hrole) hwo
  | @setRole G w' m' role hm' hsafe hr =>
    by_cases hw : w = w'
    · rw [hw] at hm
      have hsame := Option.some.inj ((Function.update_self w' _ _).symm.trans hm)
      rw [← hsame] at hrole
      exact absurd hrole hr
    · exact hsole G rfl w m ((Function.update_of_ne hw _ _).symm.trans hm) hrole
  | dissolve => cases hm

/-- An owner who is the only one can remove the others. -/
theorem SoleOwner.ownerRemoves (h : SoleOwner db) (hok : GroupsHealthy db) : OwnerRemoves db := by
  intro g data w hg hw hne
  have hv := view_of_getGroup hg
  rw [hok.1.isMember_eq] at hw
  obtain ⟨m, hm⟩ := Option.isSome_iff_exists.mp hw
  obtain ⟨mo, hmo, hrole⟩ := (hok.2 g _ hv).owner ((hok.2 g _ hv).live hw)
  have hgne := (hok.1.ids.of_view hv).ne_nil
  have hwne := getMember_ne_nil hm
  have hone : data.ownerId ≠ [] := getMember_ne_nil hmo
  have hmrole : ¬ m.role = 0 := fun hr => hne (h g data w m hg hm hr)
  have hrole : mo.role = 0 := hrole
  have hkey := get_of_getMember hm
  have hmo' : GroupStore.getMember db g data.ownerId = some mo := hmo
  simp [GroupService.removeMember, GroupService.storeCode, GroupStore.removeMember, hg, hm, hmo',
    hgne, hwne, hone, hrole, hmrole, hkey, hok.1.isMember_eq, roleOwner, roleAdmin]

/-- Giving the role of an owner to another member makes a second one. -/
theorem not_soleOwner_of_setRole {a : Bytes} (hok : GroupsHealthy db) (hsole : SoleOwner db)
    (hg : GroupStore.getGroup db g = some data) (ha : data.ownerId = a) (hne : w ≠ a)
    (hw : GroupStore.isMember db g w = true) :
    ¬ SoleOwner (GroupService.setMemberRole db g a w roleOwner).1 := by
  have hv := view_of_getGroup hg
  rw [hok.1.isMember_eq] at hw
  obtain ⟨m, hm⟩ := Option.isSome_iff_exists.mp hw
  obtain ⟨mo, hmo, _⟩ := (hok.2 g _ hv).owner ((hok.2 g _ hv).live hw)
  have hone : a ≠ [] := ha ▸ getMember_ne_nil hmo
  have hmrole : m.role ≠ roleOwner := fun hr => hne ((hsole g data w m hg hm hr).trans ha)
  have hdb : (GroupService.setMemberRole db g a w roleOwner).1 =
      (GroupStore.updateMemberRole db g w roleOwner).1 := by
    simp [GroupService.setMemberRole, GroupService.storeCode, hg, ha, hm, hone, hmrole,
      (hok.1.ids.of_view hv).ne_nil, getMember_ne_nil hm]
  intro hafter
  rw [hdb, soleOwner_iff_view] at hafter
  have hview := congrFun (updateMemberRole_view roleOwner hok.1 hv hm).2 g
  rw [Function.update_self] at hview
  exact hne ((hafter g _ hview w _ (Function.update_self _ _ _) rfl).trans ha)

/-- A request for the role of an owner that is not the owner's, or not for another member, does
nothing. -/
theorem setRole_owner_refused {a : Bytes} (hok : GroupsHealthy db)
    (hc : w ≠ a → (GroupStore.getGroup db g).all (fun data => data.ownerId ≠ a) = true ∨
      GroupStore.isMember db g w = false) :
    (GroupService.setMemberRole db g a w roleOwner).1 = db := by
  unfold GroupService.setMemberRole
  split
  · rfl
  · cases hg : GroupStore.getGroup db g with
    | none => rfl
    | some data =>
      simp only
      split
      · rfl
      · rename_i howner
        have howner := not_not.mp howner
        cases hm : GroupStore.getMember db g w with
        | none => rfl
        | some m =>
          simp only
          split
          · rfl
          · rename_i hmrole
            have hw : GroupStore.isMember db g w = true := by
              rw [hok.1.isMember_eq, hm]
              rfl
            have hv := view_of_getGroup hg
            by_cases hwa : w = a
            · obtain ⟨mo, hmo, hrole⟩ := (hok.2 g _ hv).owner
                ((hok.2 g _ hv).live (w := w) (by simp [Group.isMember, hm]))
              have hsame : some m = some mo := by
                rw [← hm, hwa, ← howner]
                exact hmo
              exact absurd (Option.some.inj hsame ▸ hrole) hmrole
            · rcases hc hwa with hc | hc
              · simp [hg, howner] at hc
              · rw [hw] at hc
                cases hc

/-- One step keeps the owner the only one exactly when it does not make a second. -/
theorem soleOwner_step_iff {op : ChatOp} (hok : GroupsHealthy s.groups)
    (hsole : SoleOwner s.groups) :
    SoleOwner (chatStep s op).groups ↔ KeepsSoleOwner s op := by
  have hplain : op.InScope { roles := (· ≠ roleOwner) } s → SoleOwner (chatStep s op).groups := by
    intro hroles
    rw [soleOwner_iff_view] at hsole ⊢
    exact (chatStep_steps hok.1 op hroles).forall_group (fun _ _ => Change.soleOwner) hsole
  by_cases hop : ∃ g a w, op = .group (.setRole g a w roleOwner)
  · obtain ⟨g, a, w, rfl⟩ := hop
    constructor
    · intro hafter _ hwa
      by_contra hc
      push Not at hc
      obtain ⟨hc, hw⟩ := hc
      cases hg : GroupStore.getGroup s.groups g with
      | none => simp [hg] at hc
      | some data =>
        have ha : data.ownerId = a := by simpa [hg] using hc
        exact not_soleOwner_of_setRole hok hsole hg ha hwa (by simpa using hw) hafter
    · intro hc
      have hsame : (chatStep s (.group (.setRole g a w roleOwner))).groups = s.groups :=
        setRole_owner_refused hok (hc rfl)
      rwa [hsame]
  · refine iff_of_true (hplain ?_) ?_
    · cases op with
      | group o =>
        cases o with
        | setRole g a w role =>
          intro hrole
          exact hop ⟨g, a, w, by rw [hrole]⟩
        | dismiss g a => exact fun _ _ _ => trivial
        | _ => exact trivial
      | _ => exact trivial
    · cases op with
      | group o =>
        cases o with
        | setRole g a w role =>
          intro hrole
          exact absurd ⟨g, a, w, by rw [hrole]⟩ hop
        | _ => trivial
      | _ => trivial

/-- Along every run, the owner is the only one with the role and can remove every other member
exactly when no step has an owner give the role to another member. -/
theorem sole_owner_iff (ops : List ChatOp) :
    Always chatStep (fun s => SoleOwner s.groups ∧ OwnerRemoves s.groups) {} ops ↔
      AllSteps chatStep KeepsSoleOwner {} ops := by
  have hempty : SoleOwner ({} : ChatState).groups := by
    intro g data w m hg
    simp [GroupStore.getGroup] at hg
  have hany : AllSteps chatStep (fun _ _ => True) {} ops := allSteps_of_forall fun _ _ => trivial
  refine always_iff_allSteps (I := fun s => GroupsHealthy s.groups)
    (fun s op hok _ => hok.chatStep) ?_ groupsHealthy_empty
    ⟨hempty, hempty.ownerRemoves groupsHealthy_empty⟩ hany
  intro s op hok _ hp
  rw [← soleOwner_step_iff hok hp.1]
  exact ⟨fun h => h.1, fun h => ⟨h, h.ownerRemoves hok.chatStep⟩⟩

/-- The owner of the group of three makes `b` a second owner, whom nobody can remove. -/
def secondOwner : List ChatOp :=
  [makeGroup, .group (.setRole sampleGroupId (str "a") (str "b") roleOwner)]

theorem secondOwner_not_sole :
    ¬ Always chatStep (fun s => SoleOwner s.groups ∧ OwnerRemoves s.groups) {} secondOwner := by
  intro h
  have hlast := h.last.2 sampleGroupId _ (str "b") rfl rfl (by decide)
  exact absurd hlast (by decide)

end SwiftChat.Chat
