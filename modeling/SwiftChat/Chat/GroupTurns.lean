import SwiftChat.Chat.GroupActions
import SwiftChat.Chat.MemberCount

/-! What a group operation has seen when it writes, and what its write then does. -/
namespace SwiftChat.Chat
open Base
variable {db : GroupDb} {g w : Bytes} {v : GroupValue} {data : GroupData} {m : GroupMemberData}
  {G G' : Group} {t : GroupTask} {done : Option GroupAnswer}

/-- What a call last saw under each key it read or wrote, and its last iteration. -/
structure Seen where
  value : Bytes → Option (Option GroupValue) := fun _ => none
  scan : Option (Bytes × List (Bytes × GroupValue)) := none

namespace Seen

def note (F : Seen) : (Σ o, GroupReply o) → Seen
  | ⟨.get k, v⟩ => { F with value := Function.update F.value k (some v) }
  | ⟨.scan pfx, entries⟩ => { F with scan := some (pfx, entries) }
  | ⟨.write batch, _⟩ =>
    { F with value := batch.foldl (fun f op => Function.update f op.key (some op.value)) F.value }
  | ⟨.deleteConv _ _, _⟩ => F

/-- The call knows the group as dissolved. -/
def Ended (F : Seen) (g : Bytes) : Prop :=
  ∃ data, F.value (keyGroup g) = some (some (.group data)) ∧ data.status = 1

end Seen

/-- What a call writes over is what it last saw there, and nobody joins a dissolved group. -/
structure Timely (g : Bytes) (F : Seen) (batch : GroupBatch) (db : GroupDb) : Prop where
  value : ∀ op ∈ batch, ∀ v ∈ F.value op.key, db.get op.key = v
  scan : ∀ e ∈ F.scan, db.scan e.1 = e.2
  live : ∀ op ∈ batch, prefixGroupMember g <+: op.key → op.value.isSome = true →
    db.get op.key = none → ∀ data ∈ GroupStore.getGroup db g, data.status ≠ 1

instance {g : Bytes} {F : Seen} {batch : GroupBatch} {db : GroupDb} :
    Decidable (Timely g F batch db) :=
  decidable_of_iff (_ ∧ _ ∧ _) ⟨fun h => ⟨h.1, h.2.1, h.2.2⟩, fun h => ⟨h.1, h.2, h.3⟩⟩

/-- The same of the next action of a program; only writes matter. -/
def TimelyNext (g : Bytes) (F : Seen) (db : GroupDb) : GroupProg → Prop
  | .act (.write batch) _ => Timely g F batch db
  | _ => True

instance {g : Bytes} {F : Seen} {db : GroupDb} : DecidablePred (TimelyNext g F db)
  | .ret _ => .isTrue trivial
  | .act (.get _) _ => .isTrue trivial
  | .act (.scan _) _ => .isTrue trivial
  | .act (.deleteConv _ _) _ => .isTrue trivial
  | .act (.write batch) _ => inferInstanceAs (Decidable (Timely g F batch db))

/-- The answer does not end a successful hand-over. -/
def GroupTask.Quiet (t : GroupTask) (done : Option GroupAnswer) : Prop :=
  ∀ old new, t = .transferOwner old new → done ≠ some (.code .ok)

def GroupTask.Dissolves (t : GroupTask) : Prop := ∃ u, t = .deleteConversation u

/-- What one write of a call does to the group; only its last write hands a group over. -/
inductive Turn (t : GroupTask) (done : Option GroupAnswer) : Group → Group → Prop where
  | join {G : Group} {m : GroupMemberData} (hq : t.Quiet done) (ht : ¬ t.Dissolves)
      (hlive : G.data.status ≠ 1) (hfree : G.members m.userId = none) : Turn t done G (G.join m)
  | part {G : Group} {w : Bytes} (hq : t.Quiet done) (ht : ¬ t.Dissolves) (hm : G.isMember w) :
      Turn t done G (G.part w)
  | edit {G : Group} {data : GroupData} (hq : t.Quiet done) (ht : ¬ t.Dissolves)
      (howner : data.ownerId = G.data.ownerId) (hstatus : data.status = G.data.status)
      (hcount : data.memberCount = G.data.memberCount) : Turn t done G { G with data := data }
  | role {G : Group} {w : Bytes} {m : GroupMemberData} (hq : t.Quiet done) (ht : ¬ t.Dissolves)
      (hm : G.isMember w) : Turn t done G (G.setMember m w)
  | hand {G : Group} {old new : Bytes} (ht : t = .transferOwner old new)
      (hdone : done = some (.code .ok)) :
      Turn t done G { G with data := { G.data with ownerId := new } }
  | dissolve {G : Group} (ht : t.Dissolves) (hlive : G.data.status ≠ 1) : Turn t done G G.dissolve

/-- A timely write of the batch is a turn. -/
def GroupTask.MayWrite (t : GroupTask) (g : Bytes) (F : Seen) (batch : GroupBatch)
    (done : Option GroupAnswer) : Prop :=
  ∀ db G, GroupDbOk db → view db g = some G → Timely g F batch db →
    GroupDbOk (db.write batch) ∧ ∃ G', view (db.write batch) g = some G' ∧ Turn t done G G'

def GroupTask.MayDo (t : GroupTask) (g : Bytes) (F : Seen) :
    (o : GroupAct) → (GroupReply o → GroupProg) → Prop
  | .write batch, next => t.MayWrite g F batch (next ()).answer
  | _, next => ∀ r, t.Quiet (next r).answer

/-- A dissolution is reported only of a group that the call knows as dissolved. -/
def MayAnswer (g : Bytes) (F : Seen) (a : GroupAnswer) : Prop :=
  ∀ r, a = .deleted r → r.success = true → F.Ended g

abbrev GroupTask.Keeps (t : GroupTask) (g : Bytes) (p : GroupProg) (F : Seen) : Prop :=
  p.Follows Seen.note (t.MayDo g) (MayAnswer g) F

/-- What is left of the call is in order whatever it has seen. -/
def GroupTask.Safe (t : GroupTask) (g : Bytes) (p : GroupProg) : Prop :=
  t.Quiet p.answer ∧ ∀ F, t.Keeps g p F

/-! The programs make turns. -/

theorem quiet_none : t.Quiet none := by
  intro old new _ h
  cases h

@[simp] theorem Seen.note_get_self {F : Seen} {k : Bytes} {v : Option GroupValue} :
    (F.note ⟨.get k, v⟩).value k = some v := Function.update_self ..

theorem Seen.note_get_ne {F : Seen} {k k' : Bytes} {v : Option GroupValue} (h : k' ≠ k) :
    (F.note ⟨.get k, v⟩).value k' = F.value k' := Function.update_of_ne h ..

/-- A batch tells nothing new about the keys it does not touch. -/
theorem Seen.note_write_other {F : Seen} {batch : GroupBatch} {k : Bytes}
    (h : ∀ op ∈ batch, op.key ≠ k) : (F.note ⟨.write batch, ()⟩).value k = F.value k := by
  simp only [note]
  generalize F.value = f
  induction batch generalizing f with
  | nil => rfl
  | cons op batch ih =>
    rw [List.foldl_cons, ih (fun op hop => h op (List.mem_cons_of_mem _ hop))]
    exact Function.update_of_ne (h op List.mem_cons_self).symm ..

theorem toGroup_eq_some {v : Option GroupValue} :
    GroupValue.toGroup v = some data ↔ v = some (.group data) := by
  cases v with
  | none => simp [GroupValue.toGroup]
  | some v => cases v <;> simp [GroupValue.toGroup]

theorem toMember_eq_some {v : Option GroupValue} :
    GroupValue.toMember v = some m ↔ v = some (.member m) := by
  cases v with
  | none => simp [GroupValue.toMember]
  | some v => cases v <;> simp [GroupValue.toMember]

/-- The record under the key of the group is the one the view shows. -/
theorem data_of_get (hv : view db g = some G) (hget : db.get (keyGroup g) = some (.group data)) :
    data = G.data := by
  have hold := (get_of_getGroup (view_eq_some.mp hv).1).2
  rw [hget] at hold
  cases hold
  rfl

theorem safe_answer {e : ErrorCode} (h : t.Quiet (some (.code e))) :
    t.Safe g (GroupTask.answer e) := by
  refine ⟨h, ?_⟩
  intro F r hr
  cases hr

theorem keeps_get {F : Seen} {k : Bytes} {next : Option GroupValue → GroupProg}
    (h : ∀ v, t.Quiet (next v).answer ∧ t.Keeps g (next v) (F.note ⟨.get k, v⟩)) :
    t.Keeps g (.act (.get k) next) F :=
  ⟨fun v => (h v).1, fun v => (h v).2⟩

theorem safe_get {k : Bytes} {next : Option GroupValue → GroupProg}
    (h : ∀ v, t.Safe g (next v)) : t.Safe g (.act (.get k) next) :=
  ⟨quiet_none, fun _ => keeps_get fun v => ⟨(h v).1, (h v).2 _⟩⟩

theorem safe_getGroup {next : Option GroupData → GroupProg} (h : ∀ o, t.Safe g (next o)) :
    t.Safe g (GroupProg.getGroup g next) := by
  unfold GroupProg.getGroup
  split
  · exact h none
  · exact safe_get fun v => h _

theorem safe_isMember {next : Bool → GroupProg} (h : ∀ b, t.Safe g (next b)) :
    t.Safe g (GroupProg.isMember g w next) := by
  unfold GroupProg.isMember
  split
  · exact h false
  · exact safe_get fun v => h _

theorem safe_getMember {next : Option GroupMemberData → GroupProg} (h : ∀ o, t.Safe g (next o)) :
    t.Safe g (GroupProg.getMember g w next) := by
  unfold GroupProg.getMember
  split
  · exact h none
  · exact safe_get fun v => h _

/-! The writes. -/

section
variable {F : Seen}

theorem mayWrite_group {data' : GroupData} (hF : F.value (keyGroup g) = some (some (.group data)))
    (hturn : ∀ G : Group, G.data = data → Turn t done G { G with data := data' }) :
    t.MayWrite g F [.put (keyGroup g) (.group data')] done := by
  intro db G hok hv htimely
  have hget := htimely.value _ List.mem_cons_self _ hF
  have hdata := data_of_get hv hget
  refine ⟨⟨hok.ids.put_known (view_eq_some.mp hv).1, hok.held.put_group, hok.typed.put_group⟩,
    { G with data := data' }, ?_, hturn G hdata.symm⟩
  exact (congrFun (view_rewrite hok.ids hv) g).trans (Function.update_self ..)

theorem mayWrite_role {role : Int} (hF : F.value (keyGroupMember g w) = some (some (.member m)))
    (hw : w ≠ []) (hq : t.Quiet done) (ht : ¬ t.Dissolves) :
    t.MayWrite g F [.put (keyGroupMember g w) (.member { m with role := role })] done := by
  intro db G hok hv htimely
  have hget := htimely.value _ List.mem_cons_self _ hF
  have hsome : (db.get (keyGroupMember g w)).isSome = true := Option.isSome_iff_exists.mpr ⟨_, hget⟩
  have hm : G.isMember w := by
    have hne := (hok.ids.of_view hv).ne_nil
    rw [Group.isMember, ← getMember_of_view hv]
    simp [GroupStore.getMember, hne, hw, show db.get (keyGroupMember g w) = _ from hget]
  refine ⟨⟨hok.ids.put_present hsome, hok.held.put_present hsome, hok.typed.put_member⟩,
    G.setMember { m with role := role } w, ?_, .role hq ht hm⟩
  exact (congrFun (view_setMember hok.ids hv hw) g).trans (Function.update_self ..)

theorem mayWrite_add (hw : m.userId ≠ []) (hm : F.value (keyGroupMember g m.userId) = some none)
    (hF : F.value (keyGroup g) = some (some (.group data))) (hq : t.Quiet done)
    (ht : ¬ t.Dissolves) : t.MayWrite g F (addBatch g m data) done := by
  intro db G hok hv htimely
  have hne := (hok.ids.of_view hv).ne_nil
  have hfree : db.get (keyGroupMember g m.userId) = none :=
    htimely.value (.put (keyGroupMember g m.userId) (.member m)) (by simp [addBatch]) _ hm
  have hget : db.get (keyGroup g) = some (.group data) :=
    htimely.value (.put (keyGroup g) _) (List.mem_cons_of_mem _ (List.mem_cons_of_mem _
      List.mem_cons_self)) _ hF
  obtain rfl := data_of_get hv hget
  have hcall : db.write (addBatch g m G.data) = (GroupStore.addMember db g m).1 := by
    simp [GroupStore.addMember, hne, hw, hfree, (view_eq_some.mp hv).1, addBatch]
  have hlive : G.data.status ≠ 1 :=
    htimely.live (.put (keyGroupMember g m.userId) (.member m)) (by simp [addBatch])
      (List.prefix_append _ _) rfl hfree _ (view_eq_some.mp hv).1
  refine ⟨?_, G.join m, ?_, .join hq ht hlive ?_⟩
  · rw [hcall]
    exact hok.call .addMember
  · exact (congrFun (view_add hok.ids hv hw) g).trans (Function.update_self ..)
  · rw [← getMember_of_view hv]
    exact (hok.getMember_eq_none hne hw).mpr hfree

theorem mayWrite_remove (hw : w ≠ []) (hm : F.value (keyGroupMember g w) = some (some v))
    (hF : F.value (keyGroup g) = some (some (.group data))) (hq : t.Quiet done)
    (ht : ¬ t.Dissolves) : t.MayWrite g F (removeBatch g w data) done := by
  intro db G hok hv htimely
  have hne := (hok.ids.of_view hv).ne_nil
  have hin : db.get (keyGroupMember g w) = some v :=
    htimely.value (.delete (keyGroupMember g w)) List.mem_cons_self _ hm
  have hget : db.get (keyGroup g) = some (.group data) :=
    htimely.value (.put (keyGroup g) _) (List.mem_cons_of_mem _ (List.mem_cons_of_mem _
      List.mem_cons_self)) _ hF
  obtain rfl := data_of_get hv hget
  have hcall : db.write (removeBatch g w G.data) = (GroupStore.removeMember db g w).1 := by
    simp [GroupStore.removeMember, hne, hw, hin, (view_eq_some.mp hv).1, removeBatch]
  refine ⟨?_, G.part w, ?_, .part hq ht ?_⟩
  · rw [hcall]
    exact hok.call .removeMember
  · exact (congrFun (view_remove hok.ids hv) g).trans (Function.update_self ..)
  · obtain ⟨m, rfl⟩ := hok.typed.member g w v hin
    rw [Group.isMember, ← getMember_of_view hv]
    simp [GroupStore.getMember, hne, hw, hin]

theorem mayWrite_dissolve {entries : List (Bytes × GroupValue)}
    (hF : F.value (keyGroup g) = some (some (.group data))) (hlive : data.status ≠ 1)
    (hscan : F.scan = some (prefixGroupMember g, entries)) (ht : t.Dissolves) :
    t.MayWrite g F (dissolveBatch g (idsOf (prefixGroupMember g) entries) data) done := by
  intro db G hok hv htimely
  have hget : db.get (keyGroup g) = some (.group data) :=
    htimely.value (.put (keyGroup g) _) List.mem_cons_self _ hF
  obtain rfl := data_of_get hv hget
  obtain rfl : db.scan (prefixGroupMember g) = entries := htimely.scan _ hscan
  have hcall : db.write (dissolveBatch g
      (idsOf (prefixGroupMember g) (db.scan (prefixGroupMember g))) G.data) =
      (GroupStore.dissolveGroup db g).1 := by
    simp only [GroupStore.dissolveGroup, (view_eq_some.mp hv).1, hlive, if_false]
    rfl
  rw [hcall]
  refine ⟨hok.call .dissolveGroup, G.dissolve, ?_, .dissolve ht hlive⟩
  rw [dissolveGroup_view hok hv hlive, Function.update_self]

end

/-! The operations of the store. -/

theorem safe_write {F : Seen} {batch : GroupBatch} {next : GroupReply (.write batch) → GroupProg}
    (hwrite : t.MayWrite g F batch (next ()).answer) (h : t.Safe g (next ())) :
    t.Keeps g (.act (.write batch) next) F :=
  ⟨hwrite, fun _ => h.2 _⟩

/-- A read of the group whose continuation may use what was read. -/
theorem keeps_getGroup {F : Seen} {next : Option GroupData → GroupProg}
    (hnone : t.Safe g (next none))
    (hsome : ∀ data, t.Quiet (next (some data)).answer ∧
      t.Keeps g (next (some data)) (F.note ⟨.get (keyGroup g), some (.group data)⟩)) :
    t.Keeps g (GroupProg.getGroup g next) F := by
  unfold GroupProg.getGroup
  split
  · exact hnone.2 F
  · refine keeps_get fun v => ?_
    cases hv : GroupValue.toGroup v with
    | none => exact ⟨hnone.1, hnone.2 _⟩
    | some data =>
      rw [toGroup_eq_some] at hv
      subst hv
      exact hsome data

theorem quiet_getGroup {next : Option GroupData → GroupProg} (h : t.Quiet (next none).answer) :
    t.Quiet (GroupProg.getGroup g next).answer := by
  unfold GroupProg.getGroup
  split
  · exact h
  · exact quiet_none

theorem safe_updateGroup {name avatar text : Bytes} {now : Int} {next : Bool → GroupProg}
    (ht : ¬ t.Dissolves) (h : ∀ b, t.Safe g (next b)) :
    t.Safe g (GroupProg.updateGroup g name avatar text now next) := by
  refine ⟨quiet_getGroup (h false).1, fun F => keeps_getGroup (h false) fun data => ?_⟩
  refine ⟨quiet_none, safe_write (mayWrite_group Seen.note_get_self ?_) (h true)⟩
  rintro G rfl
  exact .edit (h true).1 ht rfl rfl rfl

theorem safe_addMember {next : Bool → GroupProg} (ht : ¬ t.Dissolves)
    (h : ∀ b, t.Safe g (next b)) : t.Safe g (GroupProg.addMember g m next) := by
  unfold GroupProg.addMember
  split
  · exact h false
  · rename_i hne
    push Not at hne
    refine ⟨quiet_none, fun F => keeps_get fun v => ?_⟩
    split
    · exact ⟨(h false).1, (h false).2 _⟩
    · rename_i hv
      obtain rfl : v = none := by simpa [GroupValue.found] using hv
      refine ⟨quiet_getGroup (h false).1, keeps_getGroup (h false) fun data => ⟨quiet_none, ?_⟩⟩
      refine safe_write (mayWrite_add hne.2 ?_ Seen.note_get_self (h true).1 ht) (h true)
      rw [Seen.note_get_ne keyGroup_ne_keyGroupMember.symm, Seen.note_get_self]

theorem safe_removeMember {next : Bool → GroupProg} (ht : ¬ t.Dissolves)
    (h : ∀ b, t.Safe g (next b)) : t.Safe g (GroupProg.removeMember g w next) := by
  unfold GroupProg.removeMember
  split
  · exact h false
  · rename_i hne
    push Not at hne
    refine ⟨quiet_none, fun F => keeps_get fun v => ?_⟩
    split
    · exact ⟨(h false).1, (h false).2 _⟩
    · rename_i hv
      obtain ⟨v, rfl⟩ : ∃ v', v = some v' := by
        simpa [GroupValue.found, Option.isSome_iff_exists] using hv
      refine ⟨quiet_getGroup (h false).1, keeps_getGroup (h false) fun data => ⟨quiet_none, ?_⟩⟩
      refine safe_write (mayWrite_remove (v := v) hne.2 ?_ Seen.note_get_self (h true).1 ht) (h true)
      rw [Seen.note_get_ne keyGroup_ne_keyGroupMember.symm, Seen.note_get_self]

theorem safe_updateMemberRole {role : Int} {next : Bool → GroupProg} (ht : ¬ t.Dissolves)
    (h : ∀ b, t.Safe g (next b)) : t.Safe g (GroupProg.updateMemberRole g w role next) := by
  unfold GroupProg.updateMemberRole GroupProg.getMember
  split
  · exact h false
  · rename_i hne
    push Not at hne
    refine ⟨quiet_none, fun F => keeps_get fun v => ?_⟩
    cases hv : GroupValue.toMember v with
    | none => exact ⟨(h false).1, (h false).2 _⟩
    | some m =>
      rw [toMember_eq_some] at hv
      subst hv
      exact ⟨quiet_none,
        safe_write (mayWrite_role Seen.note_get_self hne.2 (h true).1 ht) (h true)⟩

theorem safe_inviteLoop {now : Int} {ids : List Bytes} {next : GroupProg} (ht : ¬ t.Dissolves)
    (h : t.Safe g next) : t.Safe g (GroupProg.inviteLoop g now ids next) := by
  induction ids with
  | nil => exact h
  | cons uid ids ih =>
    unfold GroupProg.inviteLoop
    split
    · exact ih
    · refine safe_isMember fun found => ?_
      split
      · exact ih
      · exact safe_addMember ht fun _ => ih

/-- The last write of a transfer. -/
theorem safe_updateGroupOwner {old new : Bytes} :
    (GroupTask.transferOwner old new).Safe g
      (GroupProg.updateGroupOwner g new GroupTask.storeAnswer) := by
  have hfail : (GroupTask.transferOwner old new).Safe g (GroupTask.storeAnswer false) := by
    apply safe_answer
    intro _ _ _ h
    cases h
  unfold GroupProg.updateGroupOwner
  split
  · exact hfail
  · refine ⟨quiet_getGroup hfail.1, fun F => keeps_getGroup hfail fun data => ⟨quiet_none, ?_⟩⟩
    refine ⟨mayWrite_group Seen.note_get_self ?_, fun _ _ hr => by cases hr⟩
    rintro G rfl
    exact .hand rfl rfl

theorem note_dropMembers {F : Seen} {ids : List Bytes} :
    (F.note ⟨.write (GroupStore.dropMembers g ids), ()⟩).value (keyGroup g) =
      F.value (keyGroup g) := by
  apply Seen.note_write_other
  intro op hop
  obtain ⟨uid, _, hop⟩ := List.mem_flatMap.mp hop
  rcases List.mem_cons.mp hop with rfl | hop
  · exact keyGroup_ne_keyGroupMember.symm
  · rw [List.mem_singleton.mp hop]
    exact keyGroup_ne_keyUserGroup.symm

/-- What follows the deletion of conversation entries is decided before them. -/
theorem keeps_deleteConvs {F : Seen} {members : List GroupMemberData} {next : GroupProg}
    (hq : t.Quiet next.answer) (h : t.Keeps g next F) :
    t.Keeps g (GroupProg.deleteConvs g members next) F := by
  induction members with
  | nil => exact h
  | cons m members ih =>
    refine ⟨fun _ => ?_, fun _ => ih⟩
    cases members with
    | nil => exact hq
    | cons _ _ => exact quiet_none

/-- After `DissolveGroup` the call knows the group as dissolved. -/
theorem keeps_dissolveGroup {F : Seen} {next : Bool → GroupProg} (ht : t.Dissolves)
    (hfail : t.Safe g (next false)) (hq : t.Quiet (next true).answer)
    (h : ∀ F : Seen, F.Ended g → t.Keeps g (next true) F) :
    t.Keeps g (GroupProg.dissolveGroup g next) F := by
  refine keeps_getGroup hfail fun data => ?_
  by_cases hstatus : data.status = 1
  · simp only [hstatus, if_true]
    exact ⟨hq, h _ ⟨data, Seen.note_get_self, hstatus⟩⟩
  · simp only [hstatus, if_false]
    refine ⟨quiet_none, fun _ => quiet_none, fun entries => ?_⟩
    refine ⟨mayWrite_dissolve Seen.note_get_self hstatus rfl ht, fun _ => h _ ?_⟩
    exact ⟨{ data with status := 1, memberCount := 0 },
      (note_dropMembers (F := { F with value := _ })).trans (Function.update_self ..), rfl⟩

/-! The group operations. -/

theorem quiet_error {e : ErrorCode} (h : e ≠ .ok) : t.Quiet (some (.code e)) := by
  intro _ _ _ he
  exact h (GroupAnswer.code.inj (Option.some.inj he))

theorem safe_deleteFailed {r : ChatService.DeleteConversationResult} (h : r.success = false) :
    t.Safe g (.ret (.deleted r)) := by
  refine ⟨?_, ?_⟩
  · intro _ _ _ he
    cases he
  · intro F r' he hs
    cases he
    rw [h] at hs
    cases hs

theorem keeps_deleted {F : Seen} {r : ChatService.DeleteConversationResult} (h : F.Ended g) :
    t.Keeps g (.ret (.deleted r)) F := fun _ _ _ => h

theorem keeps_deleteProg {u : Bytes} (F : Seen) :
    (GroupTask.deleteConversation u).Keeps g (GroupTask.deleteProg g u) F := by
  have hq : ∀ a, (GroupTask.deleteConversation u).Quiet a := by
    intro a old new he
    cases he
  unfold GroupTask.deleteProg
  split
  · exact (safe_deleteFailed rfl).2 F
  refine keeps_getGroup (safe_deleteFailed rfl) fun data => ⟨hq _, ?_⟩
  simp only
  split
  · exact (safe_deleteFailed rfl).2 _
  split
  · rename_i hstatus
    exact keeps_deleted ⟨data, Seen.note_get_self, hstatus⟩
  · refine ⟨fun _ => hq _, fun entries => ?_⟩
    refine keeps_dissolveGroup ⟨u, rfl⟩ (safe_deleteFailed rfl) (hq _) fun F' hF => ?_
    exact keeps_deleteConvs (hq _) (keeps_deleted hF)

theorem safe_transferProg {old new : Bytes} :
    (GroupTask.transferOwner old new).Safe g (GroupTask.transferProg g old new) := by
  have ht : ¬ (GroupTask.transferOwner old new).Dissolves := by
    rintro ⟨_, he⟩
    cases he
  have hfail : ∀ e, e ≠ ErrorCode.ok →
      (GroupTask.transferOwner old new).Safe g (GroupTask.answer e) :=
    fun e he => safe_answer (quiet_error he)
  unfold GroupTask.transferProg
  split
  · exact hfail _ (by decide)
  refine safe_getGroup fun o => ?_
  cases o with
  | none => exact hfail _ (by decide)
  | some data =>
    simp only
    split
    · exact hfail _ (by decide)
    refine safe_isMember fun found => ?_
    split
    · exact hfail _ (by decide)
    refine safe_updateMemberRole ht fun demoted => ?_
    split
    · exact hfail _ (by decide)
    refine safe_updateMemberRole ht fun promoted => ?_
    split
    · exact hfail _ (by decide)
    · exact safe_updateGroupOwner

theorem safe_inviteProg {inviterId : Bytes} {memberIds : List Bytes} {now : Int}
    (ht : ¬ t.Dissolves) (hfail : ∀ e, t.Safe g (GroupTask.answer e)) :
    t.Safe g (GroupTask.inviteProg g inviterId memberIds now) := by
  simp only [GroupTask.inviteProg]
  split
  · exact hfail _
  refine safe_getGroup fun o => ?_
  cases o with
  | none => exact hfail _
  | some data =>
    refine safe_isMember fun found => ?_
    split
    · exact hfail _
    · exact safe_inviteLoop ht (hfail _)

theorem safe_removeProg {operatorId memberId : Bytes} (ht : ¬ t.Dissolves)
    (hfail : ∀ e, t.Safe g (GroupTask.answer e)) :
    t.Safe g (GroupTask.removeProg g operatorId memberId) := by
  simp only [GroupTask.removeProg]
  split
  · exact hfail _
  refine safe_getGroup fun o => ?_
  cases o with
  | none => exact hfail _
  | some data =>
    refine safe_isMember fun found => ?_
    split
    · exact hfail _
    refine safe_getMember fun o => ?_
    cases o with
    | none => exact hfail _
    | some op =>
      refine safe_getMember fun o => ?_
      cases o with
      | none => exact hfail _
      | some target =>
        simp only
        split
        · exact hfail _
        split
        · exact hfail _
        split
        · exact hfail _
        · exact safe_removeMember ht fun _ => hfail _

theorem safe_leaveProg {userId : Bytes} (ht : ¬ t.Dissolves)
    (hfail : ∀ e, t.Safe g (GroupTask.answer e)) : t.Safe g (GroupTask.leaveProg g userId) := by
  simp only [GroupTask.leaveProg]
  split
  · exact hfail _
  refine safe_getGroup fun o => ?_
  cases o with
  | none => exact hfail _
  | some data =>
    simp only
    split
    · exact hfail _
    refine safe_isMember fun found => ?_
    split
    · exact hfail _
    · exact safe_removeMember ht fun _ => hfail _

theorem safe_updateProg {operatorId groupName avatarUrl announcement : Bytes} {now : Int}
    (ht : ¬ t.Dissolves) (hfail : ∀ e, t.Safe g (GroupTask.answer e)) :
    t.Safe g (GroupTask.updateProg g operatorId groupName avatarUrl announcement now) := by
  simp only [GroupTask.updateProg]
  split
  · exact hfail _
  refine safe_getGroup fun o => ?_
  cases o with
  | none => exact hfail _
  | some data =>
    simp only
    split
    · refine safe_getMember fun o => ?_
      split
      · exact hfail _
      · exact safe_updateGroup ht fun _ => hfail _
    · exact safe_updateGroup ht fun _ => hfail _

/-- The operations that neither hand a group over nor dissolve it. -/
theorem safe_prog (ht : ¬ t.Dissolves) (hq : ∀ old new, t ≠ .transferOwner old new) :
    t.Safe g (t.prog g) := by
  have hfail : ∀ e, t.Safe g (GroupTask.answer e) :=
    fun e => safe_answer fun old new he => absurd he (hq old new)
  cases t with
  | inviteMembers inviterId memberIds now => exact safe_inviteProg ht hfail
  | removeMember operatorId memberId => exact safe_removeProg ht hfail
  | leaveGroup userId => exact safe_leaveProg ht hfail
  | updateGroup operatorId groupName avatarUrl announcement now => exact safe_updateProg ht hfail
  | transferOwner old new => exact absurd rfl (hq old new)
  | deleteConversation u => exact absurd ⟨u, rfl⟩ ht

/-- Every operation keeps to its rule from the start. -/
theorem keeps_prog (t : GroupTask) (g : Bytes) : t.Keeps g (t.prog g) {} := by
  by_cases ht : t.Dissolves
  · obtain ⟨u, rfl⟩ := ht
    exact keeps_deleteProg {}
  · by_cases hq : ∃ old new, t = .transferOwner old new
    · obtain ⟨old, new, rfl⟩ := hq
      exact safe_transferProg.2 {}
    · push Not at hq
      exact (safe_prog ht hq).2 {}

end SwiftChat.Chat
