import SwiftChat.Chat.GroupTurns

/-! Group operations that take turns on one group, and the updates they can lose. -/
namespace SwiftChat.Chat
open Base
variable {db : GroupDb} {g : Bytes} {data : GroupData} {G G' G₀ : Group} {t : GroupTask}
  {done : Option GroupAnswer} {ι : Type} [DecidableEq ι] {tasks : ι → GroupTask} {i : ι}

abbrev GroupRun (ι : Type) := Config GroupAct GroupReply ChatState GroupAnswer ι

/-- Operations on one group, none of which has begun. -/
def beginTasks (tasks : ι → GroupTask) (g : Bytes) (s : ChatState) : GroupRun ι where
  state := s
  calls i := (tasks i).prog g

def seenBy (c : GroupRun ι) (i : ι) : Seen := Config.noted Seen.note {} i c.log

/-- When the call writes next, what it read is still there and nobody joins a dissolved group. -/
def Careful (g : Bytes) (c : GroupRun ι) (i : ι) : Prop :=
  TimelyNext g (seenBy c i) c.state.groups (c.calls i)

instance {g : Bytes} (c : GroupRun ι) (i : ι) : Decidable (Careful g c i) :=
  inferInstanceAs (Decidable (TimelyNext g (seenBy c i) c.state.groups (c.calls i)))

/-- The call writes next, and it is a dissolution. -/
def DissolvesNext (tasks : ι → GroupTask) (c : GroupRun ι) (i : ι) : Prop :=
  (tasks i).Dissolves ∧ ∃ batch next, c.calls i = .act (.write batch) next

/-- The owner that a successful transfer leaves. -/
def GroupTask.newOwner (t : GroupTask) (a : GroupAnswer) : Option Bytes :=
  match t, a with
  | .transferOwner _ new, .code .ok => some new
  | _, _ => none

/-- The new owner of the last successful transfer. -/
def lastOwner (tasks : ι → GroupTask) (c : GroupRun ι) (first : Bytes) : Bytes :=
  (c.answers fun i => (tasks i).newOwner).head?.getD first

/-- Every transfer and every dissolution that was reported as done is still in place. -/
structure UpdatesKept (tasks : ι → GroupTask) (g : Bytes) (before : GroupDb) (c : GroupRun ι) :
    Prop where
  owner : ∀ data ∈ GroupStore.getGroup before g, ∃ data' ∈ GroupStore.getGroup c.state.groups g,
    data'.ownerId = lastOwner tasks c data.ownerId
  dissolved : ∀ i r, c.answer i = some (.deleted r) → r.success = true →
    (∃ data ∈ GroupStore.getGroup c.state.groups g, data.status = 1) ∧
      ∀ w, GroupStore.isMember c.state.groups g w = false

/-- The count has changed by as much as the number of member records. -/
def CountKept (g : Bytes) (before after : GroupDb) : Prop :=
  ∀ data ∈ GroupStore.getGroup before g, ∀ data' ∈ GroupStore.getGroup after g, ∀ page pageSize,
    data'.memberCount - data.memberCount =
      (GroupStore.getMembers after g page pageSize).2 -
        (GroupStore.getMembers before g page pageSize).2

/-! What a turn keeps. -/

structure Group.Tidy (G : Group) : Prop where
  counted : G.Counted
  ended : G.data.status ≠ 0 → ∀ w, G.members w = none

theorem Group.Tidy.live (h : G.Tidy) (hstatus : G.data.status ≠ 1) : G.data.status = 0 := by
  by_contra hne
  exact hstatus (h.counted.ended hne).1

theorem Group.Tidy.live_of_member {w : Bytes} (h : G.Tidy) (hm : G.isMember w) :
    G.data.status = 0 := by
  by_contra hne
  rw [Group.isMember, h.ended hne w] at hm
  cases hm

theorem Turn.tidy (h : Turn t done G G') (hG : G.Tidy) : G'.Tidy := by
  cases h with
  | join _ _ hlive hfree =>
    have hzero := hG.live hlive
    exact ⟨hG.counted.join hzero hfree, fun hne => absurd hzero hne⟩
  | part _ _ hm =>
    have hzero := hG.live_of_member hm
    exact ⟨hG.counted.part hzero hm, fun hne => absurd hzero hne⟩
  | edit _ _ _ hstatus hcount =>
    refine ⟨hG.counted.rewrite hstatus hcount, fun hne => hG.ended ?_⟩
    rwa [← hstatus]
  | role _ _ hm =>
    exact ⟨hG.counted.setMember hm, fun hne => absurd (hG.live_of_member hm) hne⟩
  | hand => exact ⟨hG.counted.rewrite rfl rfl, hG.ended⟩
  | dissolve => exact ⟨Group.Counted.dissolve, fun _ _ => rfl⟩

theorem Turn.ended (h : Turn t done G G') (hG : G.data.status = 1) : G'.data.status = 1 := by
  cases h with
  | edit _ _ _ hstatus _ => rwa [← hstatus] at hG
  | dissolve => rfl
  | _ => exact hG

theorem newOwner_of_quiet (h : t.Quiet done) : done.bind t.newOwner = none := by
  cases done with
  | none => rfl
  | some a =>
    cases t with
    | transferOwner old new =>
      cases a with
      | code e =>
        have hne : e ≠ .ok := fun he => h old new rfl (by rw [he])
        cases e <;> first | rfl | exact absurd rfl hne
      | deleted r => rfl
    | _ => rfl

theorem Turn.owner (h : Turn t done G G') :
    G'.data.ownerId = (done.bind t.newOwner).getD G.data.ownerId := by
  cases h with
  | join hq => rw [newOwner_of_quiet hq]; rfl
  | part hq => rw [newOwner_of_quiet hq]; rfl
  | edit hq _ howner => rw [newOwner_of_quiet hq]; exact howner
  | role hq => rw [newOwner_of_quiet hq]; rfl
  | hand ht hdone => rw [ht, hdone]; rfl
  | dissolve ht =>
    obtain ⟨u, rfl⟩ := ht
    rw [newOwner_of_quiet]
    · rfl
    · intro _ _ he
      cases he

/-- Only a dissolution parts the count from the members: it counts from zero again. -/
theorem Turn.count_iff {n k : Int} (h : Turn t done G G') (hG : G.Tidy)
    (hsame : G.data.memberCount - n = G.size - k) :
    G'.data.memberCount - n = G'.size - k ↔ ¬ t.Dissolves := by
  cases h with
  | @join m _ ht hlive hfree =>
    have hsize := Group.size_join (m := m) hG.counted.finite hfree
    have hcount : (G.join m).data.memberCount = G.data.memberCount + 1 := rfl
    refine iff_of_true ?_ ht
    omega
  | @part w _ ht hm =>
    have hsize := Group.size_part hG.counted.finite hm
    have hcount : (G.part w).data.memberCount = max 0 (G.data.memberCount - 1) := rfl
    have hmany := hG.counted.live (hG.live_of_member hm)
    refine iff_of_true ?_ ht
    omega
  | edit _ ht _ _ hcount =>
    refine iff_of_true ?_ ht
    rw [hcount]
    exact hsame
  | role _ ht hm =>
    refine iff_of_true ?_ ht
    rw [Group.size_setMember hm]
    exact hsame
  | hand ht =>
    refine iff_of_true hsame ?_
    rintro ⟨u, hu⟩
    rw [ht] at hu
    cases hu
  | dissolve ht hlive =>
    have hmany := hG.counted.live (hG.live hlive)
    have hzero : G.dissolve.size = 0 := Group.size_eq_zero fun _ => rfl
    have hcount : G.dissolve.data.memberCount = 0 := rfl
    refine iff_of_false ?_ (not_not_intro ht)
    omega

/-! Along a schedule. -/

/-- What holds between the turns; `first` is the owner before the first of them. -/
structure Steady (tasks : ι → GroupTask) (g first : Bytes) (c : GroupRun ι) : Prop where
  db : GroupDbOk c.state.groups
  keeps : ∀ i, (tasks i).Keeps g (c.calls i) (seenBy c i)
  finished : c.FinishedOk
  group : ∃ G, view c.state.groups g = some G ∧ G.Tidy ∧
    G.data.ownerId = lastOwner tasks c first ∧ ∀ i, (seenBy c i).Ended g → G.data.status = 1

/-- A batch leaves a key alone, or the call knows what is there now. -/
theorem Seen.note_write (F : Seen) (db : GroupDb) (batch : GroupBatch) (k : Bytes) :
    ((F.note ⟨.write batch, ()⟩).value k = F.value k ∧ (db.write batch).get k = db.get k) ∨
      (F.note ⟨.write batch, ()⟩).value k = some ((db.write batch).get k) := by
  simp only [note]
  generalize F.value = f
  induction batch generalizing f db with
  | nil => exact Or.inl ⟨rfl, rfl⟩
  | cons op batch ih =>
    rw [List.foldl_cons, OrderedMap.write_cons]
    rcases ih (db.apply op) (Function.update f op.key (some op.value)) with ⟨hf, hdb⟩ | h
    · have hop : (Function.update f op.key (some op.value)) k = f k ∧ (db.apply op).get k = db.get k ∨
          (Function.update f op.key (some op.value)) k = some ((db.apply op).get k) := by
        by_cases hk : k = op.key
        · subst hk
          refine Or.inr ?_
          rw [Function.update_self]
          cases op with
          | put k v => simp [OrderedMap.BatchOp.value, OrderedMap.BatchOp.key]
          | delete k => simp [OrderedMap.BatchOp.value, OrderedMap.BatchOp.key]
        · refine Or.inl ⟨Function.update_of_ne hk .., ?_⟩
          cases op with
          | put k' v => exact OrderedMap.get_put_ne hk
          | delete k' => exact OrderedMap.get_delete_ne hk
      rw [hf, hdb]
      exact hop
    · exact Or.inr h

section
variable {c : GroupRun ι} {first : Bytes} {o : GroupAct} {next : GroupReply o → GroupProg}

theorem lastOwner_perform (h : c.FinishedOk) (hcall : c.calls i = .act o next) :
    lastOwner tasks (c.perform groupExec i o next) first =
      ((next (groupExec o c.state).2).answer.bind (tasks i).newOwner).getD
        (lastOwner tasks c first) := by
  unfold lastOwner
  rw [Config.answers_perform h hcall]
  cases (next (groupExec o c.state).2).answer.bind (tasks i).newOwner with
  | none => rfl
  | some b => rfl

/-- A turn of a call that writes. -/
theorem Steady.write {batch : GroupBatch} {next : GroupReply (.write batch) → GroupProg}
    (h : Steady tasks g first c) (hcall : c.calls i = .act (.write batch) next)
    (hcareful : Careful g c i) (hv : view c.state.groups g = some G) :
    ∃ G', view (c.state.groups.write batch) g = some G' ∧
      Turn (tasks i) (next ()).answer G G' ∧
      Steady tasks g first (c.perform groupExec i (.write batch) next) := by
  obtain ⟨G₁, hv₁, htidy, howner, hended⟩ := h.group
  obtain rfl : G₁ = G := Option.some.inj (hv₁.symm.trans hv)
  have hmay := h.keeps i
  rw [hcall] at hmay
  have htimely : Timely g (seenBy c i) batch c.state.groups := by
    unfold Careful at hcareful
    rw [hcall] at hcareful
    exact hcareful
  obtain ⟨hdb, G', hG', hturn⟩ := hmay.1 _ _ h.db hv htimely
  refine ⟨G', hG', hturn, hdb, Config.follows_perform h.keeps hcall, h.finished.perform hcall,
    G', hG', hturn.tidy htidy, ?_, ?_⟩
  · rw [lastOwner_perform h.finished hcall, hturn.owner, howner]
    rfl
  · intro j hj
    by_cases hji : j = i
    · subst hji
      obtain ⟨data, hvalue, hstatus⟩ := hj
      rw [seenBy, Config.noted_perform_self] at hvalue
      rcases Seen.note_write (seenBy c j) c.state.groups batch (keyGroup g)
        with ⟨hsame, _⟩ | hnew
      · exact hturn.ended (hended j ⟨data, hsame.symm.trans hvalue, hstatus⟩)
      · have hget := Option.some.inj (hnew.symm.trans hvalue)
        rw [← data_of_get hG' hget]
        exact hstatus
    · rw [seenBy, Config.noted_perform_ne hji] at hj
      exact hturn.ended (hended j hj)

/-- A turn of a call that does not write. -/
theorem Steady.read (h : Steady tasks g first c) (hcall : c.calls i = .act o next)
    (hsame : (groupExec o c.state).1.groups = c.state.groups)
    (hquiet : (tasks i).Quiet (next (groupExec o c.state).2).answer)
    (hseen : ((seenBy c i).note ⟨o, (groupExec o c.state).2⟩).Ended g →
      (seenBy c i).Ended g ∨ ∃ data, c.state.groups.get (keyGroup g) = some (.group data) ∧
        data.status = 1) :
    Steady tasks g first (c.perform groupExec i o next) := by
  obtain ⟨G, hv, htidy, howner, hended⟩ := h.group
  refine ⟨?_, Config.follows_perform h.keeps hcall, h.finished.perform hcall, G, ?_, htidy, ?_, ?_⟩
  · rw [Config.perform_state, hsame]
    exact h.db
  · rw [Config.perform_state, hsame]
    exact hv
  · rw [lastOwner_perform h.finished hcall, newOwner_of_quiet hquiet]
    exact howner
  · intro j hj
    by_cases hji : j = i
    · subst hji
      rw [seenBy, Config.noted_perform_self] at hj
      rcases hseen hj with hold | ⟨data, hget, hstatus⟩
      · exact hended j hold
      · rw [← data_of_get hv hget]
        exact hstatus
    · rw [seenBy, Config.noted_perform_ne hji] at hj
      exact hended j hj

theorem Steady.perform (h : Steady tasks g first c) (hcall : c.calls i = .act o next)
    (hcareful : Careful g c i) : Steady tasks g first (c.perform groupExec i o next) := by
  have hmay := h.keeps i
  rw [hcall] at hmay
  cases o with
  | write batch =>
    obtain ⟨G, hv, _⟩ := h.group
    obtain ⟨_, _, _, hsteady⟩ := h.write hcall hcareful hv
    exact hsteady
  | get k =>
    refine h.read hcall rfl (hmay.1 _) ?_
    rintro ⟨data, hvalue, hstatus⟩
    by_cases hk : keyGroup g = k
    · subst hk
      exact Or.inr ⟨data, Option.some.inj (Seen.note_get_self.symm.trans hvalue), hstatus⟩
    · exact Or.inl ⟨data, (Seen.note_get_ne hk).symm.trans hvalue, hstatus⟩
  | scan pfx => exact h.read hcall rfl (hmay.1 _) Or.inl
  | deleteConv userId chatId => exact h.read hcall rfl (hmay.1 _) Or.inl

theorem Steady.updatesKept {before : GroupDb} (h : Steady tasks g first c)
    (hfirst : ∀ data ∈ GroupStore.getGroup before g, data.ownerId = first) :
    UpdatesKept tasks g before c := by
  obtain ⟨G, hv, htidy, howner, hended⟩ := h.group
  have hget := (view_eq_some.mp hv).1
  constructor
  · intro data hdata
    rw [hfirst data hdata]
    exact ⟨G.data, hget, howner⟩
  · intro i r hr hsuccess
    have hkeeps := h.keeps i
    cases hcall : c.calls i with
    | act o next =>
      rw [Config.answer, hcall] at hr
      cases hr
    | ret a =>
      rw [Config.answer, hcall] at hr
      rw [hcall] at hkeeps
      have hstatus := hended i (hkeeps r (Option.some.inj hr) hsuccess)
      refine ⟨⟨G.data, hget, hstatus⟩, ?_⟩
      intro w
      rw [h.db.isMember_eq, getMember_of_view hv, htidy.ended (by omega) w]
      rfl

/-- The count in terms of the views. -/
theorem countKept_iff {before after : GroupDb} (hbefore : GroupDbOk before)
    (hafter : GroupDbOk after) (hv₀ : view before g = some G₀) (hv : view after g = some G) :
    CountKept g before after ↔
      G.data.memberCount - G₀.data.memberCount = (G.size : Int) - G₀.size := by
  constructor
  · intro h
    have := h _ (view_eq_some.mp hv₀).1 _ (view_eq_some.mp hv).1 0 0
    rwa [total_getMembers 0 0 hafter hv, total_getMembers 0 0 hbefore hv₀] at this
  · intro h data hdata data' hdata' page pageSize
    rw [total_getMembers page pageSize hafter hv, total_getMembers page pageSize hbefore hv₀]
    obtain rfl := Option.some.inj ((view_eq_some.mp hv₀).1.symm.trans hdata)
    obtain rfl := Option.some.inj ((view_eq_some.mp hv).1.symm.trans hdata')
    exact h

/-- A turn keeps the count exactly when it is not the write of a dissolution. -/
theorem countKept_step_iff {before : GroupDb} (hbefore : GroupDbOk before)
    (hv₀ : view before g = some G₀) (h : Steady tasks g first c) (hcareful : Careful g c i)
    (hkept : CountKept g before c.state.groups) :
    CountKept g before (c.tick groupExec i).state.groups ↔ ¬ DissolvesNext tasks c i := by
  cases hcall : c.calls i with
  | ret a =>
    have hsame : c.tick groupExec i = c := by
      unfold Config.tick
      rw [hcall]
    rw [hsame]
    refine iff_of_true hkept ?_
    rintro ⟨_, batch, next, hwrite⟩
    rw [hcall] at hwrite
    cases hwrite
  | act o next =>
    have hstep : c.tick groupExec i = c.perform groupExec i o next := by
      unfold Config.tick
      rw [hcall]
    rw [hstep]
    cases o with
    | write batch =>
      obtain ⟨G, hv, htidy, _⟩ := h.group
      obtain ⟨G', hG', hturn, hsteady⟩ := h.write hcall hcareful hv
      rw [countKept_iff hbefore h.db hv₀ hv] at hkept
      rw [countKept_iff hbefore hsteady.db hv₀ hG', hturn.count_iff htidy hkept]
      exact not_congr ⟨fun ht => ⟨ht, batch, next, hcall⟩, And.left⟩
    | _ =>
      refine iff_of_true hkept ?_
      rintro ⟨_, batch, next', hwrite⟩
      rw [hcall] at hwrite
      cases hwrite

end

theorem steady_begin {s : ChatState} (tasks : ι → GroupTask) (hdb : GroupDbOk s.groups) (hv : view s.groups g = some G)
    (htidy : G.Tidy) : Steady tasks g G.data.ownerId (beginTasks tasks g s) where
  db := hdb
  keeps i := keeps_prog (tasks i) g
  finished := by
    intro j hj
    cases hj
  group := by
    refine ⟨G, hv, htidy, rfl, ?_⟩
    rintro i ⟨data, hvalue, _⟩
    cases hvalue

/-- Whatever operations take turns on a group of a reachable store: while each write finds what its
call read, and nobody joins the group once it is dissolved, every transfer and every dissolution
that was reported stays. The count then follows the members exactly until a dissolution is
written. -/
theorem group_updates_kept (ops : List ChatOp) (g : Bytes) (tasks : ι → GroupTask)
    (schedule : List ι) (hgroup : (GroupStore.getGroup (chatAfter ops).groups g).isSome = true)
    (hcareful : AllSteps (Config.tick groupExec) (Careful g) (beginTasks tasks g (chatAfter ops))
      schedule) :
    Always (Config.tick groupExec) (UpdatesKept tasks g (chatAfter ops).groups)
        (beginTasks tasks g (chatAfter ops)) schedule ∧
      (Always (Config.tick groupExec)
          (fun c => CountKept g (chatAfter ops).groups c.state.groups)
          (beginTasks tasks g (chatAfter ops)) schedule ↔
        AllSteps (Config.tick groupExec) (fun c i => ¬ DissolvesNext tasks c i)
          (beginTasks tasks g (chatAfter ops)) schedule) := by
  obtain ⟨data, hdata⟩ := Option.isSome_iff_exists.mp hgroup
  have hv := view_of_getGroup hdata
  obtain ⟨hok, hcounted⟩ := chatAfter_counted ops hv
  have hdb := chatAfter_dbOk ops
  have hstart := steady_begin tasks hdb hv ⟨hcounted, hok.ended⟩
  constructor
  · intro pre hpre
    have hsteady := Config.always_of_perform
      (fun c i o next (h : Steady tasks g data.ownerId c) => h.perform) hstart hcareful pre hpre
    refine hsteady.updatesKept ?_
    intro data' hdata'
    rw [Option.some.inj (hdata.symm.trans hdata')]
  · refine always_iff_allSteps (I := Steady tasks g data.ownerId) ?_ ?_ hstart ?_ hcareful
    · intro c i h hi
      exact Config.tick_of_perform (fun c i o next h => h.perform) h hi
    · intro c i h hi hkept
      exact countKept_step_iff hdb hv h hi hkept
    · refine (countKept_iff hdb hdb hv hv).mpr ?_
      omega

/-- `a` edits the group while handing it over to `b`. -/
def editAndTransfer : Bool → GroupTask
  | false => .updateGroup (str "a") [] [] (str "hi") 6
  | true => .transferOwner (str "a") (str "b")

/-- The edit is written before the transfer reads the record for the last time. -/
def editWithin : List Bool :=
  [true, false, true, false, true, true, false] ++ List.replicate 4 true

theorem editWithin_kept :
    UpdatesKept editAndTransfer sampleGroupId (chatAfter [makeGroup]).groups
        (run (Config.tick groupExec)
          (beginTasks editAndTransfer sampleGroupId (chatAfter [makeGroup])) editWithin) ∧
      CountKept sampleGroupId (chatAfter [makeGroup]).groups
        (run (Config.tick groupExec)
          (beginTasks editAndTransfer sampleGroupId (chatAfter [makeGroup])) editWithin).state.groups := by
  have h := group_updates_kept [makeGroup] sampleGroupId editAndTransfer editWithin
    (by decide +kernel) (by decide +kernel)
  refine ⟨h.1.last, (h.2.mpr (allSteps_of_forall ?_)).last⟩
  rintro c i ⟨⟨u, hu⟩, _⟩
  cases i <;> cases hu

/-- The transfer runs between the last read of the edit and its write. -/
def editAcross : List Bool := [false, false] ++ List.replicate 8 true ++ [false]

/-- The edit writes the old owner back. -/
theorem editAcross_loses :
    (run (Config.tick groupExec) (beginTasks editAndTransfer sampleGroupId (chatAfter [makeGroup]))
        editAcross).Returned ∧
      ¬ UpdatesKept editAndTransfer sampleGroupId (chatAfter [makeGroup]).groups
        (run (Config.tick groupExec)
          (beginTasks editAndTransfer sampleGroupId (chatAfter [makeGroup])) editAcross) := by
  constructor
  · intro i
    cases i <;> decide +kernel
  · intro h
    obtain ⟨data, hdata⟩ : ∃ data,
        GroupStore.getGroup (chatAfter [makeGroup]).groups sampleGroupId = some data :=
      Option.isSome_iff_exists.mp (by decide +kernel)
    obtain ⟨data', hdata', howner⟩ := h.owner data hdata
    have hlast : lastOwner editAndTransfer (run (Config.tick groupExec)
        (beginTasks editAndTransfer sampleGroupId (chatAfter [makeGroup])) editAcross)
        data.ownerId = str "b" := rfl
    have hstored : (GroupStore.getGroup (run (Config.tick groupExec)
        (beginTasks editAndTransfer sampleGroupId (chatAfter [makeGroup])) editAcross).state.groups
        sampleGroupId).map (·.ownerId) = some (str "a") := by decide +kernel
    rw [Option.mem_def.mp hdata', Option.map_some, howner, hlast] at hstored
    exact absurd hstored (by decide)

end SwiftChat.Chat
