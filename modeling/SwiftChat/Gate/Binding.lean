import SwiftChat.Base.Run
import SwiftChat.Gate.GateService

/-! Whether a user with a live bound connection is found again. -/
namespace SwiftChat.Gate
open Base

inductive GateOp where
  | addConnection (connId : Bytes) (now : Int)
  | bindUser (connId userId token deviceId deviceType : Bytes)
  | unbindUser (userId : Bytes) (order : List Bytes)
  | removeConnection (connId : Bytes)

/-- A gate with the bindings in force, the latest first: a binding ends when its connection is
removed or bound again, and when `UnbindUser` clears its connection. -/
structure BoundGate where
  gate : GateService := {}
  binds : List (Bytes × Bytes) := []

def bindStep (t : BoundGate) : GateOp → BoundGate
  | .addConnection connId now => { t with gate := t.gate.addConnection connId now }
  | .bindUser connId userId token deviceId deviceType =>
    let r := t.gate.bindUser connId userId token deviceId deviceType
    { gate := r.1
      binds := if r.2 then (connId, userId) :: t.binds.filter (·.1 ≠ connId) else t.binds }
  | .unbindUser userId order =>
    { gate := t.gate.unbindUser userId order
      binds := t.binds.filter (some ·.1 ≠ t.gate.firstConnectionOf userId order) }
  | .removeConnection connId =>
    { gate := (t.gate.removeConnection connId).1, binds := t.binds.filter (·.1 ≠ connId) }

/-- The connection of `u` that was bound last. -/
def lastBound (binds : List (Bytes × Bytes)) (u : Bytes) : Option Bytes :=
  (binds.find? (·.2 = u)).map Prod.fst

/-- The calls the gate gets: new connections have fresh ids, users have names, and the loop of
`UnbindUser` goes over the connections of the table. -/
def GateOk (t : BoundGate) : GateOp → Prop
  | .addConnection connId _ => connId ≠ [] ∧ t.gate.connections.get connId = none
  | .bindUser _ userId _ _ _ => userId ≠ []
  | .unbindUser _ order => ∀ connId, connId ∈ order ↔ (t.gate.connections.get connId).isSome
  | .removeConnection _ => True

/-- Every user with a bound connection is found at the one bound last, and pushes go there. -/
def UsersFound (t : BoundGate) : Prop :=
  ∀ u c, lastBound t.binds u = some c →
    t.gate.getConnIdByUser u = c ∧ ∀ send, t.gate.pushToUser send u = send c

/-- No other connection is bound to the user this one is recorded for. -/
def SoleConnection (t : BoundGate) (connId : Bytes) (c : Connection) : Prop :=
  c.userId = [] ∨ ∀ other, other ≠ connId → (other, c.userId) ∉ t.binds

/-- A connection is removed, or bound to another user, only while it is the sole connection of
the user it is recorded for, and a user is unbound only while at most one connection is bound to
the user. -/
def KeepsOthers (t : BoundGate) : GateOp → Prop
  | .removeConnection connId =>
    ∀ c, t.gate.connections.get connId = some c → SoleConnection t connId c
  | .bindUser connId userId _ _ _ =>
    ∀ c, t.gate.connections.get connId = some c → c.userId = userId ∨ SoleConnection t connId c
  | .unbindUser userId _ =>
    ∀ c other, (c, userId) ∈ t.binds → (other, userId) ∈ t.binds → c = other
  | .addConnection .. => True

/-- The table knows every binding in force, and records a user only where there is one. -/
structure BindingsKnown (t : BoundGate) : Prop where
  recorded : ∀ c u, (c, u) ∈ t.binds →
    c ≠ [] ∧ u ≠ [] ∧ ∃ conn, t.gate.connections.get c = some conn ∧ conn.userId = u
  bound : ∀ c conn, t.gate.connections.get c = some conn → conn.userId ≠ [] →
    (c, conn.userId) ∈ t.binds
  ids : ∀ c conn, t.gate.connections.get c = some conn → c ≠ []

variable {t : BoundGate} {op : GateOp} {c u cid : Bytes} {conn : Connection}

theorem lastBound_mem (h : lastBound t.binds u = some c) : (c, u) ∈ t.binds := by
  obtain ⟨e, he, rfl⟩ := Option.map_eq_some_iff.mp h
  have hu : e.2 = u := by simpa using List.find?_some he
  rw [← hu]
  exact List.mem_of_find?_eq_some he

theorem lastBound_of_mem {binds : List (Bytes × Bytes)} (h : (c, u) ∈ binds) :
    ∃ c', lastBound binds u = some c' := by
  cases hf : binds.find? (·.2 = u) with
  | none =>
    have := List.find?_eq_none.mp hf _ h
    simp at this
  | some e => exact ⟨e.1, by simp [lastBound, hf]⟩

theorem lastBound_filter {binds : List (Bytes × Bytes)} {q : Bytes × Bytes → Bool}
    (h : ∀ e ∈ binds, e.2 = u → q e = true) : lastBound (binds.filter q) u = lastBound binds u := by
  induction binds with
  | nil => rfl
  | cons e binds ih =>
    have hrest := ih (fun e' he' => h e' (List.mem_cons_of_mem _ he'))
    by_cases hu : e.2 = u
    · rw [List.filter_cons_of_pos (h e List.mem_cons_self hu)]
      simp [lastBound, hu]
    · rw [List.filter_cons]
      have hskip : ∀ l : List (Bytes × Bytes), lastBound (e :: l) u = lastBound l u := by
        intro l
        simp only [lastBound, List.find?_cons, hu, decide_false]
      split
      · rw [hskip, hskip, hrest]
      · rw [hskip, hrest]

/-- The index finds the connection of one user. -/
def FoundAt (index : OrderedMap Bytes Bytes) (binds : List (Bytes × Bytes)) (u : Bytes) : Prop :=
  ∀ c, lastBound binds u = some c → index.get u = some c

theorem usersFound_iff (h : BindingsKnown t) :
    UsersFound t ↔ ∀ u, FoundAt t.gate.userToConn t.binds u := by
  constructor
  · intro hf u c hc
    have hget := (hf u c hc).1
    have hne := (h.recorded c u (lastBound_mem hc)).1
    unfold GateService.getConnIdByUser at hget
    cases hg : t.gate.userToConn.get u with
    | none =>
      rw [hg] at hget
      exact absurd hget.symm hne
    | some c' =>
      rw [hg] at hget
      exact congrArg some hget
  · intro hf u c hc
    have hne := (h.recorded c u (lastBound_mem hc)).1
    have hget : t.gate.getConnIdByUser u = c := by
      simp [GateService.getConnIdByUser, hf u c hc]
    refine ⟨hget, ?_⟩
    intro send
    simp [GateService.pushToUser, hget, hne]

/-- The index after the entry of a connection's user is erased. -/
def eraseUser (index : OrderedMap Bytes Bytes) (u : Bytes) : OrderedMap Bytes Bytes :=
  if u ≠ [] then index.delete u else index

/-- Taking a connection out does not touch users it is not recorded for. -/
theorem foundAt_other (h : BindingsKnown t) (hget : t.gate.connections.get cid = some conn)
    (hu : u ≠ conn.userId) (hf : FoundAt t.gate.userToConn t.binds u) :
    FoundAt (eraseUser t.gate.userToConn conn.userId) (t.binds.filter (·.1 ≠ cid)) u := by
  intro c hc
  have hkeep : lastBound (t.binds.filter (·.1 ≠ cid)) u = lastBound t.binds u := by
    refine lastBound_filter ?_
    intro e he heu
    have hne : e.1 ≠ cid := by
      intro hec
      obtain ⟨_, _, conn', hg, hw⟩ := h.recorded e.1 e.2 he
      rw [hec, hget] at hg
      obtain rfl := Option.some.inj hg
      exact hu (heu.symm.trans hw.symm)
    simpa using hne
  rw [hkeep] at hc
  unfold eraseUser
  split
  · rw [OrderedMap.get_delete_ne hu]
    exact hf c hc
  · exact hf c hc

/-- For the user it is recorded for, the entry is gone: nothing else may be bound. -/
theorem foundAt_owner_iff (h : BindingsKnown t) :
    FoundAt (eraseUser t.gate.userToConn conn.userId) (t.binds.filter (·.1 ≠ cid)) conn.userId ↔
      SoleConnection t cid conn := by
  by_cases hne : conn.userId = []
  · -- nobody is bound to the empty user id
    refine iff_of_true ?_ (Or.inl hne)
    intro c hc
    obtain ⟨e, he, rfl⟩ := Option.map_eq_some_iff.mp hc
    have hu : e.2 = conn.userId := by simpa using List.find?_some he
    have hmem := (List.mem_filter.mp (List.mem_of_find?_eq_some he)).1
    exact absurd (hu.trans hne) (h.recorded e.1 e.2 hmem).2.1
  · have hgone : (eraseUser t.gate.userToConn conn.userId).get conn.userId = none := by
      simp [eraseUser, hne]
    constructor
    · intro hf
      refine Or.inr ?_
      intro other hother hmem
      have hmem' : (other, conn.userId) ∈ t.binds.filter (·.1 ≠ cid) :=
        List.mem_filter.mpr ⟨hmem, by simpa using hother⟩
      obtain ⟨c', hc'⟩ := lastBound_of_mem hmem'
      have := hf c' hc'
      rw [hgone] at this
      cases this
    · rintro (he | hsole) c hc
      · exact absurd he hne
      · obtain ⟨e, he, rfl⟩ := Option.map_eq_some_iff.mp hc
        have hu : e.2 = conn.userId := by simpa using List.find?_some he
        obtain ⟨hmem, hcid⟩ := List.mem_filter.mp (List.mem_of_find?_eq_some he)
        exact absurd (hu ▸ hmem) (hsole e.1 (by simpa using hcid))

/-! One step: what becomes of the table, and when everybody is still found. -/

theorem removeConnection_eq (hget : t.gate.connections.get cid = some conn) :
    bindStep t (.removeConnection cid) =
      { gate := { userToConn := eraseUser t.gate.userToConn conn.userId
                  connections := t.gate.connections.delete cid }
        binds := t.binds.filter (·.1 ≠ cid) } := by
  simp only [bindStep, GateService.removeConnection, hget, eraseUser]

theorem removeConnection_absent (h : BindingsKnown t) (hget : t.gate.connections.get cid = none) :
    bindStep t (.removeConnection cid) = t := by
  have hfilter : t.binds.filter (·.1 ≠ cid) = t.binds := by
    refine List.filter_eq_self.mpr ?_
    intro e he
    obtain ⟨_, _, conn, hg, _⟩ := h.recorded e.1 e.2 he
    have hne : e.1 ≠ cid := by
      intro hec
      rw [hec, hget] at hg
      cases hg
    simpa using hne
  simp only [bindStep, GateService.removeConnection, hget, hfilter]

theorem removeConnection_known (h : BindingsKnown t) :
    BindingsKnown (bindStep t (.removeConnection cid)) := by
  cases hget : t.gate.connections.get cid with
  | none => rwa [removeConnection_absent h hget]
  | some conn =>
    rw [removeConnection_eq hget]
    refine ⟨?_, ?_, ?_⟩
    · intro c u hmem
      obtain ⟨hmem, hc⟩ := List.mem_filter.mp hmem
      have hne : c ≠ cid := by simpa using hc
      obtain ⟨hc', hu, conn', hg, hw⟩ := h.recorded c u hmem
      exact ⟨hc', hu, conn', by rw [OrderedMap.get_delete_ne hne]; exact hg, hw⟩
    · intro c conn' hg hne
      obtain ⟨hc, hold⟩ := OrderedMap.get_delete_some hg
      exact List.mem_filter.mpr ⟨h.bound c conn' hold hne, by simpa using hc⟩
    · intro c conn' hg
      by_cases hne : c = cid
      · rw [hne, OrderedMap.get_delete_self] at hg
        cases hg
      · rw [OrderedMap.get_delete_ne hne] at hg
        exact h.ids c conn' hg

theorem removeConnection_found_iff (h : BindingsKnown t) (hf : UsersFound t) :
    UsersFound (bindStep t (.removeConnection cid)) ↔ KeepsOthers t (.removeConnection cid) := by
  cases hget : t.gate.connections.get cid with
  | none =>
    rw [removeConnection_absent h hget]
    exact iff_of_true hf (by simp [KeepsOthers, hget])
  | some conn =>
    rw [usersFound_iff (removeConnection_known h), removeConnection_eq hget]
    have hall := (usersFound_iff h).mp hf
    constructor
    · intro hfound c hc
      obtain rfl := Option.some.inj (hget.symm.trans hc)
      exact (foundAt_owner_iff h).mp (hfound conn.userId)
    · intro hkeep u
      by_cases hu : u = conn.userId
      · rw [hu]
        exact (foundAt_owner_iff h).mpr (hkeep conn hget)
      · exact foundAt_other h hget hu (hall u)

theorem bindUser_eq (token dev devType : Bytes) (hget : t.gate.connections.get cid = some conn) :
    bindStep t (.bindUser cid u token dev devType) =
      { gate := { userToConn := (eraseUser t.gate.userToConn conn.userId).put u cid
                  connections := t.gate.connections.put cid (conn.bound u token dev devType) }
        binds := (cid, u) :: t.binds.filter (·.1 ≠ cid) } := by
  simp only [bindStep, GateService.bindUser, hget, eraseUser, if_true]

theorem bindUser_absent {token dev devType : Bytes} (hget : t.gate.connections.get cid = none) :
    bindStep t (.bindUser cid u token dev devType) = t := by
  simp [bindStep, GateService.bindUser, hget]

theorem bindUser_known {token dev devType : Bytes} (h : BindingsKnown t) (hu : u ≠ []) :
    BindingsKnown (bindStep t (.bindUser cid u token dev devType)) := by
  cases hget : t.gate.connections.get cid with
  | none => rwa [bindUser_absent hget]
  | some conn =>
    rw [bindUser_eq token dev devType hget]
    refine ⟨?_, ?_, ?_⟩
    · intro c v hmem
      rcases List.mem_cons.mp hmem with he | hmem
      · obtain ⟨rfl, rfl⟩ := Prod.mk.inj he
        exact ⟨h.ids c conn hget, hu, _, OrderedMap.get_put_self, rfl⟩
      · obtain ⟨hmem, hc⟩ := List.mem_filter.mp hmem
        have hne : c ≠ cid := by simpa using hc
        obtain ⟨hc', hv, conn'', hg, hw'⟩ := h.recorded c v hmem
        exact ⟨hc', hv, conn'', by rw [OrderedMap.get_put_ne hne]; exact hg, hw'⟩
    · intro c conn'' hg hne
      rcases OrderedMap.get_put_some hg with ⟨rfl, rfl⟩ | ⟨hc, hold⟩
      · exact List.mem_cons_self
      · refine List.mem_cons_of_mem _ (List.mem_filter.mpr ⟨h.bound c conn'' hold hne, ?_⟩)
        simpa using hc
    · intro c conn'' hg
      by_cases hne : c = cid
      · rw [hne]
        exact h.ids cid conn hget
      · rw [OrderedMap.get_put_ne hne] at hg
        exact h.ids c conn'' hg

theorem bindUser_found_iff {token dev devType : Bytes} (h : BindingsKnown t) (hu : u ≠ [])
    (hf : UsersFound t) :
    UsersFound (bindStep t (.bindUser cid u token dev devType)) ↔
      KeepsOthers t (.bindUser cid u token dev devType) := by
  cases hget : t.gate.connections.get cid with
  | none =>
    rw [bindUser_absent hget]
    exact iff_of_true hf (by simp [KeepsOthers, hget])
  | some conn =>
    rw [usersFound_iff (bindUser_known h hu)]
    rw [bindUser_eq token dev devType hget]
    have hall := (usersFound_iff h).mp hf
    -- the new binding is found at once, and for every other user nothing was added
    have hother : ∀ v, v ≠ u →
        (FoundAt ((eraseUser t.gate.userToConn conn.userId).put u cid)
          ((cid, u) :: t.binds.filter (·.1 ≠ cid)) v ↔
        FoundAt (eraseUser t.gate.userToConn conn.userId) (t.binds.filter (·.1 ≠ cid)) v) := by
      intro v hv
      simp only [FoundAt, lastBound, List.find?_cons, hv.symm, decide_false,
        OrderedMap.get_put_ne hv]
    constructor
    · intro hfound c hc
      obtain rfl := Option.some.inj (hget.symm.trans hc)
      by_cases hsame : conn.userId = u
      · exact Or.inl hsame
      · exact Or.inr ((foundAt_owner_iff h).mp ((hother _ hsame).mp (hfound conn.userId)))
    · intro hkeep v
      by_cases hv : v = u
      · intro c hc
        simp [lastBound, hv] at hc
        simp [hv, hc]
      · rw [hother v hv]
        by_cases hown : v = conn.userId
        · rw [hown]
          rcases hkeep conn hget with he | hsole
          · exact absurd (hown.trans he) hv
          · exact (foundAt_owner_iff h).mpr hsole
        · exact foundAt_other h hget hown (hall v)

theorem addConnection_known {now : Int} (h : BindingsKnown t) (hne : cid ≠ [])
    (hnew : t.gate.connections.get cid = none) :
    BindingsKnown (bindStep t (.addConnection cid now)) := by
  refine ⟨?_, ?_, ?_⟩
  · intro c u hmem
    obtain ⟨hc, hu, conn, hg, hw⟩ := h.recorded c u hmem
    have hother : c ≠ cid := by
      rintro rfl
      rw [hnew] at hg
      cases hg
    exact ⟨hc, hu, conn, by rw [← hg]; exact OrderedMap.get_put_ne hother, hw⟩
  · intro c conn hg hne
    rcases OrderedMap.get_put_some hg with ⟨rfl, rfl⟩ | ⟨_, hold⟩
    · exact absurd rfl hne
    · exact h.bound c conn hold hne
  · intro c conn hg
    by_cases hc : c = cid
    · rwa [hc]
    · have hg' : (t.gate.connections.put cid _).get c = some conn := hg
      rw [OrderedMap.get_put_ne hc] at hg'
      exact h.ids c conn hg'

/-- The loop of `UnbindUser` stops at a connection recorded for the user. -/
theorem firstConnectionOf_some {order : List Bytes}
    (h : t.gate.firstConnectionOf u order = some c) :
    ∃ conn, t.gate.connections.get c = some conn ∧ conn.userId = u := by
  have hsome : ((t.gate.connections.get c).any fun c => c.userId = u) = true := by
    simpa using List.find?_some h
  cases hget : t.gate.connections.get c with
  | none =>
    rw [hget] at hsome
    cases hsome
  | some conn =>
    rw [hget] at hsome
    exact ⟨conn, rfl, by simpa using hsome⟩

/-- It stops somewhere when the table has such a connection. -/
theorem firstConnectionOf_found {order : List Bytes} (hc : c ∈ order)
    (hget : t.gate.connections.get c = some conn) (hu : conn.userId = u) :
    ∃ first, t.gate.firstConnectionOf u order = some first := by
  cases hf : t.gate.firstConnectionOf u order with
  | none =>
    have := List.find?_eq_none.mp hf c hc
    simp [hget, hu] at this
  | some first => exact ⟨first, rfl⟩

/-- The record at which the loop stops is cleared. -/
theorem unbindUser_get_first {order : List Bytes}
    (hf : t.gate.firstConnectionOf u order = some c)
    (hget : t.gate.connections.get c = some conn) :
    (t.gate.unbindUser u order).connections.get c = some conn.unbound := by
  simp only [GateService.unbindUser, hf, hget]
  exact OrderedMap.get_put_self

/-- All other records stay. -/
theorem unbindUser_get_other {order : List Bytes}
    (hf : t.gate.firstConnectionOf u order ≠ some c) :
    (t.gate.unbindUser u order).connections.get c = t.gate.connections.get c := by
  simp only [GateService.unbindUser]
  split
  · rfl
  · rename_i first hfirst
    have hne : c ≠ first := by
      rintro rfl
      exact hf hfirst
    split
    · rfl
    · exact OrderedMap.get_put_ne hne

/-- Unbinding changes at most one record, and one of that user. -/
theorem unbindUser_get (t : BoundGate) (u c : Bytes) (order : List Bytes) :
    (t.gate.unbindUser u order).connections.get c = t.gate.connections.get c ∨
      ∃ conn, t.gate.connections.get c = some conn ∧ conn.userId = u ∧
        (t.gate.unbindUser u order).connections.get c = some conn.unbound := by
  by_cases hf : t.gate.firstConnectionOf u order = some c
  · obtain ⟨conn, hget, hu⟩ := firstConnectionOf_some hf
    exact Or.inr ⟨conn, hget, hu, unbindUser_get_first hf hget⟩
  · exact Or.inl (unbindUser_get_other hf)

theorem mem_unbound {order : List Bytes} {v : Bytes} :
    (c, v) ∈ (bindStep t (.unbindUser u order)).binds ↔
      (c, v) ∈ t.binds ∧ t.gate.firstConnectionOf u order ≠ some c := by
  simp only [bindStep, List.mem_filter, decide_eq_true_eq, ne_comm]

theorem unbindUser_known {order : List Bytes} (h : BindingsKnown t) :
    BindingsKnown (bindStep t (.unbindUser u order)) := by
  refine ⟨?_, ?_, ?_⟩
  · intro c v hmem
    obtain ⟨hmem, hf⟩ := mem_unbound.mp hmem
    obtain ⟨hc, hv, conn, hg, hw⟩ := h.recorded c v hmem
    exact ⟨hc, hv, conn, (unbindUser_get_other hf).trans hg, hw⟩
  · intro c conn hg hne
    by_cases hf : t.gate.firstConnectionOf u order = some c
    · -- the record that was cleared names nobody
      obtain ⟨conn', hget, _⟩ := firstConnectionOf_some hf
      obtain rfl := Option.some.inj ((unbindUser_get_first hf hget).symm.trans hg)
      exact absurd rfl hne
    · have hold := (unbindUser_get_other hf).symm.trans hg
      exact mem_unbound.mpr ⟨h.bound c conn hold hne, hf⟩
  · intro c conn hg
    rcases unbindUser_get t u c order with he | ⟨conn', hg', _, _⟩
    · exact h.ids c conn (he.symm.trans hg)
    · exact h.ids c conn' hg'

/-- Unbinding a user touches no other one. -/
theorem foundAt_unbound_other {order : List Bytes} {v : Bytes} (h : BindingsKnown t) (hvu : v ≠ u)
    (hf : FoundAt t.gate.userToConn t.binds v) :
    FoundAt (bindStep t (.unbindUser u order)).gate.userToConn
      (bindStep t (.unbindUser u order)).binds v := by
  intro c hc
  have hkeep : lastBound (bindStep t (.unbindUser u order)).binds v = lastBound t.binds v := by
    refine lastBound_filter ?_
    intro e he hev
    have hne : some e.1 ≠ t.gate.firstConnectionOf u order := by
      intro hfirst
      obtain ⟨conn, hget, hu⟩ := firstConnectionOf_some hfirst.symm
      obtain ⟨_, _, conn', hget', hw⟩ := h.recorded e.1 e.2 he
      obtain rfl := Option.some.inj (hget.symm.trans hget')
      exact hvu (hev.symm.trans (hw.symm.trans hu))
    simpa using hne
  exact (OrderedMap.get_delete_ne hvu).trans (hf c (hkeep.symm.trans hc))

/-- The user leaves the index, so no second connection may be bound to the user. -/
theorem foundAt_unbound_iff {order : List Bytes} (h : BindingsKnown t)
    (hok : GateOk t (.unbindUser u order)) :
    FoundAt (bindStep t (.unbindUser u order)).gate.userToConn
      (bindStep t (.unbindUser u order)).binds u ↔ KeepsOthers t (.unbindUser u order) := by
  constructor
  · intro hf
    -- every connection of the user is the one at which the loop stops
    have hfirst : ∀ c, (c, u) ∈ t.binds → t.gate.firstConnectionOf u order = some c := by
      intro c hc
      by_contra hne
      obtain ⟨last, hlast⟩ := lastBound_of_mem (mem_unbound.mpr ⟨hc, hne⟩)
      have hget := hf last hlast
      have hgone : (bindStep t (.unbindUser u order)).gate.userToConn.get u = none :=
        OrderedMap.get_delete_self
      rw [hgone] at hget
      cases hget
    intro c other hc hother
    exact Option.some.inj ((hfirst c hc).symm.trans (hfirst other hother))
  · intro hsole last hlast
    obtain ⟨hmem, hne⟩ := mem_unbound.mp (lastBound_mem hlast)
    obtain ⟨_, hu, conn, hget, hconn⟩ := h.recorded last u hmem
    have hin : last ∈ order := (hok last).mpr (by rw [hget]; rfl)
    obtain ⟨first, hfirst⟩ := firstConnectionOf_found hin hget hconn
    obtain ⟨conn', hget', hconn'⟩ := firstConnectionOf_some hfirst
    have hbound : (first, u) ∈ t.binds := hconn' ▸ h.bound first conn' hget' (hconn'.symm ▸ hu)
    exact absurd (hsole first last hbound hmem ▸ hfirst) hne

theorem unbindUser_found_iff {order : List Bytes} (h : BindingsKnown t)
    (hok : GateOk t (.unbindUser u order)) (hf : UsersFound t) :
    UsersFound (bindStep t (.unbindUser u order)) ↔ KeepsOthers t (.unbindUser u order) := by
  rw [usersFound_iff (unbindUser_known h)]
  constructor
  · intro hfound
    exact (foundAt_unbound_iff h hok).mp (hfound u)
  · intro hkeep v
    by_cases hv : v = u
    · rw [hv]
      exact (foundAt_unbound_iff h hok).mpr hkeep
    · exact foundAt_unbound_other h hv ((usersFound_iff h).mp hf v)

theorem bindStep_known (h : BindingsKnown t) (hok : GateOk t op) : BindingsKnown (bindStep t op) := by
  cases op with
  | addConnection cid now => exact addConnection_known h hok.1 hok.2
  | bindUser cid u token dev devType => exact bindUser_known h hok
  | unbindUser u order => exact unbindUser_known h
  | removeConnection cid => exact removeConnection_known h

theorem bindStep_found_iff (h : BindingsKnown t) (hok : GateOk t op) (hf : UsersFound t) :
    UsersFound (bindStep t op) ↔ KeepsOthers t op := by
  cases op with
  | addConnection cid now => exact iff_of_true hf trivial
  | bindUser cid u token dev devType => exact bindUser_found_iff h hok hf
  | unbindUser u order => exact unbindUser_found_iff h hok hf
  | removeConnection cid => exact removeConnection_found_iff h hf

/-- In a run of the gate, every user with a bound connection is found in every state exactly when
no step takes a connection, or the index entry, from a user who has another one. -/
theorem users_found_iff (ops : List GateOp) (hops : AllSteps bindStep GateOk {} ops) :
    Always bindStep UsersFound {} ops ↔ AllSteps bindStep KeepsOthers {} ops := by
  have hknown : BindingsKnown {} := by
    refine ⟨?_, ?_, ?_⟩
    · intro c u h
      cases h
    · intro c conn h
      cases h
    · intro c conn h
      cases h
  have hfound : UsersFound {} := by
    intro u c h
    cases h
  exact always_iff_allSteps (fun _ _ => bindStep_known) (fun _ _ => bindStep_found_iff) hknown
    hfound hops

theorem soleConnection_iff : SoleConnection t cid conn ↔
    conn.userId = [] ∨ ∀ e ∈ t.binds, e.1 = cid ∨ e.2 ≠ conn.userId := by
  constructor
  · rintro (he | hsole)
    · exact Or.inl he
    · refine Or.inr ?_
      intro e he
      by_cases hc : e.1 = cid
      · exact Or.inl hc
      · refine Or.inr ?_
        intro hu
        exact hsole e.1 hc (hu ▸ he)
  · rintro (he | hall)
    · exact Or.inl he
    · refine Or.inr ?_
      intro other hother hmem
      rcases hall _ hmem with hc | hu
      · exact hother hc
      · exact hu rfl

theorem sole_binding_iff {order : List Bytes} : KeepsOthers t (.unbindUser u order) ↔
    ∀ e ∈ t.binds, ∀ e' ∈ t.binds, e.2 = u → e'.2 = u → e.1 = e'.1 := by
  constructor
  · intro h e he e' he' hu hu'
    exact h e.1 e'.1 (hu ▸ he) (hu' ▸ he')
  · intro h c other hc hother
    exact h _ hc _ hother rfl rfl

theorem traverses_iff {order : List Bytes} : GateOk t (.unbindUser u order) ↔
    (∀ c ∈ order, (t.gate.connections.get c).isSome) ∧
      ∀ e ∈ t.gate.connections.entries, e.1 ∈ order := by
  constructor
  · intro h
    refine ⟨fun c hc => (h c).mp hc, ?_⟩
    intro e he
    refine (h e.1).mpr ?_
    rw [OrderedMap.mem_entries.mp he]
    rfl
  · rintro ⟨hin, hall⟩ c
    refine ⟨hin c, ?_⟩
    intro hc
    obtain ⟨conn, hget⟩ := Option.isSome_iff_exists.mp hc
    exact hall _ (OrderedMap.mem_entries.mpr hget)

instance (t : BoundGate) (connId : Bytes) (c : Connection) : Decidable (SoleConnection t connId c) :=
  decidable_of_iff _ soleConnection_iff.symm

instance (t : BoundGate) (op : GateOp) : Decidable (KeepsOthers t op) :=
  match op with
  | .addConnection .. => .isTrue trivial
  | .bindUser connId userId _ _ _ =>
    inferInstanceAs (Decidable (∀ c ∈ t.gate.connections.get connId,
      c.userId = userId ∨ SoleConnection t connId c))
  | .unbindUser _ _ => decidable_of_iff _ sole_binding_iff.symm
  | .removeConnection connId =>
    inferInstanceAs (Decidable (∀ c ∈ t.gate.connections.get connId, SoleConnection t connId c))

instance (t : BoundGate) (op : GateOp) : Decidable (GateOk t op) :=
  match op with
  | .addConnection connId _ =>
    inferInstanceAs (Decidable (connId ≠ [] ∧ t.gate.connections.get connId = none))
  | .bindUser _ userId _ _ _ => inferInstanceAs (Decidable (userId ≠ []))
  | .unbindUser _ _ => decidable_of_iff _ traverses_iff.symm
  | .removeConnection _ => .isTrue trivial

/-- A user logs in again after the first connection is closed, and is unbound there. -/
def handOver : List GateOp :=
  [.addConnection (str "c1") 1, .bindUser (str "c1") (str "u") [] [] [],
    .addConnection (str "c2") 2, .removeConnection (str "c1"),
    .bindUser (str "c2") (str "u") [] [] [], .unbindUser (str "u") [str "c2"]]

theorem users_found_reconnect : Always bindStep UsersFound {} handOver :=
  (users_found_iff handOver (by decide)).mpr (by decide)

/-- A user logs in on a second connection before the first one is closed. -/
def reconnect : List GateOp :=
  [.addConnection (str "c1") 1, .bindUser (str "c1") (str "u") [] [] [],
    .addConnection (str "c2") 2, .bindUser (str "c2") (str "u") [] [] []]

/-- Closing the first connection makes the user unreachable on the second, and so does unbinding
the user, which clears the first. -/
theorem users_lost_after_reconnect :
    (AllSteps bindStep GateOk {} (reconnect ++ [.removeConnection (str "c1")]) ∧
      ¬ Always bindStep UsersFound {} (reconnect ++ [.removeConnection (str "c1")])) ∧
    AllSteps bindStep GateOk {} (reconnect ++ [.unbindUser (str "u") [str "c1", str "c2"]]) ∧
      ¬ Always bindStep UsersFound {} (reconnect ++ [.unbindUser (str "u") [str "c1", str "c2"]]) := by
  refine ⟨⟨by decide, ?_⟩, by decide, ?_⟩
  · intro h
    have hfound := (h.last (str "u") (str "c2") (by decide)).1
    exact absurd hfound (by decide)
  · intro h
    have hfound := (h.last (str "u") (str "c2") (by decide)).1
    exact absurd hfound (by decide)

end SwiftChat.Gate
