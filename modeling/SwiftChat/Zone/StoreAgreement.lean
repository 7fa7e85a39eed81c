import SwiftChat.Base.Run
import SwiftChat.Zone.RedisStore

/-! The store in memory and the store in Redis side by side. -/
namespace SwiftChat.Zone
open Base

/-- A call that changes a store. -/
inductive StoreUpdate where
  | setOnline (session : UserSession)
  | setOffline (userId : Bytes)
  | updateLastActive (userId : Bytes) (timestamp : Int)
  | registerGate (node : GateNode)
  | unregisterGate (gateId : Bytes)
  | updateGateHeartbeat (gateId : Bytes) (connections nowSeconds : Int)

def SessionStore.update (s : SessionStore) : StoreUpdate → SessionStore × Bool
  | .setOnline session => s.setOnline session
  | .setOffline u => s.setOffline u
  | .updateLastActive u timestamp => s.updateLastActive u timestamp
  | .registerGate node => s.registerGate node
  | .unregisterGate g => s.unregisterGate g
  | .updateGateHeartbeat g connections now => s.updateGateHeartbeat g connections now

def RedisSessionStore.update (db : Redis.Store) : StoreUpdate → Redis.Store × Bool
  | .setOnline session => setOnline db session
  | .setOffline u => setOffline db u
  | .updateLastActive u timestamp => updateLastActive db u timestamp
  | .registerGate node => registerGate db node
  | .unregisterGate g => unregisterGate db g
  | .updateGateHeartbeat g connections now => updateGateHeartbeat db g connections now

/-- Two stores that get the same calls, and what they last returned. -/
structure BothStores where
  memory : SessionStore := {}
  redis : Redis.Store := OrderedMap.empty
  results : Bool × Bool := (true, true)

def bothStep (b : BothStores) (call : StoreUpdate) : BothStores :=
  { memory := (b.memory.update call).1
    redis := (RedisSessionStore.update b.redis call).1
    results := ((b.memory.update call).2, (RedisSessionStore.update b.redis call).2) }

/-- The two stores cannot be told apart by their answers about ids without zero bytes. -/
structure SameAnswers (mem : SessionStore) (db : Redis.Store) : Prop where
  session : ∀ u, 0 ∉ u → RedisSessionStore.getSession db u = mem.getSession u
  online : ∀ u, 0 ∉ u → RedisSessionStore.isOnline db u = mem.isOnline u
  gate : ∀ g, 0 ∉ g → RedisSessionStore.getGate db g = mem.getGate g
  allGates : ∀ node, node ∈ RedisSessionStore.getAllGates db ↔ node ∈ mem.getAllGates

def StoresAgree (b : BothStores) : Prop :=
  b.results.1 = b.results.2 ∧ SameAnswers b.memory b.redis

def StoreUpdate.Fits : StoreUpdate → Prop
  | .setOnline session => session.Fits
  | .setOffline u => 0 ∉ u
  | .updateLastActive u timestamp => 0 ∉ u ∧ InRange 63 timestamp
  | .registerGate node => node.Fits
  | .unregisterGate g => 0 ∉ g
  | .updateGateHeartbeat g connections now => 0 ∉ g ∧ InRange 31 connections ∧ InRange 63 now

instance : (call : StoreUpdate) → Decidable call.Fits
  | .setOnline session => inferInstanceAs (Decidable session.Fits)
  | .setOffline u => inferInstanceAs (Decidable (0 ∉ u))
  | .updateLastActive u timestamp => inferInstanceAs (Decidable (0 ∉ u ∧ InRange 63 timestamp))
  | .registerGate node => inferInstanceAs (Decidable node.Fits)
  | .unregisterGate g => inferInstanceAs (Decidable (0 ∉ g))
  | .updateGateHeartbeat g connections now =>
    inferInstanceAs (Decidable (0 ∉ g ∧ InRange 31 connections ∧ InRange 63 now))

/-- Only what exists is refreshed, and no gate is called "list": neither one that registers nor
one that is removed while others are registered. -/
def Careful (b : BothStores) : StoreUpdate → Prop
  | .setOnline _ => True
  | .setOffline _ => True
  | .updateLastActive u _ => (b.memory.getSession u).isSome
  | .registerGate node => node.gateId ≠ str "list"
  | .unregisterGate g => g = str "list" → b.memory.getAllGates = []
  | .updateGateHeartbeat g _ _ => (b.memory.getGate g).isSome

instance (b : BothStores) : (call : StoreUpdate) → Decidable (Careful b call)
  | .setOnline _ => .isTrue trivial
  | .setOffline _ => .isTrue trivial
  | .updateLastActive u _ => inferInstanceAs (Decidable ((b.memory.getSession u).isSome = true))
  | .registerGate node => inferInstanceAs (Decidable (node.gateId ≠ str "list"))
  | .unregisterGate g => inferInstanceAs (Decidable (g = str "list" → b.memory.getAllGates = []))
  | .updateGateHeartbeat g _ _ => inferInstanceAs (Decidable ((b.memory.getGate g).isSome = true))

section
open Redis RedisSessionStore
variable {mem : SessionStore} {db db' : Redis.Store} {u g : Bytes}

/-- What the keys of Redis hold when every entry of the memory is stored under its own id. -/
structure Mirrors (mem : SessionStore) (db : Redis.Store) : Prop where
  session : ∀ u, 0 ∉ u →
    db.get (kSessionPrefix ++ u) = (mem.sessions.get u).map fun s => .hash (sessionHash s)
  gate : ∀ g, 0 ∉ g → g ≠ str "list" →
    db.get (kGatePrefix ++ g) = (mem.gates.get g).map fun n => .hash (gateHash n)
  members : setAt db kGateListKey = some (mem.gates.mapValues fun _ => ())
  ownSession : ∀ u s, mem.sessions.get u = some s → s.userId = u ∧ s.Fits
  ownGate : ∀ g n, mem.gates.get g = some n → n.gateId = g ∧ n.Fits ∧ g ≠ str "list"

theorem mirrors_empty : Mirrors {} .empty where
  session _ _ := rfl
  gate _ _ _ := rfl
  members := rfl
  ownSession _ _ h := by cases h
  ownGate _ _ h := by cases h

/-- A session is stored under its id. -/
theorem Mirrors.put_session (h : Mirrors mem db) {s : UserSession} (hs : s.Fits)
    (hid : s.userId = u) :
    Mirrors { mem with sessions := mem.sessions.put u s }
      (db.put (kSessionPrefix ++ u) (.hash (sessionHash s))) where
  session w hw := by
    by_cases hwu : w = u
    · rw [hwu, OrderedMap.get_put_self, OrderedMap.get_put_self]
      rfl
    · rw [OrderedMap.get_put_ne hwu,
        OrderedMap.get_put_ne fun hk => hwu (List.append_cancel_left hk)]
      exact h.session w hw
  gate g hg hl := by
    rw [OrderedMap.get_put_ne sessionKey_ne_gateKey.symm]
    exact h.gate g hg hl
  members := by
    rw [setAt_congr (OrderedMap.get_put_ne sessionKey_ne_list.symm)]
    exact h.members
  ownSession w t ht := by
    rcases OrderedMap.get_put_some ht with ⟨hwu, rfl⟩ | ⟨_, hold⟩
    · exact ⟨hid.trans hwu.symm, hs⟩
    · exact h.ownSession w t hold
  ownGate := h.ownGate

theorem Mirrors.delete_session (h : Mirrors mem db) (u : Bytes) :
    Mirrors { mem with sessions := mem.sessions.delete u } (db.delete (kSessionPrefix ++ u)) where
  session w hw := by
    by_cases hwu : w = u
    · rw [hwu, OrderedMap.get_delete_self, OrderedMap.get_delete_self]
      rfl
    · rw [OrderedMap.get_delete_ne hwu,
        OrderedMap.get_delete_ne fun hk => hwu (List.append_cancel_left hk)]
      exact h.session w hw
  gate g hg hl := by
    rw [OrderedMap.get_delete_ne sessionKey_ne_gateKey.symm]
    exact h.gate g hg hl
  members := by
    rw [setAt_congr (OrderedMap.get_delete_ne sessionKey_ne_list.symm)]
    exact h.members
  ownSession w t ht := h.ownSession w t (OrderedMap.get_delete_some ht).2
  ownGate := h.ownGate

/-- A gate is stored under its id and stands in the list. -/
theorem Mirrors.put_gate (h : Mirrors mem db) {n : GateNode} (hn : n.Fits) (hid : n.gateId = g)
    (hl : g ≠ str "list") (hgate : db'.get (kGatePrefix ++ g) = some (.hash (gateHash n)))
    (hlist : setAt db' kGateListKey = some ((mem.gates.mapValues fun _ => ()).put g ()))
    (hother : ∀ k, k ≠ kGatePrefix ++ g → k ≠ kGateListKey → db'.get k = db.get k) :
    Mirrors { mem with gates := mem.gates.put g n } db' where
  session u hu := by
    rw [hother _ sessionKey_ne_gateKey sessionKey_ne_list]
    exact h.session u hu
  gate i hi hil := by
    by_cases hig : i = g
    · rw [hig, hgate, OrderedMap.get_put_self]
      rfl
    · rw [OrderedMap.get_put_ne hig,
        hother _ (fun hk => hig (List.append_cancel_left hk)) (gateKey_ne_list hil)]
      exact h.gate i hi hil
  members := by
    rw [hlist]
    exact congrArg some OrderedMap.mapValues_put.symm
  ownSession := h.ownSession
  ownGate i t ht := by
    rcases OrderedMap.get_put_some ht with ⟨hig, rfl⟩ | ⟨_, hold⟩
    · exact ⟨hid.trans hig.symm, hn, hig ▸ hl⟩
    · exact h.ownGate i t hold

theorem Mirrors.delete_gate (h : Mirrors mem db)
    (hgate : g ≠ str "list" → db'.get (kGatePrefix ++ g) = none)
    (hlist : setAt db' kGateListKey = some ((mem.gates.mapValues fun _ => ()).delete g))
    (hother : ∀ k, k ≠ kGatePrefix ++ g → k ≠ kGateListKey → db'.get k = db.get k) :
    Mirrors { mem with gates := mem.gates.delete g } db' where
  session u hu := by
    rw [hother _ sessionKey_ne_gateKey sessionKey_ne_list]
    exact h.session u hu
  gate i hi hil := by
    by_cases hig : i = g
    · rw [hig, hgate (hig ▸ hil), OrderedMap.get_delete_self]
      rfl
    · rw [OrderedMap.get_delete_ne hig,
        hother _ (fun hk => hig (List.append_cancel_left hk)) (gateKey_ne_list hil)]
      exact h.gate i hi hil
  members := by
    rw [hlist]
    exact congrArg some OrderedMap.mapValues_delete.symm
  ownSession := h.ownSession
  ownGate i t ht := h.ownGate i t (OrderedMap.get_delete_some ht).2

theorem Mirrors.no_gate_list (h : Mirrors mem db) : mem.gates.get (str "list") = none := by
  cases hn : mem.gates.get (str "list") with
  | none => rfl
  | some n => exact absurd rfl (h.ownGate _ n hn).2.2

/-- The key of the list of gates is never read as a gate. -/
theorem Mirrors.list_no_hash (h : Mirrors mem db) (i : OrderedMap Bytes Bytes) :
    db.get kGateListKey ≠ some (.hash i) := by
  intro hk
  have hm := h.members
  simp [setAt, hk] at hm

theorem Mirrors.getGate (h : Mirrors mem db) (hg : 0 ∉ g) :
    RedisSessionStore.getGate db g = mem.getGate g := by
  simp only [SessionStore.getGate]
  by_cases hl : g = str "list"
  · subst hl
    rw [h.no_gate_list]
    apply getGate_absent hg
    rw [← gateListKey_eq]
    exact h.list_no_hash
  · have hk := h.gate g hg hl
    cases hn : mem.gates.get g with
    | none =>
      rw [hn] at hk
      apply getGate_absent hg
      intro i hi
      rw [hk] at hi
      cases hi
    | some n =>
      rw [hn] at hk
      obtain ⟨hid, hfit, _⟩ := h.ownGate g n hn
      exact getGate_hash hg hfit hid hk

theorem Mirrors.answers (h : Mirrors mem db) : SameAnswers mem db where
  session u hu := by
    have hk := h.session u hu
    simp only [SessionStore.getSession]
    cases hs : mem.sessions.get u with
    | none =>
      rw [hs] at hk
      exact getSession_absent hu hk
    | some s =>
      rw [hs] at hk
      obtain ⟨hid, hfit⟩ := h.ownSession u s hs
      exact getSession_hash hu hfit hid hk
  online u hu := by
    rw [isOnline_eq hu, h.session u hu, Option.isSome_map]
    rfl
  gate g hg := h.getGate hg
  allGates node := by
    rw [RedisSessionStore.mem_getAllGates h.members, SessionStore.mem_getAllGates]
    constructor
    · rintro ⟨g, hg, hnode⟩
      rw [OrderedMap.get_mapValues] at hg
      obtain ⟨n, hn, _⟩ := Option.map_eq_some_iff.mp hg
      obtain ⟨hid, hfit, _⟩ := h.ownGate g n hn
      rw [h.getGate (hid ▸ hfit.1.1)] at hnode
      exact ⟨g, hnode⟩
    · rintro ⟨g, hg⟩
      obtain ⟨hid, hfit, _⟩ := h.ownGate g node hg
      refine ⟨g, by rw [OrderedMap.get_mapValues, hg]; rfl, ?_⟩
      rw [h.getGate (hid ▸ hfit.1.1)]
      exact hg

theorem setOnline_mirrors (h : Mirrors mem db) {s : UserSession} (hs : s.Fits) :
    (setOnline db s).2 = true ∧ Mirrors (mem.setOnline s).1 (setOnline db s).1 := by
  have hu := hs.1.1
  have hk := h.session s.userId hu
  have hput := h.put_session hs rfl
  cases ho : mem.sessions.get s.userId with
  | none =>
    rw [ho] at hk
    rw [setOnline_eq hu (h := .empty) (by simp [hashAt, hk])]
    exact ⟨rfl, hput⟩
  | some old =>
    rw [ho] at hk
    rw [setOnline_eq hu (h := sessionHash old) (by simp [hashAt, hk]), sessionHash_set]
    exact ⟨rfl, hput⟩

theorem setOffline_mirrors (h : Mirrors mem db) (hu : 0 ∉ u) :
    Mirrors (mem.setOffline u).1 (setOffline db u).1 := by
  simp only [setOffline, sessionKey_eq hu, del]
  exact h.delete_session u

theorem updateLastActive_mirrors (h : Mirrors mem db) (hu : 0 ∉ u) {timestamp : Int}
    (ht : InRange 63 timestamp) (hin : (mem.getSession u).isSome) :
    (mem.updateLastActive u timestamp).2 = true ∧
      Mirrors (mem.updateLastActive u timestamp).1 (updateLastActive db u timestamp).1 := by
  obtain ⟨s, hs⟩ := Option.isSome_iff_exists.mp hin
  change mem.sessions.get u = some s at hs
  obtain ⟨hid, hfit⟩ := h.ownSession u s hs
  have hk := h.session u hu
  rw [hs] at hk
  have hh : hashAt db (kSessionPrefix ++ u) = some (sessionHash s) := by simp [hashAt, hk]
  rw [updateLastActive_eq hu, hset_fst, hmset_eq hh, sessionHash_touch]
  simp only [SessionStore.updateLastActive, hs, true_and]
  exact h.put_session ⟨hfit.1, hfit.2.1, ht⟩ hid

theorem registerGate_mirrors (h : Mirrors mem db) {n : GateNode} (hn : n.Fits)
    (hl : n.gateId ≠ str "list") :
    (registerGate db n).2 = true ∧ Mirrors (mem.registerGate n).1 (registerGate db n).1 := by
  have hg := hn.1.1
  have hk := h.gate n.gateId hg hl
  have hhash : ∃ i, hashAt db (kGatePrefix ++ n.gateId) = some i ∧
      setFields i (gateFields n) = gateHash n := by
    cases ho : mem.gates.get n.gateId with
    | none =>
      rw [ho] at hk
      exact ⟨.empty, by simp [hashAt, hk], rfl⟩
    | some old =>
      rw [ho] at hk
      exact ⟨gateHash old, by simp [hashAt, hk], gateHash_set old n⟩
  obtain ⟨i, hi, hset⟩ := hhash
  rw [registerGate_eq hg hl hi h.members, hset]
  refine ⟨rfl, h.put_gate hn rfl hl ?_ setAt_put_self ?_⟩
  · rw [OrderedMap.get_put_ne (gateKey_ne_list hl), OrderedMap.get_put_self]
  · intro k hkey hlist
    rw [OrderedMap.get_put_ne hlist, OrderedMap.get_put_ne hkey]

theorem updateGateHeartbeat_mirrors (h : Mirrors mem db) (hg : 0 ∉ g) {connections now : Int}
    (hc : InRange 31 connections) (hnow : InRange 63 now) (hin : (mem.getGate g).isSome) :
    (mem.updateGateHeartbeat g connections now).2 = true ∧
      Mirrors (mem.updateGateHeartbeat g connections now).1
        (updateGateHeartbeat db g connections now).1 := by
  obtain ⟨n, hn⟩ := Option.isSome_iff_exists.mp hin
  change mem.gates.get g = some n at hn
  obtain ⟨hid, hfit, hl⟩ := h.ownGate g n hn
  have hk := h.gate g hg hl
  rw [hn] at hk
  have hh : hashAt db (kGatePrefix ++ g) = some (gateHash n) := by simp [hashAt, hk]
  rw [updateGateHeartbeat_eq hg, hset_fst, hmset_eq hh, gateHash_beat]
  simp only [SessionStore.updateGateHeartbeat, hn, true_and]
  refine h.put_gate ⟨hfit.1, hc, hfit.2.2.1, hnow⟩ hid hl OrderedMap.get_put_self ?_ ?_
  · rw [setAt_congr (OrderedMap.get_put_ne (gateKey_ne_list hl).symm), h.members]
    -- the gate already stands in the list
    rw [OrderedMap.put_same]
    rw [OrderedMap.get_mapValues, hn]
    rfl
  · intro k hkey _
    exact OrderedMap.get_put_ne hkey

/-- The list of gates after the key of a gate is deleted. -/
theorem Mirrors.members_delete (h : Mirrors mem db) (hl : g ≠ str "list") :
    setAt (db.delete (kGatePrefix ++ g)) kGateListKey = some (mem.gates.mapValues fun _ => ()) := by
  rw [setAt_congr (OrderedMap.get_delete_ne (gateKey_ne_list hl).symm)]
  exact h.members

theorem members_delete_list :
    setAt (db.delete (kGatePrefix ++ str "list")) kGateListKey = some .empty := by
  rw [gateListKey_eq]
  exact setAt_delete_self

theorem unregisterGate_mirrors (h : Mirrors mem db) (hg : 0 ∉ g)
    (hc : g = str "list" → mem.getAllGates = []) :
    Mirrors (mem.unregisterGate g).1 (unregisterGate db g).1 := by
  have hm : setAt (db.delete (kGatePrefix ++ g)) kGateListKey =
      some (mem.gates.mapValues fun _ => ()) := by
    by_cases hl : g = str "list"
    · have hnil : mem.gates.entries = [] := List.map_eq_nil_iff.mp (hc hl)
      rw [hl, members_delete_list]
      congr 1
      apply OrderedMap.ext_get
      intro i
      rw [OrderedMap.get_mapValues]
      simp [OrderedMap.get, hnil, OrderedMap.empty]
    · exact h.members_delete hl
  rw [unregisterGate_eq hg]
  refine h.delete_gate ?_ (setAt_srem hm) ?_
  · intro hl
    rw [get_srem_ne (gateKey_ne_list hl), OrderedMap.get_delete_self]
  · intro k hkey hlist
    rw [get_srem_ne hlist, OrderedMap.get_delete_ne hkey]

/-- Removing a gate called "list" removes the list of gates. -/
theorem getAllGates_list_gone (hg : 0 ∉ str "list") :
    RedisSessionStore.getAllGates (unregisterGate db (str "list")).1 = [] := by
  rw [List.eq_nil_iff_forall_not_mem]
  intro node hnode
  rw [unregisterGate_eq hg] at hnode
  obtain ⟨i, hi, _⟩ := (RedisSessionStore.mem_getAllGates (setAt_srem members_delete_list)).mp hnode
  simp [OrderedMap.get_delete] at hi

end

theorem careful_step {b : BothStores} (h : Mirrors b.memory b.redis) {call : StoreUpdate}
    (hfit : call.Fits) (hc : Careful b call) :
    (bothStep b call).results.1 = (bothStep b call).results.2 ∧
      Mirrors (bothStep b call).memory (bothStep b call).redis := by
  cases call with
  | setOnline s =>
    obtain ⟨hr, hm⟩ := setOnline_mirrors h hfit
    exact ⟨hr.symm, hm⟩
  | setOffline u => exact ⟨rfl, setOffline_mirrors h hfit⟩
  | updateLastActive u timestamp =>
    obtain ⟨hr, hm⟩ := updateLastActive_mirrors h hfit.1 hfit.2 hc
    refine ⟨?_, hm⟩
    exact hr.trans (congrArg Prod.snd (RedisSessionStore.updateLastActive_eq hfit.1 timestamp)).symm
  | registerGate n =>
    obtain ⟨hr, hm⟩ := registerGate_mirrors h hfit hc
    exact ⟨hr.symm, hm⟩
  | unregisterGate g => exact ⟨rfl, unregisterGate_mirrors h hfit hc⟩
  | updateGateHeartbeat g connections now =>
    obtain ⟨hr, hm⟩ := updateGateHeartbeat_mirrors h hfit.1 hfit.2.1 hfit.2.2 hc
    refine ⟨?_, hm⟩
    exact hr.trans
      (congrArg Prod.snd (RedisSessionStore.updateGateHeartbeat_eq hfit.1 connections now)).symm

/-- A careless call shows: in what the two stores return or in the gates they list afterwards. -/
theorem careful_of_agree {b : BothStores} (h : Mirrors b.memory b.redis) {call : StoreUpdate}
    (hfit : call.Fits) (hagree : StoresAgree (bothStep b call)) : Careful b call := by
  obtain ⟨hres, hans⟩ := hagree
  cases call with
  | setOnline s => exact trivial
  | setOffline u => exact trivial
  | updateLastActive u timestamp =>
    have hredis : (RedisSessionStore.updateLastActive b.redis u timestamp).2 = true :=
      congrArg Prod.snd (RedisSessionStore.updateLastActive_eq hfit.1 timestamp)
    have hmem : (b.memory.updateLastActive u timestamp).2 = true := hres.trans hredis
    simp only [SessionStore.updateLastActive] at hmem
    simp only [Careful, SessionStore.getSession]
    cases hs : b.memory.sessions.get u with
    | none => simp [hs] at hmem
    | some s => rfl
  | registerGate n =>
    intro hl
    have hredis := RedisSessionStore.registerGate_list hl h.members
    have hmem : true = false := hres.trans hredis
    cases hmem
  | unregisterGate g =>
    intro hl
    subst hl
    have hgone := hans.allGates
    have hkept : b.memory.gates.delete (str "list") = b.memory.gates :=
      OrderedMap.delete_absent h.no_gate_list
    simp only [bothStep, SessionStore.update, RedisSessionStore.update, SessionStore.unregisterGate,
      hkept, getAllGates_list_gone hfit, List.not_mem_nil, false_iff] at hgone
    exact List.eq_nil_iff_forall_not_mem.mpr hgone
  | updateGateHeartbeat g connections now =>
    have hredis : (RedisSessionStore.updateGateHeartbeat b.redis g connections now).2 = true :=
      congrArg Prod.snd (RedisSessionStore.updateGateHeartbeat_eq hfit.1 connections now)
    have hmem : (b.memory.updateGateHeartbeat g connections now).2 = true := hres.trans hredis
    simp only [SessionStore.updateGateHeartbeat] at hmem
    simp only [Careful, SessionStore.getGate]
    cases hn : b.memory.gates.get g with
    | none => simp [hn] at hmem
    | some n => rfl

/-- The stores agree in every state of a run exactly when each of its calls is careful. -/
theorem stores_agree_iff (calls : List StoreUpdate) (hfit : ∀ call ∈ calls, call.Fits) :
    Always bothStep StoresAgree {} calls ↔ AllSteps bothStep Careful {} calls := by
  have hok : AllSteps bothStep (fun _ call => call.Fits) {} calls := allSteps_of_mem hfit
  have hstart : StoresAgree {} := ⟨rfl, mirrors_empty.answers⟩
  refine always_iff_allSteps_of_kept (I := fun b => Mirrors b.memory b.redis) ?_ ?_ mirrors_empty
    hstart hok
  · intro b call h hfit hc
    exact (careful_step h hfit hc).2
  · intro b call h hfit _
    constructor
    · exact careful_of_agree h hfit
    · intro hc
      obtain ⟨hres, hm⟩ := careful_step h hfit hc
      exact ⟨hres, hm.answers⟩

/-- A user and a gate come, report and go. -/
def comeAndGo : List StoreUpdate :=
  [.registerGate { gateId := str "g1", address := str "10.0.0.1:9091" },
    .setOnline { userId := str "u1", gateId := str "g1", onlineAt := 5, lastActiveAt := 5 },
    .updateGateHeartbeat (str "g1") 1 6, .updateLastActive (str "u1") 7, .setOffline (str "u1"),
    .unregisterGate (str "g1")]

theorem stores_agree_come_and_go : Always bothStep StoresAgree {} comeAndGo :=
  (stores_agree_iff comeAndGo (by decide +kernel)).mpr (by decide +kernel)

/-- The activity of a user who is not in session: the memory refuses it, Redis keeps it. -/
theorem stores_disagree_absent :
    ¬ Always bothStep StoresAgree {} [.updateLastActive (str "u1") 5] := by
  intro h
  have hres : false = true := h.last.1
  cases hres

end SwiftChat.Zone
