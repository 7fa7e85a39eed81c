import SwiftChat.Base.Run
import SwiftChat.Zone.RedisStore

/-! The times in the record of a gate: when it registered, and when it was last heard of. -/
namespace SwiftChat.Zone
open Base

/-- A reading of the system clock, in nanoseconds. -/
structure Instant where
  nanos : Int
  fits : InRange 63 nanos

namespace Instant

def millis (t : Instant) : Int := t.nanos.tdiv 1000000

def seconds (t : Instant) : Int := t.nanos.tdiv 1000000000

variable {t u : Instant}

theorem tdiv_fits {z k : Int} (h : InRange 63 z) (hk : 0 < k) : InRange 63 (z.tdiv k) := by
  obtain ⟨hlo, hhi⟩ := h
  have hle : (z.tdiv k).natAbs ≤ z.natAbs := by
    rw [Int.natAbs_tdiv]
    exact Nat.div_le_self _ _
  rcases le_total 0 z with hz | hz
  · have hpos := Int.tdiv_nonneg hz (le_of_lt hk)
    constructor <;> omega
  · have hneg : z.tdiv k ≤ (0 : Int).tdiv k := Int.tdiv_le_tdiv hk hz
    rw [Int.zero_tdiv] at hneg
    constructor <;> omega

theorem seconds_mono (h : t.nanos ≤ u.nanos) : t.seconds ≤ u.seconds :=
  Int.tdiv_le_tdiv (by decide) h

end Instant

/-- What happens to the gates of a store. Redis drops a gate that was not heard of in time; the
memory store keeps it. -/
inductive GateCall where
  | registerGate (gateId address : Bytes) (now : Instant)
  | gateHeartbeat (gateId : Bytes) (connections : Int) (now : Instant)
  | expired (gateId : Bytes)

/-- What a call reads from the clock. -/
def GateCall.now : GateCall → Option Instant
  | .registerGate _ _ now => some now
  | .gateHeartbeat _ _ now => some now
  | .expired _ => none

/-- The clock never goes back. -/
def ClockForward (calls : List GateCall) : Prop :=
  (calls.filterMap GateCall.now).Pairwise (fun t u => t.nanos ≤ u.nanos)

/-- The clock after a call. -/
def clockAfter (clock : Option Instant) (a : GateCall) : Option Instant := a.now.or clock

def ClockFit (clock : Option Instant) (a : GateCall) : Prop :=
  ∀ t, clock = some t → ∀ u, a.now = some u → t.nanos ≤ u.nanos

theorem ClockForward.fits {calls : List GateCall} (h : ClockForward calls) :
    AllSteps clockAfter ClockFit none calls := by
  have hfrom : ∀ clock : Option Instant,
      (clock.toList ++ calls.filterMap GateCall.now).Pairwise (fun t u => t.nanos ≤ u.nanos) →
        AllSteps clockAfter ClockFit clock calls := by
    clear h
    induction calls with
    | nil => exact fun _ _ => trivial
    | cons a calls ih =>
      intro clock hp
      obtain ⟨_, hrest, hacross⟩ := List.pairwise_append.mp hp
      cases hnow : a.now with
      | none =>
        rw [List.filterMap_cons_none hnow] at hp
        have hclock : clockAfter clock a = clock := by rw [clockAfter, hnow, Option.none_or]
        refine ⟨?_, by rw [hclock]; exact ih clock hp⟩
        intro t _ u hu
        exact absurd (hnow.symm.trans hu) (by simp)
      | some u =>
        rw [List.filterMap_cons_some hnow] at hrest hacross
        have hclock : clockAfter clock a = some u := by rw [clockAfter, hnow, Option.some_or]
        refine ⟨?_, by rw [hclock]; exact ih (some u) hrest⟩
        intro t ht u' hu'
        obtain rfl := Option.some.inj (hnow.symm.trans hu')
        exact hacross t (by simp [ht]) u List.mem_cons_self
  exact hfrom none h

/-- The record that `ZoneServiceImpl::RegisterGate` stores. -/
def registeredNode (gateId address : Bytes) (now : Instant) : GateNode :=
  { gateId := gateId, address := address, registeredAt := now.millis, lastHeartbeat := now.millis }

def memoryGateStep (s : SessionStore) : GateCall → SessionStore
  | .registerGate gateId address now => (s.registerGate (registeredNode gateId address now)).1
  | .gateHeartbeat gateId connections now =>
    (s.updateGateHeartbeat gateId connections now.seconds).1
  | .expired _ => s

def redisGateStep (db : Redis.Store) : GateCall → Redis.Store
  | .registerGate gateId address now =>
    (RedisSessionStore.registerGate db (registeredNode gateId address now)).1
  | .gateHeartbeat gateId connections now =>
    (RedisSessionStore.updateGateHeartbeat db gateId connections now.seconds).1
  | .expired gateId => db.delete (cString (RedisSessionStore.kGatePrefix ++ gateId))

/-- The two times of a gate that is found. -/
def timesOf (node : Option GateNode) : Option (Int × Int) :=
  node.map (fun node => (node.registeredAt, node.lastHeartbeat))

/-- What a store does to the times of its gates. `kept` is the registration time in the record that
a heartbeat writes to. -/
structure GateStore (S : Type) where
  getGate : S → Bytes → Option GateNode
  step : S → GateCall → S
  kept : S → Bytes → Option Int
  kept_of_times : ∀ {s g r l}, timesOf (getGate s g) = some (r, l) → kept s g = some r
  register : ∀ s gateId address now g,
    timesOf (getGate (step s (.registerGate gateId address now)) g) = timesOf (getGate s g) ∨
      timesOf (getGate (step s (.registerGate gateId address now)) g) =
        some (now.millis, now.millis)
  beat : ∀ {s gateId r} connections now, kept s gateId = some r →
    timesOf (getGate (step s (.gateHeartbeat gateId connections now)) gateId) =
      some (r, now.seconds)
  beat_other : ∀ s gateId connections now g,
    timesOf (getGate (step s (.gateHeartbeat gateId connections now)) g) = timesOf (getGate s g) ∨
      ∃ r, kept s gateId = some r ∧ kept s g = some r ∧
        timesOf (getGate (step s (.gateHeartbeat gateId connections now)) g) =
          some (r, now.seconds)
  expire : ∀ s gateId g,
    timesOf (getGate (step s (.expired gateId)) g) = timesOf (getGate s g) ∨
      timesOf (getGate (step s (.expired gateId)) g) = none

namespace GateStore
variable {S : Type} {store : GateStore S} {s : S} {a : GateCall} {xs : List GateCall}

def TimesOrdered (store : GateStore S) (s : S) : Prop :=
  ∀ g node, store.getGate s g = some node → node.registeredAt ≤ node.lastHeartbeat

/-- The step takes the last heartbeat of no gate back, if it is a heartbeat. -/
def BeatsForward (store : GateStore S) (s : S) : GateCall → Prop
  | .gateHeartbeat gateId connections now => ∀ g node node', store.getGate s g = some node →
    store.getGate (store.step s (.gateHeartbeat gateId connections now)) g = some node' →
    node.lastHeartbeat ≤ node'.lastHeartbeat
  | _ => True

/-- A heartbeat comes when the seconds since the epoch have reached the registration time of the
record it writes to. -/
def BeatInTime (store : GateStore S) (s : S) : GateCall → Prop
  | .gateHeartbeat gateId _ now => ∀ r ∈ store.kept s gateId, r ≤ now.seconds
  | _ => True

/-- A run up to a clock reading: a gate was last heard of when it registered, or by that time. -/
def HeardBy (store : GateStore S) (clock : Option Instant) (s : S) : Prop :=
  ∀ g r l, timesOf (store.getGate s g) = some (r, l) → l = r ∨ ∃ t, clock = some t ∧ l ≤ t.seconds

theorem timesOrdered_iff : store.TimesOrdered s ↔
    ∀ g r l, timesOf (store.getGate s g) = some (r, l) → r ≤ l := by
  constructor
  · intro h g r l hg
    obtain ⟨node, hnode, htimes⟩ := Option.map_eq_some_iff.mp hg
    obtain ⟨rfl, rfl⟩ := Prod.mk.inj htimes
    exact h g node hnode
  · intro h g node hnode
    exact h g _ _ (by rw [hnode]; rfl)

/-- A call leaves times that are in order exactly when a heartbeat comes in time. -/
theorem timesOrdered_step (h : store.TimesOrdered s) (a : GateCall) :
    store.TimesOrdered (store.step s a) ↔ store.BeatInTime s a := by
  rw [timesOrdered_iff] at h ⊢
  cases a with
  | registerGate gateId address now =>
    refine iff_of_true ?_ trivial
    intro g r l hg
    rcases store.register s gateId address now g with hsame | hnew
    · exact h g r l (hsame ▸ hg)
    · rw [hnew] at hg
      cases hg
      exact le_rfl
  | gateHeartbeat gateId connections now =>
    constructor
    · intro hafter r hr
      exact hafter gateId r now.seconds (store.beat connections now hr)
    · intro hin g r l hg
      rcases store.beat_other s gateId connections now g with hsame | ⟨r', hr', _, hnew⟩
      · exact h g r l (hsame ▸ hg)
      · rw [hnew] at hg
        cases hg
        exact hin r hr'
  | expired gateId =>
    refine iff_of_true ?_ trivial
    intro g r l hg
    rcases store.expire s gateId g with hsame | hnone
    · exact h g r l (hsame ▸ hg)
    · rw [hnone] at hg
      cases hg

theorem HeardBy.later {clock : Option Instant} (h : store.HeardBy clock s)
    (hfit : ClockFit clock a) : store.HeardBy (clockAfter clock a) s := by
  intro g r l hg
  rcases h g r l hg with heq | ⟨t, ht, hle⟩
  · exact Or.inl heq
  · refine Or.inr ?_
    cases hnow : a.now with
    | none => exact ⟨t, by simpa [clockAfter, hnow] using ht, hle⟩
    | some u =>
      have hmono := Instant.seconds_mono (hfit t ht u hnow)
      exact ⟨u, by simp [clockAfter, hnow], hle.trans hmono⟩

theorem HeardBy.step {clock : Option Instant} (h : store.HeardBy clock s) (hfit : ClockFit clock a) :
    store.HeardBy (clockAfter clock a) (store.step s a) := by
  have hlater := h.later hfit
  intro g r l hg
  cases a with
  | registerGate gateId address now =>
    rcases store.register s gateId address now g with hsame | hnew
    · exact hlater g r l (hsame ▸ hg)
    · rw [hnew] at hg
      cases hg
      exact Or.inl rfl
  | gateHeartbeat gateId connections now =>
    rcases store.beat_other s gateId connections now g with hsame | ⟨r', _, _, hnew⟩
    · exact hlater g r l (hsame ▸ hg)
    · rw [hnew] at hg
      cases hg
      exact Or.inr ⟨now, rfl, le_rfl⟩
  | expired gateId =>
    rcases store.expire s gateId g with hsame | hnone
    · exact hlater g r l (hsame ▸ hg)
    · rw [hnone] at hg
      cases hg

/-- A heartbeat in time takes no last heartbeat back. -/
theorem beatsForward_of_inTime {clock : Option Instant} (h : store.HeardBy clock s)
    (hfit : ClockFit clock a) (hin : store.BeatInTime s a) : store.BeatsForward s a := by
  cases a with
  | registerGate gateId address now => exact trivial
  | expired gateId => exact trivial
  | gateHeartbeat gateId connections now =>
    intro g node node' hnode hnode'
    have hbefore : timesOf (store.getGate s g) = some (node.registeredAt, node.lastHeartbeat) := by
      rw [hnode]
      rfl
    have hafter : timesOf (store.getGate (store.step s (.gateHeartbeat gateId connections now)) g) =
        some (node'.registeredAt, node'.lastHeartbeat) := by
      rw [hnode']
      rfl
    rcases store.beat_other s gateId connections now g with hsame | ⟨r, hr, hrg, hnew⟩
    · rw [hsame, hbefore] at hafter
      exact le_of_eq (Prod.mk.inj (Option.some.inj hafter)).2
    · have hsame : r = node.registeredAt :=
        Option.some.inj (hrg.symm.trans (store.kept_of_times hbefore))
      have hlast : now.seconds = node'.lastHeartbeat :=
        (Prod.mk.inj (Option.some.inj (hnew.symm.trans hafter))).2
      rw [← hlast]
      rcases h g _ _ hbefore with heq | ⟨t, ht, hle⟩
      · rw [heq, ← hsame]
        exact hin r hr
      · exact hle.trans (Instant.seconds_mono (hfit t ht now rfl))

/-- On a clock that never goes back, the times stay in order and no heartbeat takes them back exactly
when each heartbeat comes in time. -/
theorem timesOrdered_iff_beatInTime {clock : Option Instant} (hheard : store.HeardBy clock s)
    (hordered : store.TimesOrdered s) (hclock : AllSteps clockAfter ClockFit clock xs) :
    (Always store.step store.TimesOrdered s xs ∧ AllSteps store.step store.BeatsForward s xs) ↔
      AllSteps store.step store.BeatInTime s xs := by
  have hJ : ∀ clock s a, store.HeardBy clock s → ClockFit clock a → store.BeatInTime s a →
      store.HeardBy (clockAfter clock a) (store.step s a) := fun _ _ _ hJ hf _ => hJ.step hf
  have halways : Always store.step store.TimesOrdered s xs ↔
      AllSteps store.step store.BeatInTime s xs :=
    always_iff_allSteps_account hJ (fun _ _ a _ _ hP => timesOrdered_step hP a) hheard hordered
      hclock
  rw [halways]
  refine ⟨fun h => h.1, fun h => ⟨h, ?_⟩⟩
  let Both (s : S) (a : GateCall) : Prop := store.BeatsForward s a ∧ store.BeatInTime s a
  have hD : ∀ clock s a, store.HeardBy clock s → ClockFit clock a →
      (Both s a ↔ store.BeatInTime s a) :=
    fun _ _ _ hJ hf => and_iff_right_of_imp (beatsForward_of_inTime hJ hf)
  have hboth : AllSteps store.step Both s xs ↔ AllSteps store.step store.BeatInTime s xs :=
    allSteps_iff_account hJ hD hheard hclock
  exact (hboth.mpr h).imp (I := fun _ => True) (fun _ _ _ _ => trivial) (fun _ _ _ hb => hb.1) trivial

end GateStore

/-! The memory store. -/

section Memory
variable {s : SessionStore} {g gateId address : Bytes}

theorem memory_beat_of_some {node : GateNode} (h : s.getGate gateId = some node) (connections n : Int) :
    (s.updateGateHeartbeat gateId connections n).1.gates = s.gates.put gateId
      { node with currentConnections := connections, lastHeartbeat := n } := by
  simp only [SessionStore.getGate] at h
  simp only [SessionStore.updateGateHeartbeat, h]

theorem memory_beat_of_none (h : s.getGate gateId = none) (connections n : Int) :
    (s.updateGateHeartbeat gateId connections n).1 = s := by
  simp only [SessionStore.getGate] at h
  simp only [SessionStore.updateGateHeartbeat, h]

/-- A heartbeat for an unknown gate is refused. -/
def memoryGates : GateStore SessionStore where
  getGate := SessionStore.getGate
  step := memoryGateStep
  kept s g := (s.getGate g).map GateNode.registeredAt
  kept_of_times := by
    intro s g r l h
    obtain ⟨node, hnode, htimes⟩ := Option.map_eq_some_iff.mp h
    rw [hnode, Option.map_some, (Prod.mk.inj htimes).1]
  register := by
    intro s gateId address now g
    simp only [memoryGateStep, SessionStore.registerGate, SessionStore.getGate]
    by_cases h : g = gateId
    · subst h
      refine Or.inr ?_
      rw [show (registeredNode g address now).gateId = g from rfl, OrderedMap.get_put_self]
      rfl
    · refine Or.inl ?_
      rw [show (registeredNode gateId address now).gateId = gateId from rfl,
        OrderedMap.get_put_ne h]
  beat := by
    intro s gateId r connections now h
    obtain ⟨node, hnode, rfl⟩ := Option.map_eq_some_iff.mp h
    simp only [memoryGateStep, SessionStore.getGate, memory_beat_of_some hnode,
      OrderedMap.get_put_self]
    rfl
  beat_other := by
    intro s gateId connections now g
    cases hnode : s.getGate gateId with
    | none =>
      refine Or.inl ?_
      rw [memoryGateStep, memory_beat_of_none hnode]
    | some node =>
      by_cases h : g = gateId
      · subst h
        refine Or.inr ⟨node.registeredAt, rfl, by rw [hnode]; rfl, ?_⟩
        simp only [memoryGateStep, SessionStore.getGate, memory_beat_of_some hnode,
          OrderedMap.get_put_self]
        rfl
      · refine Or.inl ?_
        simp only [memoryGateStep, SessionStore.getGate, memory_beat_of_some hnode,
          OrderedMap.get_put_ne h]
  expire := fun _ _ _ => Or.inl rfl

end Memory

/-! The store in Redis. -/

namespace RedisSessionStore
open Redis
variable {db : Store} {g : Bytes} {h : OrderedMap Bytes Bytes} {key key' : Bytes}

/-- A number in a hash; zero where there is none that can be read. -/
def numberIn (h : OrderedMap Bytes Bytes) (field : Bytes) : Int :=
  ((h.get field).bind stoll).getD 0

def gateKey (g : Bytes) : Bytes := cString (kGatePrefix ++ g)

/-- The times under a key, where there is a hash. -/
def timesAt (db : Store) (key : Bytes) : Option (Int × Int) :=
  match db.get key with
  | some (.hash h) =>
    if h.entries = [] then none
    else some (numberIn h (str "registered_at"), numberIn h (str "last_heartbeat"))
  | _ => none

theorem foldl_number (part : GateNode → Int) {field : Bytes}
    (hpart : ∀ x e, part (readGateField x e) =
      if e.1 = field then (stoll e.2).getD (part x) else part x)
    (hzero : part { gateId := g } = 0) :
    part (h.entries.foldl readGateField { gateId := g }) = numberIn h field := by
  rw [OrderedMap.foldl_entries part (fun old v => (stoll v).getD old) (k := field) ?_, hzero,
    numberIn]
  · cases h.get field <;> rfl
  · intro x e
    rw [hpart]
    congr

theorem timesOf_getGate (db : Store) (g : Bytes) :
    timesOf (getGate db g) = timesAt db (gateKey g) := by
  rw [getGate, ← gateKey, hgetall, hashAt, timesAt]
  cases hv : db.get (gateKey g) with
  | none => rfl
  | some v =>
    cases v with
    | set m => rfl
    | hash h =>
      dsimp only
      by_cases hne : h.entries = []
      · simp [hne, parseGateNodeHash, timesOf]
      · rw [parseGateNodeHash_entries hne, if_neg hne, timesOf, Option.map_some]
        congr 2
        · exact foldl_number GateNode.registeredAt (by simp [readGateField_eq]) rfl
        · exact foldl_number GateNode.lastHeartbeat (by simp [readGateField_eq]) rfl

theorem numberIn_setFields_of_mem {fields : List (Bytes × Bytes)} {field : Bytes} {z : Int}
    (hn : (fields.map Prod.fst).Nodup) (hv : (field, formatInt z) ∈ fields) (hz : InRange 63 z) :
    numberIn (setFields h fields) field = z := by
  rw [numberIn, get_setFields hn hv, Option.bind_some, stoll_formatInt hz, Option.getD_some]

theorem numberIn_setFields_of_not_mem {fields : List (Bytes × Bytes)} {field : Bytes}
    (hf : field ∉ fields.map Prod.fst) : numberIn (setFields h fields) field = numberIn h field := by
  rw [numberIn, get_setFields_of_not_mem hf, numberIn]

theorem expire_fst (db : Store) (key : Bytes) {seconds : Int} (hs : 0 < seconds) :
    (expire db key seconds).1 = db := by
  unfold expire
  split
  · rw [if_neg (not_le_of_gt hs)]
  · rfl

theorem timesAt_congr {db' : Store} (hk : db'.get key = db.get key) :
    timesAt db' key = timesAt db key := by
  rw [timesAt, timesAt, hk]

/-- A set is never read as a gate. -/
theorem timesAt_sadd (db : Store) (k member key : Bytes) :
    timesAt (sadd db k member).1 key = timesAt db key := by
  unfold sadd
  cases hset : setAt db k with
  | none => rfl
  | some m =>
    by_cases hk : key = k
    · subst hk
      have hold : timesAt db key = none := by
        rw [timesAt]
        rw [setAt] at hset
        split at hset
        · rename_i hget
          rw [hget]
        · rename_i hget
          rw [hget]
        · cases hset
      rw [hold, timesAt, OrderedMap.get_put_self]
    · exact timesAt_congr (OrderedMap.get_put_ne hk)

/-- What a hash write does to the times. -/
theorem timesAt_hmset (db : Store) (key : Bytes) {fields : List (Bytes × Bytes)}
    {f : Bytes × Bytes} (hn : (fields.map Prod.fst).Nodup) (hf : f ∈ fields) (key' : Bytes) :
    timesAt (hmset db key fields).1 key' = timesAt db key' ∨
      key' = key ∧ ∃ h, hashAt db key = some h ∧ timesAt (hmset db key fields).1 key =
        some (numberIn (setFields h fields) (str "registered_at"),
          numberIn (setFields h fields) (str "last_heartbeat")) := by
  cases hh : hashAt db key with
  | none => exact Or.inl (by simp only [hmset, hh])
  | some h =>
    rw [hmset_eq hh]
    by_cases hk : key' = key
    · refine Or.inr ⟨hk, h, rfl, ?_⟩
      rw [timesAt, OrderedMap.get_put_self]
      exact if_neg (entries_ne_nil (get_setFields hn hf))
    · exact Or.inl (timesAt_congr (OrderedMap.get_put_ne hk))

theorem timesAt_registerGate (db : Store) (node : GateNode) (key : Bytes) :
    timesAt (registerGate db node).1 key =
      timesAt (hmset db (gateKey node.gateId) (gateFields node)).1 key := by
  simp only [registerGate]
  rw [← gateKey]
  split
  · rfl
  · split
    · rw [expire_fst _ _ (by decide)]
    · rw [timesAt_sadd, expire_fst _ _ (by decide)]

/-- The fields that a heartbeat writes. -/
def beatFields (connections nowSeconds : Int) : List (Bytes × Bytes) :=
  [(str "current_connections", formatInt connections), (str "last_heartbeat", formatInt nowSeconds)]

theorem updateGateHeartbeat_fst (db : Store) (g : Bytes) (connections nowSeconds : Int) :
    (updateGateHeartbeat db g connections nowSeconds).1 =
      (hmset db (gateKey g) (beatFields connections nowSeconds)).1 := by
  simp only [updateGateHeartbeat]
  rw [expire_fst _ _ (by decide), hset_fst]
  rfl

theorem beatFields_nodup (connections nowSeconds : Int) :
    ((beatFields connections nowSeconds).map Prod.fst).Nodup := by
  change ((beatFields 0 0).map Prod.fst).Nodup
  decide

/-- A registration sets both times. -/
theorem timesAt_register (db : Store) (g address : Bytes) (now : Instant) (key : Bytes) :
    timesAt (registerGate db (registeredNode g address now)).1 key = timesAt db key ∨
      timesAt (registerGate db (registeredNode g address now)).1 key =
        some (now.millis, now.millis) := by
  have hfits : InRange 63 now.millis := Instant.tdiv_fits now.fits (by decide)
  rw [timesAt_registerGate]
  rcases timesAt_hmset db (gateKey (registeredNode g address now).gateId) (gateFields_nodup _)
    (List.mem_cons_self (l := _)) key with hsame | ⟨hkey, h, _, hnew⟩
  · exact Or.inl hsame
  · refine Or.inr ?_
    rw [hkey, hnew, numberIn_setFields_of_mem (z := now.millis) (gateFields_nodup _) ?_ hfits,
      numberIn_setFields_of_mem (z := now.millis) (gateFields_nodup _) ?_ hfits]
    · simp [gateFields, registeredNode]
    · simp [gateFields, registeredNode]

/-- The registration time in the record that a heartbeat writes to; a record that it creates has
none. -/
def keptAt (db : Store) (key : Bytes) : Option Int :=
  (hashAt db key).map (fun h => numberIn h (str "registered_at"))

theorem keptAt_of_timesAt {r l : Int} (h : timesAt db key = some (r, l)) : keptAt db key = some r := by
  rw [timesAt] at h
  split at h
  · rename_i h' hget
    split at h
    · cases h
    · rw [keptAt, hashAt, hget, Option.map_some, (Prod.mk.inj (Option.some.inj h)).1]
  · cases h

/-- A heartbeat sets the last one, and keeps the registration. -/
theorem timesAt_beat {r : Int} (hr : keptAt db key = some r) (connections : Int) (now : Instant) :
    timesAt (hmset db key (beatFields connections now.seconds)).1 key = some (r, now.seconds) := by
  have hfits : InRange 63 now.seconds := Instant.tdiv_fits now.fits (by decide)
  have hn := beatFields_nodup connections now.seconds
  have hlast : (str "last_heartbeat", formatInt now.seconds) ∈ beatFields connections now.seconds := by
    simp [beatFields]
  have hother : str "registered_at" ∉ (beatFields connections now.seconds).map Prod.fst := by
    change str "registered_at" ∉ (beatFields 0 0).map Prod.fst
    decide
  obtain ⟨h, hh, rfl⟩ := Option.map_eq_some_iff.mp hr
  rw [hmset_eq hh, timesAt, OrderedMap.get_put_self]
  dsimp only
  rw [if_neg (entries_ne_nil (get_setFields hn hlast)), numberIn_setFields_of_not_mem hother,
    numberIn_setFields_of_mem hn hlast hfits]

end RedisSessionStore

open RedisSessionStore in
/-- A heartbeat for a gate that Redis does not have creates it, without a registration time. -/
def redisGates : GateStore Redis.Store where
  getGate := RedisSessionStore.getGate
  step := redisGateStep
  kept db g := keptAt db (gateKey g)
  kept_of_times := by
    intro db g r l h
    exact keptAt_of_timesAt (timesOf_getGate db g ▸ h)
  register := by
    intro db gateId address now g
    rw [timesOf_getGate, timesOf_getGate]
    exact timesAt_register db gateId address now (gateKey g)
  beat := by
    intro db gateId r connections now h
    rw [timesOf_getGate, redisGateStep, updateGateHeartbeat_fst]
    exact timesAt_beat h connections now
  beat_other := by
    intro db gateId connections now g
    rw [timesOf_getGate, timesOf_getGate, redisGateStep, updateGateHeartbeat_fst]
    rcases timesAt_hmset db (gateKey gateId) (beatFields_nodup connections now.seconds)
      (List.mem_cons_self (l := _)) (gateKey g)
      with hsame | ⟨hkey, h, hh, _⟩
    · exact Or.inl hsame
    · have hkept : keptAt db (gateKey gateId) = some (numberIn h (str "registered_at")) := by
        rw [keptAt, hh]
        rfl
      refine Or.inr ⟨_, hkept, hkey ▸ hkept, ?_⟩
      rw [hkey]
      exact timesAt_beat hkept connections now
  expire := by
    intro db gateId g
    rw [timesOf_getGate, timesOf_getGate, redisGateStep, ← gateKey]
    by_cases h : gateKey g = gateKey gateId
    · refine Or.inr ?_
      rw [h, timesAt, OrderedMap.get_delete_self]
    · exact Or.inl (timesAt_congr (OrderedMap.get_delete_ne h))

/-- A store with no gate. -/
theorem GateStore.heardBy_none {S : Type} {store : GateStore S} {s : S}
    (h : ∀ g, store.getGate s g = none) : store.HeardBy none s ∧ store.TimesOrdered s := by
  constructor
  · intro g r l hg
    rw [h g] at hg
    cases hg
  · intro g node hnode
    rw [h g] at hnode
    cases hnode

/-- In the memory store as in Redis: on a clock that never goes back, each gate was last heard of no
earlier than it registered and no heartbeat takes that time back exactly when every heartbeat comes
at a time whose seconds have reached the milliseconds of the registration. -/
theorem gateTimes_ordered_iff (calls : List GateCall) (hclock : ClockForward calls) :
    ((Always memoryGateStep memoryGates.TimesOrdered {} calls ∧
        AllSteps memoryGateStep memoryGates.BeatsForward {} calls) ↔
      AllSteps memoryGateStep memoryGates.BeatInTime {} calls) ∧
    ((Always redisGateStep redisGates.TimesOrdered OrderedMap.empty calls ∧
        AllSteps redisGateStep redisGates.BeatsForward OrderedMap.empty calls) ↔
      AllSteps redisGateStep redisGates.BeatInTime OrderedMap.empty calls) := by
  obtain ⟨hmemory, hmemory'⟩ := memoryGates.heardBy_none (s := {}) (fun _ => rfl)
  obtain ⟨hredis, hredis'⟩ := redisGates.heardBy_none (s := OrderedMap.empty) (fun _ => rfl)
  exact ⟨memoryGates.timesOrdered_iff_beatInTime hmemory hmemory' hclock.fits,
    redisGates.timesOrdered_iff_beatInTime hredis hredis' hclock.fits⟩

/-- The clock so many seconds after the epoch. -/
def secondsAfterEpoch (n : Nat) (h : n < 9000000000) : Instant :=
  ⟨n * 1000000000, by constructor <;> omega⟩

/-- A gate that registers, and is heard of a second later. -/
def registerAndBeat (n : Nat) (h : n + 1 < 9000000000) : List GateCall :=
  [.registerGate (str "gate_1") (str "10.0.0.5:9091") (secondsAfterEpoch n (by omega)),
    .gateHeartbeat (str "gate_1") 3 (secondsAfterEpoch (n + 1) h)]

/-- At the epoch the two units agree. -/
theorem gateTimes_ordered_epoch :
    Always memoryGateStep memoryGates.TimesOrdered {} (registerAndBeat 0 (by decide)) ∧
      Always redisGateStep redisGates.TimesOrdered OrderedMap.empty
        (registerAndBeat 0 (by decide)) := by
  have hclock : ClockForward (registerAndBeat 0 (by decide)) := by
    simp [ClockForward, registerAndBeat, GateCall.now, secondsAfterEpoch]
  obtain ⟨hmemory, hredis⟩ := gateTimes_ordered_iff (registerAndBeat 0 (by decide)) hclock
  constructor
  · refine (hmemory.mpr ⟨trivial, ?_, trivial⟩).1
    have hkept : memoryGates.kept (memoryGateStep {} (.registerGate (str "gate_1")
        (str "10.0.0.5:9091") (secondsAfterEpoch 0 (by omega)))) (str "gate_1") = some 0 := by
      decide +kernel
    intro r hr
    obtain rfl := Option.some.inj (hkept.symm.trans hr)
    decide +kernel
  · refine (hredis.mpr ⟨trivial, ?_, trivial⟩).1
    have hkept : redisGates.kept (redisGateStep .empty (.registerGate (str "gate_1")
        (str "10.0.0.5:9091") (secondsAfterEpoch 0 (by omega)))) (str "gate_1") = some 0 := by
      decide +kernel
    intro r hr
    obtain rfl := Option.some.inj (hkept.symm.trans hr)
    decide +kernel

/-- Milliseconds of 2023, and then seconds of 2023. -/
theorem gateTimes_mixed :
    ¬ (∀ calls, ClockForward calls → Always memoryGateStep memoryGates.TimesOrdered {} calls) ∧
      ¬ ∀ calls, ClockForward calls →
        Always redisGateStep redisGates.TimesOrdered OrderedMap.empty calls := by
  have hclock : ClockForward (registerAndBeat 1700000000 (by decide)) := by
    simp [ClockForward, registerAndBeat, GateCall.now, secondsAfterEpoch]
  constructor
  · intro h
    have hlast := (h _ hclock).last
    have hgate : memoryGates.getGate (run memoryGateStep {} (registerAndBeat 1700000000 (by decide)))
        (str "gate_1") = some ⟨str "gate_1", str "10.0.0.5:9091", 3, 1700000000000, 1700000001⟩ := by
      decide +kernel
    exact absurd (hlast _ _ hgate) (by decide)
  · intro h
    have hlast := (h _ hclock).last
    have hgate : redisGates.getGate (run redisGateStep .empty (registerAndBeat 1700000000 (by decide)))
        (str "gate_1") = some ⟨str "gate_1", str "10.0.0.5:9091", 3, 1700000000000, 1700000001⟩ := by
      decide +kernel
    exact absurd (hlast _ _ hgate) (by decide)

end SwiftChat.Zone
