import SwiftChat.Base.OrderedMap
import Mathlib.Data.List.TakeWhile

/-! A Redis server as a map from keys to hashes and sets: the commands on them and their replies. -/
namespace Base

/-- An argument passed as a C string ends before its first zero byte. -/
def cString (s : Bytes) : Bytes := s.takeWhile (· ≠ 0)

theorem cString_eq_self {s : Bytes} (h : 0 ∉ s) : cString s = s := by
  apply List.takeWhile_eq_self_iff.mpr
  intro b hb
  have : b ≠ 0 := fun h0 => h (h0 ▸ hb)
  simpa using this

namespace Redis

inductive Value where
  | hash (fields : OrderedMap Bytes Bytes)
  | set (members : OrderedMap Bytes Unit)

inductive Reply where
  | status (text : Bytes)
  | string (value : Bytes)
  | integer (value : Int)
  | array (elements : List Reply)
  | error (text : Bytes)

abbrev Store := OrderedMap Bytes Value

def wrongType : Reply :=
  .error (str "WRONGTYPE Operation against a key holding the wrong kind of value")

/-- The hash under a key, empty where the key is absent. -/
def hashAt (db : Store) (key : Bytes) : Option (OrderedMap Bytes Bytes) :=
  match db.get key with
  | none => some .empty
  | some (.hash h) => some h
  | some (.set _) => none

/-- The set under a key, empty where the key is absent. -/
def setAt (db : Store) (key : Bytes) : Option (OrderedMap Bytes Unit) :=
  match db.get key with
  | none => some .empty
  | some (.set m) => some m
  | some (.hash _) => none

def setFields (h : OrderedMap Bytes Bytes) (fields : List (Bytes × Bytes)) :
    OrderedMap Bytes Bytes :=
  fields.foldl (fun h f => h.put f.1 f.2) h

def hmset (db : Store) (key : Bytes) (fields : List (Bytes × Bytes)) : Store × Reply :=
  match hashAt db key with
  | none => (db, wrongType)
  | some h => (db.put key (.hash (setFields h fields)), .status (str "OK"))

/-- The same write, answered with the number of fields it added. -/
def hset (db : Store) (key : Bytes) (fields : List (Bytes × Bytes)) : Store × Reply :=
  match hashAt db key with
  | none => (db, wrongType)
  | some h =>
    (db.put key (.hash (setFields h fields)),
      .integer ((setFields h fields).entries.length - h.entries.length))

def hgetall (db : Store) (key : Bytes) : Reply :=
  match hashAt db key with
  | none => wrongType
  | some h => .array (h.entries.flatMap fun e => [.string e.1, .string e.2])

def existsKey (db : Store) (key : Bytes) : Reply := .integer (if (db.get key).isSome then 1 else 0)

def del (db : Store) (key : Bytes) : Store × Reply :=
  (db.delete key, .integer (if (db.get key).isSome then 1 else 0))

/-- A deadline in the past removes the key; a later one has not passed. -/
def expire (db : Store) (key : Bytes) (seconds : Int) : Store × Reply :=
  if (db.get key).isSome then
    (if seconds ≤ 0 then db.delete key else db, .integer 1)
  else (db, .integer 0)

def sadd (db : Store) (key member : Bytes) : Store × Reply :=
  match setAt db key with
  | none => (db, wrongType)
  | some m =>
    (db.put key (.set (m.put member ())), .integer (if (m.get member).isSome then 0 else 1))

/-- A set that loses its last member goes with it. -/
def srem (db : Store) (key member : Bytes) : Store × Reply :=
  match setAt db key with
  | none => (db, wrongType)
  | some m =>
    let rest := m.delete member
    (if rest.entries = [] then db.delete key else db.put key (.set rest),
      .integer (if (m.get member).isSome then 1 else 0))

def smembers (db : Store) (key : Bytes) : Reply :=
  match setAt db key with
  | none => wrongType
  | some m => .array (m.entries.map fun e => .string e.1)

section
variable {db : Store} {key key' member : Bytes} {h h' : OrderedMap Bytes Bytes}
  {m : OrderedMap Bytes Unit} {fields fields' : List (Bytes × Bytes)} {k v : Bytes}

theorem get_setFields_of_not_mem (hk : k ∉ fields.map Prod.fst) :
    (setFields h fields).get k = h.get k := by
  induction fields generalizing h with
  | nil => rfl
  | cons f fields ih =>
    change (setFields (h.put f.1 f.2) fields).get k = h.get k
    obtain ⟨hf, hk⟩ := List.ne_and_not_mem_of_not_mem_cons hk
    rw [ih hk, OrderedMap.get_put_ne hf]

theorem get_setFields_of_mem (hk : k ∈ fields.map Prod.fst) :
    (setFields h fields).get k = (setFields h' fields).get k := by
  induction fields generalizing h h' with
  | nil => cases hk
  | cons f fields ih =>
    change (setFields (h.put f.1 f.2) fields).get k = (setFields (h'.put f.1 f.2) fields).get k
    by_cases hlater : k ∈ fields.map Prod.fst
    · exact ih hlater
    · have hf : k = f.1 := (List.mem_cons.mp hk).resolve_right hlater
      rw [get_setFields_of_not_mem hlater, get_setFields_of_not_mem hlater, hf,
        OrderedMap.get_put_self, OrderedMap.get_put_self]

/-- Among fields of different names, each holds what it was given. -/
theorem get_setFields (hn : (fields.map Prod.fst).Nodup) (hv : (k, v) ∈ fields) :
    (setFields h fields).get k = some v := by
  induction fields generalizing h with
  | nil => cases hv
  | cons f fields ih =>
    obtain ⟨hf, hn⟩ := List.nodup_cons.mp hn
    change (setFields (h.put f.1 f.2) fields).get k = some v
    rcases List.mem_cons.mp hv with rfl | hv
    · rw [get_setFields_of_not_mem hf, OrderedMap.get_put_self]
    · exact ih hn hv

/-- What a loop over a hash makes of one of the fields it was given. -/
theorem foldl_setFields {σ α : Type*} {visit : σ → Bytes × Bytes → σ} (part : σ → α)
    (f : α → Bytes → α) (hn : (fields.map Prod.fst).Nodup) (hv : (k, v) ∈ fields)
    (hpart : ∀ x e, part (visit x e) = if e.1 = k then f (part x) e.2 else part x) (x : σ) :
    part ((setFields h fields).entries.foldl visit x) = f (part x) v := by
  rw [OrderedMap.foldl_entries part f, get_setFields hn hv]
  · rfl
  · intro x e
    rw [hpart]
    congr

/-- Writing the same fields again replaces all of them. -/
theorem setFields_setFields (hn : fields.map Prod.fst = fields'.map Prod.fst) :
    setFields (setFields h fields) fields' = setFields h fields' := by
  apply OrderedMap.ext_get
  intro k
  by_cases hk : k ∈ fields'.map Prod.fst
  · exact get_setFields_of_mem hk
  · rw [get_setFields_of_not_mem hk, get_setFields_of_not_mem hk,
      get_setFields_of_not_mem (hn ▸ hk)]

/-- Writing some of the fields replaces these. -/
theorem setFields_some {changed : List (Bytes × Bytes)}
    (hnames : fields.map Prod.fst = fields'.map Prod.fst) (hn : (fields.map Prod.fst).Nodup)
    (hc : (changed.map Prod.fst).Nodup) (hnew : ∀ f ∈ changed, f ∈ fields')
    (hold : ∀ f ∈ fields', f ∈ changed ∨ f ∈ fields) :
    setFields (setFields h fields) changed = setFields h fields' := by
  apply OrderedMap.ext_get
  intro k
  have hn' : (fields'.map Prod.fst).Nodup := hnames ▸ hn
  by_cases hk : k ∈ changed.map Prod.fst
  · obtain ⟨⟨_, v⟩, hf, rfl⟩ := List.mem_map.mp hk
    rw [get_setFields hc hf, get_setFields hn' (hnew _ hf)]
  · rw [get_setFields_of_not_mem hk]
    by_cases hk' : k ∈ fields'.map Prod.fst
    · obtain ⟨⟨_, v⟩, hf, rfl⟩ := List.mem_map.mp hk'
      have hf' := (hold _ hf).resolve_left fun hch => hk (List.mem_map_of_mem hch)
      rw [get_setFields hn hf', get_setFields hn' hf]
    · rw [get_setFields_of_not_mem hk', get_setFields_of_not_mem (hnames ▸ hk')]

theorem hmset_eq (hh : hashAt db key = some h) :
    hmset db key fields = (db.put key (.hash (setFields h fields)), .status (str "OK")) := by
  simp only [hmset, hh]

theorem hset_fst : (hset db key fields).1 = (hmset db key fields).1 := by
  simp only [hset, hmset]
  split <;> rfl

/-- The key of a hash write exists afterwards, also where the write was refused. -/
theorem hset_isSome : ((hset db key fields).1.get key).isSome := by
  simp only [hset, hashAt]
  cases hk : db.get key with
  | none => simp
  | some v =>
    cases v with
    | hash h => simp
    | set m => simp [hk]

theorem expire_eq (hk : (db.get key).isSome) {seconds : Int} (hs : 0 < seconds) :
    expire db key seconds = (db, .integer 1) := by
  simp [expire, hk, not_le_of_gt hs]

theorem setAt_put_self : setAt (db.put key (.set m)) key = some m := by
  simp [setAt]

theorem setAt_congr {db' : Store} (hk : db'.get key = db.get key) :
    setAt db' key = setAt db key := by
  simp only [setAt, hk]

theorem setAt_delete_self : setAt (db.delete key) key = some .empty := by
  simp [setAt]

theorem sadd_eq (hm : setAt db key = some m) :
    sadd db key member = (db.put key (.set (m.put member ())),
      .integer (if (m.get member).isSome then 0 else 1)) := by
  simp only [sadd, hm]

theorem setAt_srem (hm : setAt db key = some m) :
    setAt (srem db key member).1 key = some (m.delete member) := by
  simp only [srem, hm]
  split
  · rename_i hnil
    rw [setAt_delete_self]
    congr 1
    apply OrderedMap.ext_get
    intro k
    simp only [OrderedMap.get, hnil]
    rfl
  · exact setAt_put_self

theorem get_srem_ne (hne : key' ≠ key) : (srem db key member).1.get key' = db.get key' := by
  simp only [srem]
  split
  · rfl
  · dsimp only
    split
    · exact OrderedMap.get_delete_ne hne
    · exact OrderedMap.get_put_ne hne

end
end Redis
end Base
