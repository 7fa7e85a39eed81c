import SwiftChat.Auth.UserStore
import SwiftChat.Base.Run

/-! Every user is found by one name, through creations and renames. -/
namespace SwiftChat.Auth
open Base
variable {db : UserDb} {user u x y : UserData} {id n k : Bytes} {v : UserValue}

inductive UserOp where
  | create (user : UserData)
  | update (user : UserData)

def UserOp.call (db : UserDb) : UserOp → UserDb × Bool
  | .create user => UserStore.create db user
  | .update user => UserStore.update db user

def userStep (db : UserDb) (op : UserOp) : UserDb := (op.call db).1

/-- New users have a new id, and every user has a name. -/
def UserOk (db : UserDb) : UserOp → Prop
  | .create user =>
    user.userId ≠ [] ∧ UserStore.getById db user.userId = none ∧ user.username ≠ []
  | .update user => user.username ≠ []

/-- What a name leads to is the user of that name; a user is led to by the current name and no
other; and no name is shared. -/
structure NamesRight (db : UserDb) : Prop where
  byName : ∀ n x, UserStore.getByUsername db n = some x →
    x.username = n ∧ UserStore.getById db x.userId = some x
  found : ∀ id x, UserStore.getById db id = some x →
    x.userId = id ∧ ∀ n, UserStore.getByUsername db n = some x ↔ n = x.username
  unshared : ∀ id id' x y, UserStore.getById db id = some x → UserStore.getById db id' = some y →
    x.username = y.username → id = id'

/-- A call that is refused leaves the store as it was. -/
def RefusalClean (db : UserDb) (op : UserOp) : Prop := (op.call db).2 = false → userStep db op = db

/-- The records and the index entries, as they are kept, lead to each other. -/
structure Indexed (db : UserDb) : Prop where
  record : ∀ id v, db.get (keyUser id) = some v → ∃ u : UserData, v = serializeUser u ∧
    u.userId = id ∧ id ≠ [] ∧ u.username ≠ [] ∧ db.get (keyUsername u.username) = some (.text id)
  entry : ∀ n v, db.get (keyUsername n) = some v → ∃ u : UserData, v = .text u.userId ∧
    u.username = n ∧ db.get (keyUser u.userId) = some (serializeUser u)

theorem indexed_empty : Indexed OrderedMap.empty where
  record id v h := by cases h
  entry n v h := by cases h

/-! Reading under the invariant. -/

theorem getById_eq_some (h : Indexed db) :
    UserStore.getById db id = some x ↔
      ∃ u : UserData, db.get (keyUser id) = some (serializeUser u) ∧ x = u.stored := by
  constructor
  · intro hx
    unfold UserStore.getById at hx
    split at hx
    · cases hx
    · cases hv : db.get (keyUser id) with
      | none =>
        rw [hv] at hx
        cases hx
      | some v =>
        obtain ⟨u, rfl, _⟩ := h.record id v hv
        rw [hv, Option.bind_some, deserialize_serializeUser] at hx
        exact ⟨u, rfl, (Option.some.inj hx).symm⟩
  · rintro ⟨u, hu, rfl⟩
    obtain ⟨_, _, _, hne, _⟩ := h.record id _ hu
    rw [UserStore.getById, if_neg hne, hu, Option.bind_some, deserialize_serializeUser]

theorem get_eq_none_of_getById (h : Indexed db)
    (hnone : UserStore.getById db id = none) : db.get (keyUser id) = none := by
  cases hv : db.get (keyUser id) with
  | none => rfl
  | some v =>
    obtain ⟨u, rfl, _⟩ := h.record id v hv
    rw [(getById_eq_some h).mpr ⟨u, hv, rfl⟩] at hnone
    cases hnone

theorem stored_eq_of_serialize (h : serializeUser u = serializeUser x) : u.stored = x.stored := by
  have hdecode := congrArg deserializeUser h
  rw [deserialize_serializeUser, deserialize_serializeUser] at hdecode
  exact Option.some.inj hdecode

/-- The record that is kept for an id, and the entry that leads to it. -/
theorem Indexed.kept (h : Indexed db) (hu : db.get (keyUser id) = some (serializeUser u)) :
    u.stored.userId = id ∧ u.stored.username ≠ [] ∧
      db.get (keyUsername u.stored.username) = some (.text id) := by
  obtain ⟨u', hu', hid, _, hname, hentry⟩ := h.record id _ hu
  rw [stored_eq_of_serialize hu']
  exact ⟨hid, hname, hentry⟩

theorem getByUsername_eq_some (h : Indexed db) :
    UserStore.getByUsername db n = some x ↔
      ∃ id, db.get (keyUsername n) = some (.text id) ∧ UserStore.getById db id = some x := by
  constructor
  · intro hx
    unfold UserStore.getByUsername at hx
    split at hx
    · cases hx
    · split at hx
      · rename_i id hid
        exact ⟨id, hid, hx⟩
      · cases hx
  · rintro ⟨id, hid, hx⟩
    obtain ⟨u, _, rfl, hu⟩ := h.entry n _ hid
    obtain ⟨_, hname, _⟩ := h.kept hu
    have hne : u.username ≠ [] := hname
    simp only [UserStore.getByUsername, hne, if_false, hid, hx]

theorem Indexed.namesRight (h : Indexed db) : NamesRight db := by
  have hbyName : ∀ n x, UserStore.getByUsername db n = some x →
      x.username = n ∧ UserStore.getById db x.userId = some x := by
    intro n x hx
    obtain ⟨id, hentry, hid⟩ := (getByUsername_eq_some h).mp hx
    obtain ⟨u, htext, hname, hu⟩ := h.entry n _ hentry
    obtain rfl : id = u.userId := UserValue.text.inj htext
    have hx' : UserStore.getById db u.userId = some u.stored :=
      (getById_eq_some h).mpr ⟨u, hu, rfl⟩
    obtain rfl := Option.some.inj (hid.symm.trans hx')
    exact ⟨hname, hid⟩
  have hlookup : ∀ id x, UserStore.getById db id = some x →
      x.userId = id ∧ UserStore.getByUsername db x.username = some x := by
    intro id x hx
    obtain ⟨u, hu, rfl⟩ := (getById_eq_some h).mp hx
    obtain ⟨hid, _, hentry⟩ := h.kept hu
    exact ⟨hid, (getByUsername_eq_some h).mpr ⟨id, hentry, hx⟩⟩
  refine ⟨hbyName, ?_, ?_⟩
  · intro id x hx
    refine ⟨(hlookup id x hx).1, ?_⟩
    intro n
    constructor
    · intro hn
      exact (hbyName n x hn).1.symm
    · rintro rfl
      exact (hlookup id x hx).2
  · intro id id' x y hx hy hname
    have hfound := (hlookup id x hx).2
    rw [hname, (hlookup id' y hy).2] at hfound
    obtain rfl := Option.some.inj hfound
    exact (hlookup id y hx).1.symm.trans (hlookup id' y hy).1

/-! Writing. -/

theorem usernameExists_eq_false (hne : n ≠ []) :
    UserStore.usernameExists db n = false ↔ db.get (keyUsername n) = none := by
  rw [UserStore.usernameExists, if_neg hne, Option.isSome_eq_false_iff, Option.isNone_iff_eq_none]

/-- A new user under a free name. -/
theorem Indexed.add (h : Indexed db) (hid : user.userId ≠ [])
    (hnew : db.get (keyUser user.userId) = none) (hname : user.username ≠ [])
    (hfree : db.get (keyUsername user.username) = none) :
    Indexed ((db.put (keyUser user.userId) (serializeUser user)).put (keyUsername user.username)
      (.text user.userId)) := by
  constructor
  · intro id v hv
    rw [OrderedMap.get_put_ne keyUser_ne_keyUsername] at hv
    rcases OrderedMap.get_put_some hv with ⟨hsame, rfl⟩ | ⟨_, hv⟩
    · obtain rfl := keyUser_inj.mp hsame
      exact ⟨user, rfl, rfl, hid, hname, OrderedMap.get_put_self⟩
    · obtain ⟨u, rfl, hu, hne, hun, hentry⟩ := h.record id v hv
      refine ⟨u, rfl, hu, hne, hun, ?_⟩
      have hother : keyUsername u.username ≠ keyUsername user.username := by
        intro he
        rw [he, hfree] at hentry
        cases hentry
      rw [OrderedMap.get_put_ne hother, OrderedMap.get_put_ne keyUser_ne_keyUsername.symm]
      exact hentry
  · intro n v hv
    rcases OrderedMap.get_put_some hv with ⟨hsame, rfl⟩ | ⟨_, hv⟩
    · obtain rfl := keyUsername_inj.mp hsame
      refine ⟨user, rfl, rfl, ?_⟩
      rw [OrderedMap.get_put_ne keyUser_ne_keyUsername, OrderedMap.get_put_self]
    · rw [OrderedMap.get_put_ne keyUser_ne_keyUsername.symm] at hv
      obtain ⟨u, rfl, hun, hu⟩ := h.entry n v hv
      refine ⟨u, rfl, hun, ?_⟩
      have hother : keyUser u.userId ≠ keyUser user.userId := by
        intro he
        rw [he, hnew] at hu
        cases hu
      rw [OrderedMap.get_put_ne keyUser_ne_keyUsername, OrderedMap.get_put_ne hother]
      exact hu

/-- Taking a user out, record and entry. -/
theorem Indexed.remove (h : Indexed db) (hu : db.get (keyUser id) = some (serializeUser u)) :
    Indexed ((db.delete (keyUsername u.username)).delete (keyUser id)) := by
  obtain ⟨hid, _, hentry⟩ := h.kept hu
  constructor
  · intro id' v hv
    obtain ⟨hne, hv⟩ := OrderedMap.get_delete_some hv
    rw [OrderedMap.get_delete_ne keyUser_ne_keyUsername] at hv
    obtain ⟨u', rfl, hu', hne', hun', hentry'⟩ := h.record id' v hv
    refine ⟨u', rfl, hu', hne', hun', ?_⟩
    have hother : keyUsername u'.username ≠ keyUsername u.username := by
      intro he
      rw [he] at hentry'
      have hsame := UserValue.text.inj (Option.some.inj (hentry.symm.trans hentry'))
      exact hne (by rw [hsame])
    rw [OrderedMap.get_delete_ne keyUser_ne_keyUsername.symm, OrderedMap.get_delete_ne hother]
    exact hentry'
  · intro n v hv
    rw [OrderedMap.get_delete_ne keyUser_ne_keyUsername.symm] at hv
    obtain ⟨hne, hv⟩ := OrderedMap.get_delete_some hv
    obtain ⟨u', rfl, hun', hu'⟩ := h.entry n v hv
    refine ⟨u', rfl, hun', ?_⟩
    have hother : keyUser u'.userId ≠ keyUser id := by
      intro he
      rw [he, hu] at hu'
      have hnames := congrArg UserData.username (stored_eq_of_serialize (Option.some.inj hu'))
      have hsame : u.username = u'.username := hnames
      exact hne (by rw [hsame, hun'])
    rw [OrderedMap.get_delete_ne hother, OrderedMap.get_delete_ne keyUser_ne_keyUsername]
    exact hu'

/-- A user is replaced by taking the old record and entry out and putting the new ones in. -/
theorem Indexed.replace (h : Indexed db) (hu : db.get (keyUser user.userId) = some (serializeUser u))
    (hname : user.username ≠ [])
    (hfree : user.username ≠ u.username → db.get (keyUsername user.username) = none) :
    Indexed ((((db.delete (keyUsername u.username)).delete (keyUser user.userId)).put
      (keyUser user.userId) (serializeUser user)).put (keyUsername user.username)
        (.text user.userId)) := by
  obtain ⟨_, _, _, hid, _⟩ := h.record _ _ hu
  refine (h.remove hu).add hid OrderedMap.get_delete_self hname ?_
  rw [OrderedMap.get_delete_ne keyUser_ne_keyUsername.symm, OrderedMap.get_delete]
  split
  · rfl
  · rename_i hne
    exact hfree (fun he => hne (by rw [he]))

theorem create_cases (db : UserDb) (user : UserData) :
    UserStore.create db user = (db, false) ∨
      UserStore.usernameExists db user.username = false ∧
      UserStore.create db user =
        ((db.put (keyUser user.userId) (serializeUser user)).put (keyUsername user.username)
          (.text user.userId), true) := by
  unfold UserStore.create
  cases UserStore.usernameExists db user.username with
  | true => exact Or.inl rfl
  | false => exact Or.inr ⟨rfl, rfl⟩

/-- An update is refused, or replaces the user: by a record alone under the same name, and with
the entry under a new one. -/
theorem update_cases (h : Indexed db) (hname : user.username ≠ []) :
    UserStore.update db user = (db, false) ∨
      ∃ u : UserData, db.get (keyUser user.userId) = some (serializeUser u) ∧
        (user.username ≠ u.username → db.get (keyUsername user.username) = none) ∧
        UserStore.update db user =
          ((((db.delete (keyUsername u.username)).delete (keyUser user.userId)).put
            (keyUser user.userId) (serializeUser user)).put (keyUsername user.username)
              (.text user.userId), true) := by
  cases hx : UserStore.getById db user.userId with
  | none =>
    refine Or.inl ?_
    rw [UserStore.update, hx]
  | some x =>
    obtain ⟨u, hu, rfl⟩ := (getById_eq_some h).mp hx
    obtain ⟨_, _, hentry⟩ := h.kept hu
    by_cases hsame : u.stored.username = user.username
    · refine Or.inr ⟨u, hu, fun hne => absurd hsame.symm hne, ?_⟩
      simp only [UserStore.update, hx, hsame, ne_eq, not_true_eq_false, if_false]
      have hold : u.username = user.username := hsame
      have hkept : db.put (keyUsername u.username) (.text user.userId) = db :=
        OrderedMap.put_same hentry
      rw [OrderedMap.put_delete, OrderedMap.put_comm keyUser_ne_keyUsername, ← hold,
        OrderedMap.put_delete, hkept]
      rfl
    · cases hfree : UserStore.usernameExists db user.username with
      | true =>
        refine Or.inl ?_
        simp only [UserStore.update, hx, ne_eq, hsame, not_false_eq_true, if_true, hfree]
      | false =>
        refine Or.inr ⟨u, hu, fun _ => (usernameExists_eq_false hname).mp hfree, ?_⟩
        simp only [UserStore.update, hx, ne_eq, hsame, not_false_eq_true, if_true, hfree,
          Bool.false_eq_true, if_false]
        rw [OrderedMap.put_delete, OrderedMap.put_comm keyUser_ne_keyUsername]
        rfl

theorem userStep_indexed {op : UserOp} (h : Indexed db) (hok : UserOk db op) :
    Indexed (userStep db op) := by
  cases op with
  | create user =>
    obtain ⟨hid, hnew, hname⟩ := hok
    rcases create_cases db user with hc | ⟨hfree, hc⟩
    · rw [userStep, UserOp.call, hc]
      exact h
    · rw [userStep, UserOp.call, hc]
      exact h.add hid (get_eq_none_of_getById h hnew) hname ((usernameExists_eq_false hname).mp hfree)
  | update user =>
    rcases update_cases h hok with hc | ⟨u, hu, hfree, hc⟩
    · rw [userStep, UserOp.call, hc]
      exact h
    · rw [userStep, UserOp.call, hc]
      exact h.replace hu hok hfree

theorem refusalClean (h : Indexed db) {op : UserOp} (hok : UserOk db op) : RefusalClean db op := by
  intro hfalse
  cases op with
  | create user =>
    rcases create_cases db user with hc | ⟨_, hc⟩
    · rw [userStep, UserOp.call, hc]
    · rw [UserOp.call, hc] at hfalse
      cases hfalse
  | update user =>
    rcases update_cases h hok with hc | ⟨u, _, _, hc⟩
    · rw [userStep, UserOp.call, hc]
    · rw [UserOp.call, hc] at hfalse
      cases hfalse

/-- In every state of a run of creations and updates, names lead to their users and to nobody
else, and no refused call has changed anything. -/
theorem names_right (ops : List UserOp) (hops : AllSteps userStep UserOk OrderedMap.empty ops) :
    Always userStep NamesRight OrderedMap.empty ops ∧
      AllSteps userStep RefusalClean OrderedMap.empty ops := by
  constructor
  · have halways : Always userStep Indexed OrderedMap.empty ops :=
      always_of_allSteps (fun _ _ h hok => userStep_indexed h hok) indexed_empty hops
    intro pre hpre
    exact (halways pre hpre).namesRight
  · exact AllSteps.imp (fun _ _ h hok => userStep_indexed h hok) (fun _ _ h hok => refusalClean h hok)
      indexed_empty hops

/-- A user is created and renamed, and another takes the old name. -/
def renamedOnce : List UserOp :=
  [.create { userId := str "u1", username := str "ann" },
    .update { userId := str "u1", username := str "anna" },
    .create { userId := str "u2", username := str "ann" },
    .update { userId := str "u2", username := str "anna" }]

theorem names_right_renamed :
    Always userStep NamesRight OrderedMap.empty renamedOnce ∧
      AllSteps userStep RefusalClean OrderedMap.empty renamedOnce :=
  names_right renamedOnce ⟨⟨by decide, by decide, by decide⟩, (by decide : str "anna" ≠ []),
    ⟨by decide, by decide +kernel, by decide⟩, (by decide : str "anna" ≠ []), trivial⟩

end SwiftChat.Auth
