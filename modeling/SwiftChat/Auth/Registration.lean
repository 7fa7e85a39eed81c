import SwiftChat.Auth.AuthService
import SwiftChat.Base.Interleave

/-! Calls that take turns to register one name, and when one of them at most gets it. -/
namespace SwiftChat.Auth
open Base

/-- Who looks a name up: the service before it makes the record, or the store before it writes. -/
inductive Layer where
  | service
  | store
deriving DecidableEq

/-- An atomic action of the user store: a read of one key, or a batch. -/
inductive UserAct where
  | usernameExists (username : Bytes) (layer : Layer)
  | putUser (user : UserData)

abbrev UserReply : UserAct → Type
  | .usernameExists _ _ => Bool
  | .putUser _ => Unit

def userExec : (o : UserAct) → UserDb → UserDb × UserReply o
  | .usernameExists username _, db => (db, UserStore.usernameExists db username)
  | .putUser user, db =>
    (db.write [.put (keyUser user.userId) (serializeUser user),
      .put (keyUsername user.username) (.text user.userId)], ())

abbrev UserProg := Prog UserAct UserReply RegisterResult

/-- A call of `Register` and what it draws: everything but the name. -/
structure RegisterCall where
  password : Bytes
  nickname : Bytes := []
  email : Bytes := []
  avatarUrl : Bytes := []
  random : RandomString 12
  now : Int := 0

def RegisterCall.registration (call : RegisterCall) (username : Bytes) : Registration where
  username := username
  password := call.password
  nickname := call.nickname
  email := call.email
  avatarUrl := call.avatarUrl

section
variable (sha256 : Bytes → Bytes)

def RegisterCall.user (call : RegisterCall) (username : Bytes) : UserData :=
  AuthService.newUser sha256 (call.registration username) call.random call.now

namespace UserProg

def registered (user : UserData) : RegisterResult := { success := true, userId := user.userId }

def putUnless (user : UserData) (found : Bool) : UserProg :=
  if found then .ret AuthService.createFailed
  else .act (.putUser user) fun _ => .ret (registered user)

/-- `Create` looks the name up again. -/
def create (user : UserData) : UserProg :=
  .act (.usernameExists user.username .store) (putUnless user)

def createUnless (user : UserData) (found : Bool) : UserProg :=
  if found then .ret AuthService.userAlreadyExists else create user

def register (username : Bytes) (call : RegisterCall) : UserProg :=
  if ¬ validateUsername username then .ret AuthService.usernameInvalid
  else if ¬ validatePassword call.password then .ret AuthService.passwordTooWeak
  else .act (.usernameExists username .service) (createUnless (call.user sha256 username))

/-- On its own the program does what the call does. -/
theorem run_register (db : UserDb) (username : Bytes) (call : RegisterCall) :
    (register sha256 username call).run userExec db =
      AuthService.register sha256 db (call.registration username) call.random call.now := by
  unfold register AuthService.register
  have hname : (call.registration username).username = username := rfl
  have hpassword : (call.registration username).password = call.password := rfl
  rw [hname, hpassword]
  split
  · rfl
  · split
    · rfl
    · rw [Prog.run_act]
      cases hfirst : UserStore.usernameExists db username with
      | true => simp [userExec, hfirst, createUnless]
      | false =>
        have hsecond : UserStore.usernameExists db (call.user sha256 username).username = false :=
          hfirst
        have hcreate : UserStore.create db (AuthService.newUser sha256 (call.registration username)
            call.random call.now) = (db.write [.put (keyUser (call.user sha256 username).userId)
              (serializeUser (call.user sha256 username)),
              .put (keyUsername username) (.text (call.user sha256 username).userId)], true) := by
          unfold UserStore.create
          change (if UserStore.usernameExists db (call.user sha256 username).username = true then _
            else _) = _
          rw [hsecond]
          rfl
        simp only [userExec, hfirst, createUnless, create, Bool.false_eq_true, if_false, Prog.run_act,
          hsecond, putUnless, Prog.run_ret, hcreate, if_true]
        rfl

end UserProg
end

variable {sha256 : Bytes → Bytes} {db : UserDb} {username : Bytes} {ι : Type}
  {calls : ι → RegisterCall} {call : RegisterCall}

abbrev RegisterRun (ι : Type) := Config UserAct UserReply UserDb RegisterResult ι

/-- Calls for one name, none of which has begun. -/
def beginRegistering (sha256 : Bytes → Bytes) (username : Bytes) (calls : ι → RegisterCall)
    (db : UserDb) : RegisterRun ι where
  state := db
  calls i := UserProg.register sha256 username (calls i)

/-- The reply that lets a call write: the store finds the name free. -/
def findsFree : (Σ o, UserReply o) → Bool
  | ⟨.usernameExists _ .store, found⟩ => !found
  | _ => false

/-- One call at most has succeeded, and whoever was told so can log in by the name. -/
structure RegisteredOnce (sha256 : Bytes → Bytes) (username : Bytes) (calls : ι → RegisterCall)
    (c : RegisterRun ι) : Prop where
  once : ∀ i j a b, c.answer i = some a → c.answer j = some b → a.success = true →
    b.success = true → i = j
  login : ∀ i a, c.answer i = some a → a.success = true →
    (AuthService.verifyCredentials sha256 c.state username (calls i).password).success = true ∧
      (AuthService.verifyCredentials sha256 c.state username (calls i).password).userId = a.userId

/-- The name leads to the call's user. -/
structure Registered (sha256 : Bytes → Bytes) (username : Bytes) (call : RegisterCall)
    (db : UserDb) : Prop where
  entry : db.get (keyUsername username) = some (.text (call.user sha256 username).userId)
  record : db.get (keyUser (call.user sha256 username).userId) =
    some (serializeUser (call.user sha256 username))

theorem Registered.login (h : Registered sha256 username call db) (hname : username ≠ []) :
    (AuthService.verifyCredentials sha256 db username call.password).success = true ∧
      (AuthService.verifyCredentials sha256 db username call.password).userId =
        (call.user sha256 username).userId := by
  have hid : (call.user sha256 username).userId ≠ [] := by
    intro hnil
    exact absurd (List.append_eq_nil_iff.mp hnil).1 (by decide)
  have hread : UserStore.getByUsername db username = some (call.user sha256 username).stored := by
    simp only [UserStore.getByUsername, hname, if_false, h.entry, UserStore.getById, hid, h.record,
      Option.bind_some, deserialize_serializeUser]
  have hhash : AuthService.verifyPassword sha256 call.password
      (call.user sha256 username).stored.passwordHash = true := by
    simp [AuthService.verifyPassword, UserData.stored, RegisterCall.user, AuthService.newUser,
      RegisterCall.registration]
  simp only [AuthService.verifyCredentials, hread, hhash, not_true_eq_false, if_false, true_and]
  rfl

/-! Where a call stands. -/

inductive RegisterStage where
  | fresh
  | checked
  | passed
  | done
  | refused

def RegisterStage.Past : RegisterStage → Prop
  | .passed | .done => True
  | _ => False

/-- What is left of a call at a stage. -/
inductive RegistersAt (sha256 : Bytes → Bytes) (username : Bytes) (call : RegisterCall) :
    RegisterStage → UserProg → Prop where
  | fresh (hname : username ≠ []) : RegistersAt sha256 username call .fresh
      (.act (.usernameExists username .service)
        (UserProg.createUnless (call.user sha256 username)))
  | checked (hname : username ≠ []) :
    RegistersAt sha256 username call .checked (UserProg.create (call.user sha256 username))
  | passed (hname : username ≠ []) : RegistersAt sha256 username call .passed
      (.act (.putUser (call.user sha256 username))
        fun _ => .ret (UserProg.registered (call.user sha256 username)))
  | done (hname : username ≠ []) : RegistersAt sha256 username call .done
      (.ret (UserProg.registered (call.user sha256 username)))
  | refused {a : RegisterResult} (ha : a.success = false) :
    RegistersAt sha256 username call .refused (.ret a)

theorem registersAt_begin (sha256 : Bytes → Bytes) (username : Bytes) (call : RegisterCall) :
    ∃ st, RegistersAt sha256 username call st (UserProg.register sha256 username call) ∧
      ¬ st.Past := by
  unfold UserProg.register
  split
  · exact ⟨.refused, .refused rfl, by simp [RegisterStage.Past]⟩
  · rename_i hvalid
    split
    · exact ⟨.refused, .refused rfl, by simp [RegisterStage.Past]⟩
    · refine ⟨.fresh, .fresh ?_, by simp [RegisterStage.Past]⟩
      rintro rfl
      exact hvalid (by decide)

/-- What a turn of a call does: it reads, or writes the user and is done. -/
theorem RegistersAt.turn {st : RegisterStage} {o : UserAct} {next : UserReply o → UserProg}
    (h : RegistersAt sha256 username call st (.act o next)) (db : UserDb) :
    ∃ st', RegistersAt sha256 username call st' (next (userExec o db).2) ∧
      (st'.Past ↔ findsFree ⟨o, (userExec o db).2⟩ = true ∨ st.Past) ∧
      ((userExec o db).1 = db ∧ st' ≠ .done ∨
        st.Past ∧ st' = .done ∧ Registered sha256 username call (userExec o db).1) := by
  cases h with
  | fresh hname =>
    simp only [userExec]
    cases UserStore.usernameExists db username with
    | true =>
      exact ⟨.refused, .refused rfl, by simp [RegisterStage.Past, findsFree], Or.inl ⟨trivial, by simp⟩⟩
    | false =>
      exact ⟨.checked, .checked hname, by simp [RegisterStage.Past, findsFree],
        Or.inl ⟨trivial, by simp⟩⟩
  | checked hname =>
    simp only [userExec]
    cases UserStore.usernameExists db (call.user sha256 username).username with
    | true =>
      exact ⟨.refused, .refused rfl, by simp [RegisterStage.Past, findsFree], Or.inl ⟨trivial, by simp⟩⟩
    | false =>
      exact ⟨.passed, .passed hname, by simp [RegisterStage.Past, findsFree], Or.inl ⟨trivial, by simp⟩⟩
  | passed hname =>
    refine ⟨.done, .done hname, by simp [RegisterStage.Past], Or.inr ⟨trivial, rfl, ?_⟩⟩
    refine ⟨OrderedMap.get_put_self, ?_⟩
    exact (OrderedMap.get_put_ne keyUser_ne_keyUsername).trans OrderedMap.get_put_self

theorem RegistersAt.answer {st : RegisterStage} {p : UserProg} {a : RegisterResult}
    (h : RegistersAt sha256 username call st p) (hp : p.answer = some a) :
    (st = .done ∧ a = UserProg.registered (call.user sha256 username) ∧ username ≠ []) ∨
      st = .refused ∧ a.success = false := by
  cases h with
  | fresh => cases hp
  | checked => cases hp
  | passed => cases hp
  | done hname => exact Or.inl ⟨rfl, (Option.some.inj hp).symm, hname⟩
  | refused ha =>
    obtain rfl := Option.some.inj hp
    exact Or.inr ⟨rfl, ha⟩

/-! The calls together. -/

section
variable [DecidableEq ι] {c : RegisterRun ι} {i j : ι} {o : UserAct} {next : UserReply o → UserProg}

/-- The calls are at stages that fit what they have read; the one that wrote is registered while no
other may still write. -/
def Registering (sha256 : Bytes → Bytes) (username : Bytes) (calls : ι → RegisterCall)
    (c : RegisterRun ι) : Prop :=
  ∃ σ : ι → RegisterStage, (∀ i, RegistersAt sha256 username (calls i) (σ i) (c.calls i)) ∧
    (∀ i, c.hasPassed (fun _ => findsFree) i = true ↔ (σ i).Past) ∧
    ∀ i, σ i = .done → (∀ j, (σ j).Past → j = i) → Registered sha256 username (calls i) c.state

theorem registering_begin : Registering sha256 username calls
    (beginRegistering sha256 username calls db) := by
  have hbegin := fun i => registersAt_begin sha256 username (calls i)
  choose σ hat hpast using hbegin
  refine ⟨σ, hat, ?_, ?_⟩
  · intro i
    exact iff_of_false (by simp [Config.hasPassed, beginRegistering]) (hpast i)
  · intro i hdone
    exact absurd (by rw [hdone]; trivial) (hpast i)

theorem Registering.perform (h : Registering sha256 username calls c)
    (hcall : c.calls i = .act o next) :
    Registering sha256 username calls (c.perform userExec i o next) := by
  obtain ⟨σ, hat, hpast, hkept⟩ := h
  have hi := hat i
  rw [hcall] at hi
  obtain ⟨st', hat', hpast', hwrite⟩ := hi.turn c.state
  refine ⟨Function.update σ i st', ?_, Config.hasPassed_stages hpast hpast', ?_⟩
  · exact Config.stages_perform (P := fun i => RegistersAt sha256 username (calls i)) hat hat'
  · intro j hdone hsole
    have hsole' : ∀ k, (σ k).Past → k = j := by
      intro k hk
      apply hsole
      by_cases hki : k = i
      · subst hki
        rw [Function.update_self]
        exact hpast'.mpr (Or.inr hk)
      · rw [Function.update_of_ne hki]
        exact hk
    rw [Config.perform_state]
    rcases hwrite with ⟨hsame, hnot⟩ | ⟨hpassed, hwrote, hregistered⟩
    · -- nothing was written, and the call that had its turn is not done
      by_cases hji : j = i
      · subst hji
        rw [Function.update_self] at hdone
        exact absurd hdone hnot
      · rw [Function.update_of_ne hji] at hdone
        rw [hsame]
        exact hkept j hdone hsole'
    · -- the one that wrote had passed, so it is the only one
      obtain rfl := hsole' i hpassed
      exact hregistered

theorem Registering.registeredOnce (h : Registering sha256 username calls c)
    (honce : c.PassedOnce (fun _ => findsFree)) : RegisteredOnce sha256 username calls c := by
  obtain ⟨σ, hat, hpast, hkept⟩ := h
  have hdone : ∀ i a, c.answer i = some a → a.success = true →
      σ i = .done ∧ a = UserProg.registered ((calls i).user sha256 username) ∧ username ≠ [] := by
    intro i a ha hsuccess
    rcases (hat i).answer ha with hd | ⟨_, hfail⟩
    · exact hd
    · rw [hsuccess] at hfail
      cases hfail
  have hpassed : ∀ i, σ i = .done → c.hasPassed (fun _ => findsFree) i = true := by
    intro i hi
    exact (hpast i).mpr (by rw [hi]; trivial)
  constructor
  · intro i j a b ha hb hsa hsb
    exact honce i j (hpassed i (hdone i a ha hsa).1) (hpassed j (hdone j b hb hsb).1)
  · intro i a ha hsa
    obtain ⟨hd, rfl, hname⟩ := hdone i a ha hsa
    refine (hkept i hd ?_).login hname
    intro j hj
    exact honce j i ((hpast j).mpr hj) (hpassed i hd)

/-- Two calls that find the name free both succeed. -/
theorem Registering.passedOnce (h : Registering sha256 username calls c) (hret : c.Returned)
    (hc : RegisteredOnce sha256 username calls c) : c.PassedOnce (fun _ => findsFree) := by
  obtain ⟨σ, hat, hpast, _⟩ := h
  have hanswer : ∀ i, c.hasPassed (fun _ => findsFree) i = true →
      ∃ a, c.answer i = some a ∧ a.success = true := by
    intro i hi
    obtain ⟨a, ha⟩ := Option.isSome_iff_exists.mp (hret i)
    rcases (hat i).answer ha with ⟨_, rfl, _⟩ | ⟨hrefused, _⟩
    · exact ⟨_, ha, rfl⟩
    · have hp := (hpast i).mp hi
      rw [hrefused] at hp
      exact absurd hp (by simp [RegisterStage.Past])
  intro i j hi hj
  obtain ⟨a, ha, hsa⟩ := hanswer i hi
  obtain ⟨b, hb, hsb⟩ := hanswer j hj
  exact hc.once i j a b ha hb hsa hsb

/-- Whatever calls take turns to register a name: while the store finds it free for no two of them,
one call at most succeeds and can log in; and when all have returned, it is so only if the store
found it free for no two. -/
theorem registered_once_iff (sha256 : Bytes → Bytes) (db : UserDb) (username : Bytes)
    (calls : ι → RegisterCall) (schedule : List ι) :
    (AllSteps (Config.tick userExec) (Config.OneAtATime userExec (fun _ => findsFree))
        (beginRegistering sha256 username calls db) schedule →
      Always (Config.tick userExec) (RegisteredOnce sha256 username calls)
        (beginRegistering sha256 username calls db) schedule) ∧
    ((run (Config.tick userExec) (beginRegistering sha256 username calls db) schedule).Returned →
      RegisteredOnce sha256 username calls
        (run (Config.tick userExec) (beginRegistering sha256 username calls db) schedule) →
      AllSteps (Config.tick userExec) (Config.OneAtATime userExec (fun _ => findsFree))
        (beginRegistering sha256 username calls db) schedule) := by
  have hracing : Always (Config.tick userExec) (Registering sha256 username calls)
      (beginRegistering sha256 username calls db) schedule :=
    Config.always_of_perform (fun _ _ _ _ h hcall _ => h.perform hcall) registering_begin
      (allSteps_of_forall (C := fun _ _ => True) (fun _ _ => trivial))
  constructor
  · intro hone pre hpre
    exact (hracing pre hpre).registeredOnce ((Config.always_passedOnce_iff rfl).mpr hone pre hpre)
  · intro hret hc
    exact Config.allSteps_of_passedOnce rfl (hracing.last.passedOnce hret hc)

end

/-- Two clients want one name. -/
def twoForAnn : Fin 2 → RegisterCall
  | 0 => { password := str "password-0", random := RandomString.replicate 12 69 rfl, now := 5 }
  | 1 => { password := str "password-1", random := RandomString.replicate 12 70 rfl, now := 6 }

/-- The second call has looked once when the first one writes. -/
def firstRegistered : RegisterRun (Fin 2) := run (Config.tick userExec)
  (beginRegistering id (str "ann") twoForAnn OrderedMap.empty) [0, 1, 0, 0, 1]

theorem firstRegistered_right :
    firstRegistered.Returned ∧ RegisteredOnce id (str "ann") twoForAnn firstRegistered := by
  constructor
  · unfold Config.Returned
    decide +kernel
  · have hone : AllSteps (Config.tick userExec)
        (Config.OneAtATime userExec (fun _ => findsFree))
        (beginRegistering id (str "ann") twoForAnn OrderedMap.empty) [0, 1, 0, 0, 1] := by
      decide +kernel
    exact ((registered_once_iff id OrderedMap.empty (str "ann") twoForAnn [0, 1, 0, 0, 1]).1
      hone).last

/-- Both calls find the name free twice before either writes. -/
def bothRegistered : RegisterRun (Fin 2) := run (Config.tick userExec)
  (beginRegistering id (str "ann") twoForAnn OrderedMap.empty) [0, 0, 1, 1, 0, 1]

/-- Both succeed, and the first can no longer log in. -/
theorem bothRegistered_wrong :
    bothRegistered.Returned ∧
    (∀ i, (bothRegistered.answer i).map RegisterResult.success = some true) ∧
    (AuthService.verifyCredentials id bothRegistered.state (str "ann") (str "password-0")).success =
      false ∧
    ¬ RegisteredOnce id (str "ann") twoForAnn bothRegistered := by
  have hboth : ∀ i, (bothRegistered.answer i).map RegisterResult.success = some true := by
    decide +kernel
  refine ⟨?_, hboth, by decide +kernel, ?_⟩
  · unfold Config.Returned
    decide +kernel
  · intro h
    obtain ⟨a, ha, hsa⟩ := Option.map_eq_some_iff.mp (hboth 0)
    obtain ⟨b, hb, hsb⟩ := Option.map_eq_some_iff.mp (hboth 1)
    exact absurd (h.once 0 1 a b ha hb hsa hsb) (by decide)

end SwiftChat.Auth
