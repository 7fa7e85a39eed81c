import SwiftChat.Path.Fabric

/-! What holds in every state of the whole system: the services do what authentic requests ask for,
and a push is written only to a user who has shown who it is. -/
namespace SwiftChat.Path
open Base Gate Zone

/-- On this connection of the gate at this address the zone answered a login or the check of a token
with this user. -/
def Proved (history : List Served) (addr connId u : Bytes) : Prop :=
  ∃ e ∈ history, e.addr = addr ∧ e.request.connId = connId ∧ NamesUser e.request.cmd e.answer u

/-- The tables of a gate, and the tokens of its connections, rest on what the zone has answered. -/
structure GateKnown (cfg : Setup) (history : List Served) (opened : List (Bytes × Bytes))
    (addr : Bytes) (g : GateService) : Prop where
  tables : TablesRight (Proved history addr) g
  tokens : ∀ c conn, g.connections.get c = some conn → TokenOf cfg history conn.userId conn.token
  ids : ∀ c conn, g.connections.get c = some conn → (addr, c) ∈ opened

/-- A call has a token that was given out, and an answer that the zone gave. -/
structure CallKnown (cfg : Setup) (history : List Served) (call : Call) : Prop where
  token : TokenOf cfg history call.request.userId call.request.token
  answer : ∀ r, call.answer = some (.ok r) →
    ∃ e ∈ history, e.addr = call.addr ∧ e.request = call.request ∧ e.answer = r

def SendKnown (history : List Served) (s : Sending) : Prop :=
  Proved history s.push.gateAddr s.connId s.push.userId

/-- A login that worked had a payload that parses. -/
def LoginsParsed (cfg : Setup) (history : List Served) : Prop :=
  ∀ e ∈ history, e.request.cmd = str "auth.login" → e.answer.code = errorCodeToInt .ok →
    ∃ req, cfg.codecs.auth.parseLogin e.request.payload = some req

/-- The databases of the chat and of the friend service, when they have done what these requests ask
for and nothing else. -/
def chatAt (cfg : Setup) (history : List Served) : Chat.ChatState :=
  History Chat.chatStep (fun e => cfg.chatOps e.draws e.request) {} history

def friendsAt (cfg : Setup) (history : List Served) : Friend.FriendDb :=
  History Friend.friendStep (fun e => cfg.friendOps e.draws e.request) OrderedMap.empty history

structure FabricKnown (cfg : Setup) (t : Fabric) : Prop where
  authentic : EachAfter (Authentic cfg) t.history
  parsed : LoginsParsed cfg t.history
  accounts : AccountsKnown cfg t.history t.zone.auth
  chat : t.zone.chat = chatAt cfg t.history
  friends : t.zone.friends = friendsAt cfg t.history
  gates : ∀ addr, GateKnown cfg t.history t.opened addr (t.gates addr)
  calls : ∀ call ∈ t.calls, CallKnown cfg t.history call
  abandoned : ∀ x ∈ t.abandoned, TokenOf cfg t.history x.request.userId x.request.token
  sending : ∀ s ∈ t.sending, SendKnown t.history s
  pushed : ∀ s ∈ t.pushed, SendKnown t.history s

section
variable {cfg : Setup} {gateIds : Bytes → Bytes} {t : Fabric} {addr connId : Bytes} {g : GateService}
  {past later : List Served} {opened : List (Bytes × Bytes)} {u token : Bytes}

theorem Proved.mono (h : Proved past addr connId u) (hsub : past ⊆ later) :
    Proved later addr connId u := by
  obtain ⟨e, he, hrest⟩ := h
  exact ⟨e, hsub he, hrest⟩

theorem TokenOf.mono (h : TokenOf cfg past u token) (hsub : past ⊆ later) :
    TokenOf cfg later u token :=
  h.imp_right fun hu => hu.mono hsub

theorem CallKnown.mono {call : Call} (h : CallKnown cfg past call) (hsub : past ⊆ later) :
    CallKnown cfg later call := by
  refine ⟨h.token.mono hsub, ?_⟩
  intro r hr
  obtain ⟨e, he, hrest⟩ := h.answer r hr
  exact ⟨e, hsub he, hrest⟩

/-! The gates. -/

theorem bindUser_connections {c v dev devType : Bytes} {conn : Connection}
    (h : (g.bindUser connId v token dev devType).1.connections.get c = some conn) :
    (conn.userId = v ∧ conn.token = token ∧ (g.connections.get c).isSome) ∨
      g.connections.get c = some conn := by
  unfold GateService.bindUser at h
  cases hget : g.connections.get connId with
  | none =>
    rw [hget] at h
    exact Or.inr h
  | some old =>
    rw [hget] at h
    rcases OrderedMap.get_put_some h with ⟨rfl, rfl⟩ | ⟨_, hold⟩
    · exact Or.inl ⟨rfl, rfl, by rw [hget]; rfl⟩
    · exact Or.inr hold

theorem updateHeartbeat_connections {c : Bytes} {conn : Connection} {now : Int}
    (h : (g.updateHeartbeat connId now).connections.get c = some conn) :
    ∃ old, g.connections.get c = some old ∧ conn.userId = old.userId ∧ conn.token = old.token := by
  unfold GateService.updateHeartbeat at h
  cases hget : g.connections.get connId with
  | none =>
    rw [hget] at h
    exact ⟨conn, h, rfl, rfl⟩
  | some old =>
    rw [hget] at h
    rcases OrderedMap.get_put_some h with ⟨rfl, rfl⟩ | ⟨_, hold⟩
    · exact ⟨old, hget, rfl, rfl⟩
    · exact ⟨conn, hold, rfl, rfl⟩

theorem removeConnection_connections {c : Bytes} {conn : Connection}
    (h : (g.removeConnection connId).1.connections.get c = some conn) :
    g.connections.get c = some conn := by
  unfold GateService.removeConnection at h
  cases hget : g.connections.get connId with
  | none =>
    rw [hget] at h
    exact h
  | some old =>
    rw [hget] at h
    exact (OrderedMap.get_delete_some h).2

theorem GateKnown.heartbeat (h : GateKnown cfg past opened addr g) {now : Int} :
    GateKnown cfg past opened addr (g.updateHeartbeat connId now) := by
  refine ⟨updateHeartbeat_right h.tables, ?_, ?_⟩
  · intro c conn hget
    obtain ⟨old, hold, huser, htoken⟩ := updateHeartbeat_connections hget
    rw [huser, htoken]
    exact h.tokens c old hold
  · intro c conn hget
    obtain ⟨old, hold, _⟩ := updateHeartbeat_connections hget
    exact h.ids c old hold

theorem GateKnown.remove (h : GateKnown cfg past opened addr g) :
    GateKnown cfg past opened addr (g.removeConnection connId).1 :=
  ⟨removeConnection_right h.tables,
    fun c conn hget => h.tokens c conn (removeConnection_connections hget),
    fun c conn hget => h.ids c conn (removeConnection_connections hget)⟩

theorem GateKnown.bind (h : GateKnown cfg past opened addr g) {dev devType : Bytes} (hu : u ≠ [])
    (hproved : Proved past addr connId u) (hissued : Issued cfg past u token) :
    GateKnown cfg past opened addr (g.bindUser connId u token dev devType).1 := by
  refine ⟨bindUser_right h.tables hu hproved, ?_, ?_⟩
  · intro c conn hget
    rcases bindUser_connections hget with ⟨huser, htoken, _⟩ | hold
    · rw [huser, htoken]
      exact Or.inr hissued
    · exact h.tokens c conn hold
  · intro c conn hget
    rcases bindUser_connections hget with ⟨_, _, hsome⟩ | hold
    · obtain ⟨old, hold⟩ := Option.isSome_iff_exists.mp hsome
      exact h.ids c old hold
    · exact h.ids c conn hold

/-- The token of an answer that proves a user was given out by a login. -/
theorem CallKnown.issued (hauth : EachAfter (Authentic cfg) past)
    (hparsed : LoginsParsed cfg past) {call : Call} (hcall : CallKnown cfg past call)
    {r : HandleClientRequestResult} (hans : call.answer = some (.ok r)) (hu : u ≠ [])
    (hgives : GateService.GivesToken cfg.codecs.auth call.request r u token) :
    Issued cfg past u token := by
  obtain ⟨e, he, _, hereq, rfl⟩ := hcall.answer r hans
  obtain ⟨hcode, ⟨hcmd, hpay⟩ | ⟨hcmd, hpay, hparse⟩⟩ := hgives
  · rw [← hereq] at hcmd
    obtain ⟨req, hparse⟩ := hparsed e he hcmd hcode
    exact ⟨e, he, req.username, req.password, hcmd, ⟨req, hparse, rfl, rfl⟩, hcode, hpay⟩
  · rw [← hereq] at hcmd hparse
    obtain ⟨before, hbefore, hcause⟩ := hauth.of_mem he
    have hissued := hcause.validated u token ⟨hcmd, hparse, hpay, hu⟩
    exact hissued.mono fun x hx => hbefore.subset (List.mem_append_left _ hx)

/-- What an answer of the zone changes at a gate rests on that answer. -/
theorem GateKnown.finish (h : GateKnown cfg past opened addr g) (hauth : EachAfter (Authentic cfg) past)
    (hparsed : LoginsParsed cfg past) {call : Call} (hcall : CallKnown cfg past call)
    (haddr : call.addr = addr) {answer : Except Bytes HandleClientRequestResult}
    (hans : call.answer = some answer) :
    GateKnown cfg past opened addr (g.finishMessage cfg.codecs.auth call.request answer).gate := by
  have hcases := @GateService.finishMessage_cases cfg.codecs.auth g call.request answer
  rcases hcases with ⟨hsame, _⟩ | ⟨r, u, token, dev, devType, rfl, hgives, hu, hgate, _⟩
  · rw [hsame]
    exact h
  have hissued := hcall.issued hauth hparsed hans hu hgives
  obtain ⟨e, he, headdr, hereq, rfl⟩ := hcall.answer r hans
  rw [hgate]
  refine h.bind hu ?_ hissued
  exact ⟨e, he, headdr.trans haddr, by rw [hereq], by rw [hereq]; exact hgives.names⟩

theorem GateKnown.connect (h : GateKnown cfg past opened addr g) (hnew : (addr, connId) ∉ opened)
    (now : Int) :
    GateKnown cfg past (opened ++ [(addr, connId)]) addr (g.addConnection connId now) := by
  have hfree : g.connections.get connId = none := by
    cases hget : g.connections.get connId with
    | none => rfl
    | some conn => exact absurd (h.ids connId conn hget) hnew
  refine ⟨addConnection_right h.tables hfree fun _ _ _ hp => hp, ?_, ?_⟩
  · intro c conn hget
    rcases OrderedMap.get_put_some hget with ⟨_, rfl⟩ | ⟨_, hold⟩
    · exact Or.inl ⟨rfl, rfl⟩
    · exact h.tokens c conn hold
  · intro c conn hget
    rcases OrderedMap.get_put_some hget with ⟨rfl, _⟩ | ⟨_, hold⟩
    · exact List.mem_append_right _ (List.mem_singleton.mpr rfl)
    · exact List.mem_append_left _ (h.ids c conn hold)

theorem GateKnown.mono {opened' : List (Bytes × Bytes)} (h : GateKnown cfg past opened addr g)
    (hsub : past ⊆ later) (hopened : opened ⊆ opened') : GateKnown cfg later opened' addr g :=
  ⟨h.tables.mono fun _ _ hp => hp.mono hsub, fun c conn hget => (h.tokens c conn hget).mono hsub,
    fun c conn hget => hopened (h.ids c conn hget)⟩

theorem gateKnown_start : GateKnown cfg past opened addr {} := by
  constructor
  · constructor
    · intro u c h
      cases h
    · intro c conn h
      cases h
  · intro c conn h
    cases h
  · intro c conn h
    cases h

/-- A push goes where the index says, and so to a connection that has proved its user. -/
theorem GateKnown.found (h : GateKnown cfg past opened addr g) (hfound : g.getConnIdByUser u ≠ []) :
    Proved past addr (g.getConnIdByUser u) u := by
  unfold GateService.getConnIdByUser at hfound ⊢
  cases hget : g.userToConn.get u with
  | none =>
    rw [hget] at hfound
    exact absurd rfl hfound
  | some c =>
    obtain ⟨hu, conn, hconn, rfl⟩ := h.tables.indexed u c hget
    exact h.tables.proved c conn hconn hu

/-! The steps. -/

theorem fabricKnown_start : FabricKnown cfg {} where
  authentic := eachAfter_nil
  parsed _ he := (List.not_mem_nil he).elim
  accounts := accountsKnown_start
  chat := rfl
  friends := rfl
  gates _ := gateKnown_start
  calls _ hcall := (List.not_mem_nil hcall).elim
  abandoned _ hx := (List.not_mem_nil hx).elim
  sending _ hs := (List.not_mem_nil hs).elim
  pushed _ hs := (List.not_mem_nil hs).elim

theorem gates_update {P : Bytes → GateService → Prop} (h : ∀ a, P a (t.gates a)) (hg : P addr g) :
    ∀ a, P a ((t.setGate addr g).gates a) := by
  intro a
  by_cases ha : a = addr
  · subst ha
    have hgate : (t.setGate a g).gates a = g := Function.update_self ..
    rw [hgate]
    exact hg
  · have hgate : (t.setGate addr g).gates a = t.gates a := Function.update_of_ne ha ..
    rw [hgate]
    exact h a

theorem FabricKnown.setGate (h : FabricKnown cfg t)
    (hg : GateKnown cfg t.history t.opened addr g) : FabricKnown cfg (t.setGate addr g) :=
  { h with gates := gates_update (P := GateKnown cfg t.history t.opened) h.gates hg }

theorem FabricKnown.deliver (h : FabricKnown cfg t) (r : Response) :
    FabricKnown cfg (t.deliver r) := by
  unfold Fabric.deliver
  split
  · exact { h with }
  · exact { h with }

theorem FabricKnown.connect (h : FabricKnown cfg t) (now : Int) :
    FabricKnown cfg (t.connect addr connId now) := by
  unfold Fabric.connect
  split
  · exact h
  · rename_i hnew
    have hlater : ∀ a, GateKnown cfg t.history (t.opened ++ [(addr, connId)]) a (t.gates a) :=
      fun a => (h.gates a).mono (List.Subset.refl _) (List.subset_append_left _ _)
    have hgates := gates_update (P := GateKnown cfg t.history (t.opened ++ [(addr, connId)])) hlater
      ((h.gates addr).connect hnew now)
    exact { h with gates := hgates }

theorem FabricKnown.receive (h : FabricKnown cfg t) (cmd payload requestId : Bytes) (now : Int) :
    FabricKnown cfg (t.receive cfg addr connId cmd payload requestId now) := by
  unfold Fabric.receive
  split
  swap
  · exact h
  simp only
  split
  · rename_i g m hbegin
    have hgate : GateKnown cfg t.history t.opened addr g := by
      obtain ⟨rfl | rfl, _⟩ := GateService.beginMessage_answered hbegin
      · exact h.gates addr
      · exact (h.gates addr).heartbeat
    refine FabricKnown.deliver ?_ _
    exact { h.setGate hgate with }
  · rename_i req hbegin
    obtain ⟨_, _, _, htoken⟩ := GateService.beginMessage_asks hbegin
    refine { h with calls := ?_ }
    intro call hcall
    rcases List.mem_append.mp hcall with hcall | hcall
    · exact h.calls call hcall
    · obtain rfl := List.mem_singleton.mp hcall
      refine ⟨?_, fun r hr => by cases hr⟩
      rcases htoken with hnil | ⟨conn, hget, huser, hsame⟩
      · exact Or.inl hnil
      · have hknown := (h.gates addr).tokens connId conn hget
        rw [← huser, ← hsame] at hknown
        exact hknown

/-- The zone serves a request whose token was given out by a login. -/
theorem FabricKnown.served (h : FabricKnown cfg t) {r : ClientRequest}
    (htoken : TokenOf cfg t.history r.userId r.token) (addr : Bytes) (draws : Draws) :
    FabricKnown cfg (t.served cfg addr r draws) := by
  let e : Served := ⟨addr, draws, r, (cfg.serve draws t.zone r).2⟩
  have hsub : t.history ⊆ t.history ++ [e] := List.subset_append_left _ _
  obtain ⟨hknown, hcause⟩ :=
    @serve_authentic cfg t.history e t.zone h.authentic h.accounts htoken rfl
  refine
    { authentic := eachAfter_concat.mpr ⟨h.authentic, hcause⟩
      parsed := ?_
      accounts := hknown
      chat := ?_
      friends := ?_
      gates := fun a => (h.gates a).mono hsub (List.Subset.refl _)
      calls := fun call hcall => (h.calls call hcall).mono hsub
      abandoned := fun x hx => (h.abandoned x hx).mono hsub
      sending := fun s hs => (h.sending s hs).mono hsub
      pushed := fun s hs => (h.pushed s hs).mono hsub }
  · intro x hx
    rcases List.mem_append.mp hx with hx | hx
    · exact h.parsed x hx
    · obtain rfl := List.mem_singleton.mp hx
      exact login_parsed (d := t.zone) rfl
  · refine serve_chat.trans ?_
    rw [h.chat]
    exact (history_concat (a := e)).symm
  · refine serve_friends.trans ?_
    rw [h.friends]
    exact (history_concat (a := e)).symm

theorem FabricKnown.setCall (h : FabricKnown cfg t) {i : Nat} {call : Call}
    (hcall : CallKnown cfg t.history call) : FabricKnown cfg { t with calls := t.calls.set i call } := by
  refine { h with calls := ?_ }
  intro x hx
  rcases List.mem_or_eq_of_mem_set hx with hx | rfl
  · exact h.calls x hx
  · exact hcall

theorem FabricKnown.serve (h : FabricKnown cfg t) (i : Nat)
    (draws : Draws) : FabricKnown cfg (t.serve cfg i draws) := by
  unfold Fabric.serve
  split
  · rename_i addr r hget
    have hcall := h.calls _ (List.mem_of_getElem? hget)
    have hserved := h.served hcall.token addr draws
    refine hserved.setCall ⟨hcall.token.mono (List.subset_append_left _ _), ?_⟩
    intro answer hanswer
    obtain rfl := Except.ok.inj (Option.some.inj hanswer)
    exact ⟨_, List.mem_append_right _ (List.mem_singleton.mpr rfl), rfl, rfl, rfl⟩
  · exact h

theorem FabricKnown.lose (h : FabricKnown cfg t) (i : Nat) (status : Bytes) :
    FabricKnown cfg (t.lose i status) := by
  unfold Fabric.lose
  split
  · exact h
  · rename_i call hget
    have hcall := h.calls call (List.mem_of_getElem? hget)
    have hlost : CallKnown cfg t.history { call with answer := some (.error status) } := by
      refine ⟨hcall.token, ?_⟩
      intro r hr
      cases hr
    refine { h.setCall hlost with abandoned := ?_ }
    intro x hx
    simp only at hx
    split at hx
    · rcases List.mem_append.mp hx with hx | hx
      · exact h.abandoned x hx
      · obtain rfl := List.mem_singleton.mp hx
        exact hcall.token
    · exact h.abandoned x hx

theorem FabricKnown.serveLate (h : FabricKnown cfg t) (i : Nat)
    (draws : Draws) : FabricKnown cfg (t.serveLate cfg i draws) := by
  unfold Fabric.serveLate
  split
  · exact h
  · rename_i addr r hget
    have hserved := h.served (h.abandoned _ (List.mem_of_getElem? hget)) addr draws
    exact { hserved with
      abandoned := fun x hx => hserved.abandoned x (List.mem_of_mem_eraseIdx hx) }

theorem FabricKnown.finish (h : FabricKnown cfg t) (i : Nat) :
    FabricKnown cfg (t.finish cfg i) := by
  unfold Fabric.finish
  split
  swap
  · exact h
  rename_i addr r answer hget
  have hcall := h.calls _ (List.mem_of_getElem? hget)
  have hgate := (h.gates addr).finish h.authentic h.parsed hcall rfl rfl
  have herased : FabricKnown cfg
      { t.setGate addr ((t.gates addr).finishMessage cfg.codecs.auth r answer).gate with
        calls := t.calls.eraseIdx i } :=
    { h.setGate hgate with calls := fun x hx => h.calls x (List.mem_of_mem_eraseIdx hx) }
  simp only
  split
  · exact herased.deliver _
  · exact { herased with }

theorem FabricKnown.presence (h : FabricKnown cfg t) (presence : SessionStore) :
    FabricKnown cfg { t with zone := { t.zone with presence := presence } } := { h with }

theorem FabricKnown.step (h : FabricKnown cfg t) (ev : FabricEvent) :
    FabricKnown cfg (fabricStep cfg gateIds t ev) := by
  cases ev with
  | connect addr connId now => exact h.connect now
  | receive addr connId cmd payload requestId now => exact h.receive cmd payload requestId now
  | serve i draws => exact h.serve i draws
  | lose i status => exact h.lose i status
  | serveLate i draws => exact h.serveLate i draws
  | finish i => exact h.finish i
  | announce i arrives now =>
    simp only [fabricStep, Fabric.announce]
    split
    · exact h
    · refine FabricKnown.deliver ?_ _
      exact { h with }
  | disconnect addr connId =>
    exact { h.setGate (h.gates addr).remove with }
  | report i arrives =>
    simp only [fabricStep, Fabric.report]
    split
    · exact h
    · exact { h with }
  | registerGate node => exact { h with }
  | route i arrives =>
    simp only [fabricStep, Fabric.route]
    split
    · exact h
    · rename_i push hget
      refine { h with sending := ?_ }
      intro s hs
      simp only at hs
      split at hs
      · rename_i hfound
        rcases List.mem_append.mp hs with hs | hs
        · exact h.sending s hs
        · obtain rfl := List.mem_singleton.mp hs
          exact (h.gates push.gateAddr).found hfound.2
      · exact h.sending s hs
  | write i =>
    simp only [fabricStep, Fabric.write]
    split
    · exact h
    · rename_i s hget
      refine { h with sending := fun x hx => h.sending x (List.mem_of_mem_eraseIdx hx), pushed := ?_ }
      intro x hx
      simp only at hx
      split at hx
      · rcases List.mem_append.mp hx with hx | hx
        · exact h.pushed x hx
        · obtain rfl := List.mem_singleton.mp hx
          exact h.sending _ (List.mem_of_getElem? hget)
      · exact h.pushed x hx

/-- However the calls and pushes of the system overtake each other and get lost. -/
theorem fabricAfter_known (cfg : Setup) (gateIds : Bytes → Bytes) (evs : List FabricEvent) :
    FabricKnown cfg (fabricAfter cfg gateIds evs) :=
  run_invariant (Q := fun _ => True) (fun _ ev h _ => h.step ev) fabricKnown_start
    fun _ _ => trivial

end

/-- The chat and the friend service have done exactly what the requests ask for that the zone has
served, and each of these requests acts for a user who was given its token at a login that the
accounts account for. -/
theorem fabric_authentic (cfg : Setup) (gateIds : Bytes → Bytes) (evs : List FabricEvent) :
    EachAfter (Authentic cfg) (fabricAfter cfg gateIds evs).history ∧
      (fabricAfter cfg gateIds evs).zone.chat =
        chatAt cfg (fabricAfter cfg gateIds evs).history ∧
      (fabricAfter cfg gateIds evs).zone.friends =
        friendsAt cfg (fabricAfter cfg gateIds evs).history :=
  have h := fabricAfter_known cfg gateIds evs
  ⟨h.authentic, h.chat, h.friends⟩

/-! A run: two users register, log in at two gates, and one writes to the other. -/

def plainSetup : Setup where
  jwt := Jwt.plain
  fileJwt := none
  fileConfig := {}
  sha256 := id
  codecs := wireCodecs

theorem length_zeroSeed : (List.replicate 16 (0 : UInt8)).length = 16 := rfl

/-- At a time in seconds; the random strings are made of one letter. -/
def drawsAt (n : Int) (letter : UInt8) (h : isAlphaNum letter = true) : Draws where
  auth := { login := ⟨n * 1000, n * 1000, n * 1000, n * 1000⟩, verify := n * 1000, now := n * 1000 }
  chat := ⟨n, n * 1000, n⟩
  friend := ⟨RandomString.replicate 12 letter h, RandomString.replicate 8 letter h, n, n * 1000⟩
  userRandom := RandomString.replicate 12 letter h
  msgRandom := RandomString.replicate 16 letter h
  groupRandom := RandomString.replicate 12 letter h
  fileSeed := { bytes := List.replicate 16 0, length_eq := length_zeroSeed }
  nowMs := n * 1000

def plainGateIds (addr : Bytes) : Bytes := str "gate_" ++ addr

/-- The payload of a registration or a login. -/
def credentials (name : Bytes) : Bytes :=
  stringField 1 name ++ stringField 2 (str "password")

/-- On the connection `c1` of the gate at this address: a registration and a login. -/
def signOn (addr name : Bytes) (letter : UInt8) (h : isAlphaNum letter = true) : List FabricEvent :=
  [.registerGate { gateId := plainGateIds addr, address := addr },
    .connect addr (str "c1") 1000,
    .receive addr (str "c1") (str "auth.register") (credentials name) (str "r1") 1000,
    .serve 0 (drawsAt 1 letter h), .finish 0,
    .receive addr (str "c1") (str "auth.login") (credentials name) (str "r2") 2000,
    .serve 0 (drawsAt 2 letter h), .finish 0, .announce 0 true 2000]

/-- The id that is drawn for the user of a letter. -/
def idOf (letter : UInt8) : Bytes := str "u_" ++ List.replicate 12 letter

theorem isAlphaNum_a : isAlphaNum 97 = true := rfl

theorem isAlphaNum_b : isAlphaNum 98 = true := rfl

theorem isAlphaNum_c : isAlphaNum 99 = true := rfl

theorem isAlphaNum_d : isAlphaNum 100 = true := rfl

/-- Vera writes to Kim, who is at another gate. -/
def veraWritesKim : List FabricEvent :=
  signOn (str "a1") (str "vera") 97 isAlphaNum_a ++ signOn (str "a2") (str "kim") 98 isAlphaNum_b ++
    [.receive (str "a1") (str "c1") (str "chat.send_message")
        (stringField 1 (idOf 97) ++ stringField 2 (idOf 98) ++ [24, 1] ++ stringField 4 (str "hi"))
        (str "r3") 3000,
      .serve 0 (drawsAt 3 99 isAlphaNum_c), .finish 0, .route 0 true, .write 0]

theorem fabric_authentic_vera :
    EachAfter (Authentic plainSetup)
        (fabricAfter plainSetup plainGateIds veraWritesKim).history ∧
      (fabricAfter plainSetup plainGateIds veraWritesKim).history.map
        (fun e => (plainSetup.chatOps e.draws e.request).map Chat.ChatOp.actor) =
          [[], [], [], [], [idOf 97]] :=
  ⟨(fabric_authentic plainSetup plainGateIds veraWritesKim).1, by decide +kernel⟩

end SwiftChat.Path
