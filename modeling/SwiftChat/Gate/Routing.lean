import SwiftChat.Gate.Binding
import SwiftChat.Gate.ClientMessage
import SwiftChat.Zone.Codec

/-! Whom a push reaches: the index of the gate, the users of its connections, and the answers of
the zone they rest on. -/
namespace SwiftChat.Gate
open Base

/-- An answer that says OK and names the user, to one of the two commands that prove who is at a
connection. -/
def NamesUser (cmd : Bytes) (r : Zone.HandleClientRequestResult) (u : Bytes) : Prop :=
  r.code = errorCodeToInt .ok ∧
    ((cmd = str "auth.login" ∧
        ∃ success token expireAt error, r.payload = some (.login success u token expireAt error)) ∨
      (cmd = str "auth.validate_token" ∧ r.payload = some (.validateToken u)))

/-- What a message of a client does to the gate and to the zone behind it. -/
inductive ClientEffect {S : Type} (zone : ZoneClient S) (gateId : Bytes) (g : GateService) (s : S)
    (connId : Bytes) : GateService → S → Prop
  | refused : ClientEffect zone gateId g s connId g s
  | beat (now : Int) : ClientEffect zone gateId g s connId (g.updateHeartbeat connId now) s
  | passed (req : Zone.ClientRequest) (hreq : req.connId = connId) :
    ClientEffect zone gateId g s connId g (zone.handleClientRequest s req).1
  | bound (req : Zone.ClientRequest) (r : Zone.HandleClientRequestResult)
      (u token deviceId deviceType : Bytes) (hreq : req.connId = connId)
      (hans : (zone.handleClientRequest s req).2 = .ok r) (hnames : NamesUser req.cmd r u)
      (hu : u ≠ []) :
    ClientEffect zone gateId g s connId (g.bindUser connId u token deviceId deviceType).1
      (zone.userOnline (zone.handleClientRequest s req).1 u gateId deviceType deviceId)

section
variable {S : Type} {zone : ZoneClient S} {codec : Zone.AuthCodec} {gateId : Bytes}
  {g : GateService} {s : S} {connId cmd payload requestId : Bytes} {now : Int}

theorem handleLogin_effect :
    ClientEffect zone gateId g s connId
      (g.handleLogin zone codec gateId s connId payload requestId).gate
      (g.handleLogin zone codec gateId s connId payload requestId).zone := by
  have hlogin := @GateService.handleLogin_outcome S zone codec gateId g s connId payload requestId
  rcases hlogin with ⟨login, r, u, token, h, he⟩ | ⟨_, s', m, hs, _, he⟩
  · obtain ⟨success, expireAt, error, hpay⟩ := h.named
    have hnames : NamesUser (str "auth.login") r u :=
      ⟨h.ok, Or.inl ⟨rfl, success, token, expireAt, error, hpay⟩⟩
    rw [he]
    exact .bound _ r u token login.deviceId login.deviceType rfl h.answered hnames h.user
  · rw [he]
    rcases hs with rfl | rfl
    · exact .refused
    · exact .passed _ rfl

theorem forwardToZone_effect :
    ClientEffect zone gateId g s connId
      (g.forwardToZone zone codec gateId s connId cmd payload requestId).gate
      (g.forwardToZone zone codec gateId s connId cmd payload requestId).zone := by
  simp only [GateService.forwardToZone]
  have hpassed : ClientEffect zone gateId g s connId g
      (zone.handleClientRequest s (g.requestOf connId cmd payload requestId)).1 :=
    .passed _ rfl
  cases hans : zone.handleClientRequest s (g.requestOf connId cmd payload requestId) with
  | mk s' answer =>
    rw [hans] at hpassed
    cases answer with
    | error status => exact hpassed
    | ok r =>
      simp only
      split
      · rename_i hvalid
        obtain ⟨hcmd, hok⟩ := hvalid
        simp only [GateService.bindValidated]
        split
        · rename_i u hpay
          split
          · rename_i hne
            have hnames : NamesUser (g.requestOf connId cmd payload requestId).cmd r u :=
              ⟨hok, Or.inr ⟨hcmd, hpay⟩⟩
            have hbound : ClientEffect zone gateId g s connId _ _ :=
              .bound _ r u ((codec.parseValidateToken payload).getD [])
                (((g.getConnection connId).map Connection.deviceId).getD [])
                (((g.getConnection connId).map Connection.deviceType).getD [])
                rfl (congrArg Prod.snd hans) hnames hne.1
            rw [hans] at hbound
            exact hbound
          · exact hpassed
        · exact hpassed
      · exact hpassed

/-- Whatever a client sends, the gate does one of four things with it. -/
theorem handleClientMessage_effect :
    ClientEffect zone gateId g s connId
      (g.handleClientMessage zone codec gateId s connId cmd payload requestId now).gate
      (g.handleClientMessage zone codec gateId s connId cmd payload requestId now).zone := by
  unfold GateService.handleClientMessage
  split
  · exact handleLogin_effect
  split
  · exact forwardToZone_effect
  split
  · exact .beat now
  split
  · exact forwardToZone_effect
  split
  · exact forwardToZone_effect
  · exact .refused

end

/-! What every event keeps of the two tables. `A c u` says that connection `c` has proved to be
user `u`. -/

structure TablesRight (A : Bytes → Bytes → Prop) (g : GateService) : Prop where
  indexed : ∀ u c, g.userToConn.get u = some c →
    u ≠ [] ∧ ∃ conn, g.connections.get c = some conn ∧ conn.userId = u
  proved : ∀ c conn, g.connections.get c = some conn → conn.userId ≠ [] → A c conn.userId

section
variable {A B : Bytes → Bytes → Prop} {g : GateService} {u cid : Bytes} {conn : Connection}

theorem TablesRight.mono (h : TablesRight A g) (hAB : ∀ c u, A c u → B c u) : TablesRight B g :=
  ⟨h.indexed, fun c conn hget hne => hAB _ _ (h.proved c conn hget hne)⟩

theorem eraseUser_get {index : OrderedMap Bytes Bytes} {v c : Bytes}
    (h : (eraseUser index v).get u = some c) : index.get u = some c ∧ (v ≠ [] → u ≠ v) := by
  unfold eraseUser at h
  split at h
  · obtain ⟨he, hold⟩ := OrderedMap.get_delete_some h
    exact ⟨hold, fun _ => he⟩
  · rename_i hempty
    exact ⟨h, fun hne => absurd hne hempty⟩

/-- Erasing the user of a connection leaves no entry that leads to the connection. -/
theorem TablesRight.indexed_erased (h : TablesRight A g) {c : Bytes}
    (hget : g.connections.get cid = some conn)
    (hc : (eraseUser g.userToConn conn.userId).get u = some c) :
    c ≠ cid ∧ u ≠ [] ∧ ∃ conn', g.connections.get c = some conn' ∧ conn'.userId = u := by
  obtain ⟨hold, hne⟩ := eraseUser_get hc
  obtain ⟨hu, conn', hget', huser⟩ := h.indexed u c hold
  refine ⟨?_, hu, conn', hget', huser⟩
  rintro rfl
  obtain rfl := Option.some.inj (hget.symm.trans hget')
  exact hne (by rwa [huser]) huser.symm

/-- A new connection has proved nothing yet. -/
theorem addConnection_right (h : TablesRight A g) {now : Int}
    (hnew : g.connections.get cid = none) (hB : ∀ c u, c ≠ cid → A c u → B c u) :
    TablesRight B (g.addConnection cid now) := by
  constructor
  · intro u c hc
    obtain ⟨hu, conn, hget, huser⟩ := h.indexed u c hc
    have hne : c ≠ cid := by
      rintro rfl
      rw [hnew] at hget
      cases hget
    exact ⟨hu, conn, (OrderedMap.get_put_ne hne).trans hget, huser⟩
  · intro c conn hget hne
    rcases OrderedMap.get_put_some hget with ⟨_, rfl⟩ | ⟨hc, hold⟩
    · exact absurd rfl hne
    · exact hB _ _ hc (h.proved c conn hold hne)

theorem removeConnection_right (h : TablesRight A g) :
    TablesRight A (g.removeConnection cid).1 := by
  unfold GateService.removeConnection
  cases hget : g.connections.get cid with
  | none => exact h
  | some conn =>
    constructor
    · intro u c hc
      obtain ⟨hne, hu, conn', hget', huser⟩ := h.indexed_erased hget hc
      exact ⟨hu, conn', (OrderedMap.get_delete_ne hne).trans hget', huser⟩
    · intro c conn' hget' hne
      exact h.proved c conn' (OrderedMap.get_delete_some hget').2 hne

theorem bindUser_right (h : TablesRight A g) {token deviceId deviceType : Bytes} (hu : u ≠ [])
    (hA : A cid u) : TablesRight A (g.bindUser cid u token deviceId deviceType).1 := by
  unfold GateService.bindUser
  cases hget : g.connections.get cid with
  | none => exact h
  | some conn =>
    constructor
    · intro v c hc
      rcases OrderedMap.get_put_some hc with ⟨hv, rfl⟩ | ⟨_, hold⟩
      · exact ⟨hv ▸ hu, _, OrderedMap.get_put_self, hv.symm⟩
      · obtain ⟨hne, hvne, conn', hget', huser⟩ := h.indexed_erased hget hold
        exact ⟨hvne, conn', (OrderedMap.get_put_ne hne).trans hget', huser⟩
    · intro c conn' hget' hne
      rcases OrderedMap.get_put_some hget' with ⟨hc, rfl⟩ | ⟨_, hold⟩
      · exact hc ▸ hA
      · exact h.proved c conn' hold hne

theorem unbindUser_right (h : TablesRight A g) {order : List Bytes} :
    TablesRight A (g.unbindUser u order) := by
  have hkeep := unbindUser_get { gate := g } u
  constructor
  · intro v c hc
    obtain ⟨hvu, hold⟩ := OrderedMap.get_delete_some hc
    obtain ⟨hv, conn, hget, huser⟩ := h.indexed v c hold
    rcases hkeep c order with he | ⟨conn', hget', huser', _⟩
    · exact ⟨hv, conn, he.trans hget, huser⟩
    · obtain rfl := Option.some.inj (hget.symm.trans hget')
      exact absurd (huser.symm.trans huser') hvu
  · intro c conn hget hne
    rcases hkeep c order with he | ⟨conn', _, _, hnew⟩
    · exact h.proved c conn (he.symm.trans hget) hne
    · -- the record that was cleared names nobody
      obtain rfl := Option.some.inj (hnew.symm.trans hget)
      exact absurd rfl hne

theorem updateHeartbeat_right (h : TablesRight A g) {now : Int} :
    TablesRight A (g.updateHeartbeat cid now) := by
  unfold GateService.updateHeartbeat
  cases hget : g.connections.get cid with
  | none => exact h
  | some conn =>
    constructor
    · intro u c hc
      obtain ⟨hu, conn', hget', huser⟩ := h.indexed u c hc
      by_cases he : c = cid
      · rw [he, hget] at hget'
        obtain rfl := Option.some.inj hget'
        exact ⟨hu, { conn with lastHeartbeat := now }, he ▸ OrderedMap.get_put_self, huser⟩
      · exact ⟨hu, conn', (OrderedMap.get_put_ne he).trans hget', huser⟩
    · intro c conn' hget' hne
      rcases OrderedMap.get_put_some hget' with ⟨he, rfl⟩ | ⟨_, hold⟩
      · exact he ▸ h.proved cid conn hget hne
      · exact h.proved c conn' hold hne

end

/-! Runs of the gate. -/

/-- A request the gate made of the zone, with the answer it got. -/
structure Exchange where
  request : Zone.ClientRequest
  answer : Except Bytes Zone.HandleClientRequestResult

/-- A zone that gives the answer, and the gate's record of what it asked. -/
def recording (answer : Except Bytes Zone.HandleClientRequestResult) :
    ZoneClient (List Exchange) where
  handleClientRequest log req := (⟨req, answer⟩ :: log, answer)
  userOnline log _ _ _ _ := log

inductive GateEvent where
  | addConnection (connId : Bytes) (now : Int)
  | setSendCallback (connId writesTo : Bytes)
  | removeSendCallback (connId : Bytes)
  | clientMessage (connId cmd payload requestId : Bytes) (now : Int)
      (answer : Except Bytes Zone.HandleClientRequestResult)
  | unbindUser (userId : Bytes) (order : List Bytes)
  | removeConnection (connId : Bytes)

/-- The gate, the connection each send callback writes to, and the exchanges with the zone since
each connection was added. -/
structure RoutedGate where
  gate : GateService := {}
  callbacks : OrderedMap Bytes Bytes := OrderedMap.empty
  log : List Exchange := []

def routeStep (codec : Zone.AuthCodec) (gateId : Bytes) (t : RoutedGate) : GateEvent → RoutedGate
  | .addConnection connId now =>
    { t with
      gate := t.gate.addConnection connId now
      log := t.log.filter (·.request.connId ≠ connId) }
  | .setSendCallback connId writesTo => { t with callbacks := t.callbacks.put connId writesTo }
  | .removeSendCallback connId => { t with callbacks := t.callbacks.delete connId }
  | .clientMessage connId cmd payload requestId now answer =>
    let out := t.gate.handleClientMessage (recording answer) codec gateId t.log connId cmd payload
      requestId now
    { t with gate := out.gate, log := out.zone }
  | .unbindUser userId order => { t with gate := t.gate.unbindUser userId order }
  | .removeConnection connId => { t with gate := (t.gate.removeConnection connId).1 }

/-- New connections have ids that are not in the table, and a callback writes to its own
connection. -/
def RouteOk (t : RoutedGate) : GateEvent → Prop
  | .addConnection connId _ => t.gate.connections.get connId = none
  | .setSendCallback connId writesTo => writesTo = connId
  | _ => True

/-- On this connection the zone answered a login or the check of a token with this user. -/
def ProvedOn (log : List Exchange) (connId u : Bytes) : Prop :=
  ∃ e ∈ log, e.request.connId = connId ∧ ∃ r, e.answer = .ok r ∧ NamesUser e.request.cmd r u

/-- A push to the user reaches the callback that writes to this connection. -/
def PushReaches (t : RoutedGate) (u connId : Bytes) : Prop :=
  t.gate.pushToUser (fun c => t.callbacks.get c = some connId) u = true

/-- The index leads to connections recorded for the user, a connection is recorded for a user
after it has proved to be that user, and pushes reach no other connection. -/
structure RoutedRight (t : RoutedGate) : Prop where
  indexed : ∀ u c, t.gate.userToConn.get u = some c →
    ∃ conn, t.gate.connections.get c = some conn ∧ conn.userId = u
  proved : ∀ c conn, t.gate.connections.get c = some conn → conn.userId ≠ [] →
    ProvedOn t.log c conn.userId
  pushed : ∀ u c, PushReaches t u c → ProvedOn t.log c u

/-- What the steps keep. -/
structure RouteInv (t : RoutedGate) : Prop where
  tables : TablesRight (ProvedOn t.log) t.gate
  own : ∀ c writesTo, t.callbacks.get c = some writesTo → writesTo = c

section
variable {t : RoutedGate} {log log' : List Exchange} {ev : GateEvent} {codec : Zone.AuthCodec}
  {gateId c u : Bytes}

theorem ProvedOn.mono (h : ProvedOn log c u) (hsub : log ⊆ log') : ProvedOn log' c u := by
  obtain ⟨e, he, hrest⟩ := h
  exact ⟨e, hsub he, hrest⟩

/-- Forgetting what another connection asked takes nothing from this one. -/
theorem ProvedOn.filter (h : ProvedOn log c u) {other : Bytes} (hne : c ≠ other) :
    ProvedOn (log.filter (·.request.connId ≠ other)) c u := by
  obtain ⟨e, he, hconn, hrest⟩ := h
  refine ⟨e, List.mem_filter.mpr ⟨he, ?_⟩, hconn, hrest⟩
  simpa [hconn] using hne

/-- A client's message leaves the tables right, by what the zone answered to it. -/
theorem clientEffect_right {g g' : GateService} {answer : Except Bytes Zone.HandleClientRequestResult}
    (h : TablesRight (ProvedOn log) g)
    (heff : ClientEffect (recording answer) gateId g log c g' log') :
    TablesRight (ProvedOn log') g' := by
  cases heff with
  | refused => exact h
  | beat now => exact updateHeartbeat_right h
  | passed req hreq => exact h.mono (fun c u hp => hp.mono (List.subset_cons_self _ _))
  | bound req r u token deviceId deviceType hreq hans hnames hu =>
    have hnow : ProvedOn (⟨req, answer⟩ :: log) c u :=
      ⟨⟨req, answer⟩, List.mem_cons_self, hreq, r, hans, hnames⟩
    exact bindUser_right (h.mono (fun c u hp => hp.mono (List.subset_cons_self _ _))) hu hnow

theorem routeStep_inv (h : RouteInv t) (hok : RouteOk t ev) :
    RouteInv (routeStep codec gateId t ev) := by
  obtain ⟨htables, hown⟩ := h
  cases ev with
  | addConnection connId now =>
    exact ⟨addConnection_right htables hok (fun c u hne hp => hp.filter hne), hown⟩
  | setSendCallback connId writesTo =>
    refine ⟨htables, ?_⟩
    intro c e he
    rcases OrderedMap.get_put_some he with ⟨hc, rfl⟩ | ⟨_, hold⟩
    · exact hc ▸ hok
    · exact hown c e hold
  | removeSendCallback connId =>
    refine ⟨htables, ?_⟩
    intro c e he
    exact hown c e (OrderedMap.get_delete_some he).2
  | clientMessage connId cmd payload requestId now answer =>
    exact ⟨clientEffect_right htables handleClientMessage_effect, hown⟩
  | unbindUser userId order => exact ⟨unbindUser_right htables, hown⟩
  | removeConnection connId => exact ⟨removeConnection_right htables, hown⟩

/-- A push goes by the index, and the callback found there is that connection's own. -/
theorem RouteInv.pushed (h : RouteInv t) (hpush : PushReaches t u c) : ProvedOn t.log c u := by
  unfold PushReaches GateService.pushToUser GateService.getConnIdByUser at hpush
  cases hget : t.gate.userToConn.get u with
  | none =>
    rw [hget] at hpush
    cases hpush
  | some connId =>
    obtain ⟨hu, conn, hconn, huser⟩ := h.tables.indexed u connId hget
    have hsent : t.callbacks.get connId = some c := by
      rw [hget] at hpush
      simp only [Option.getD_some] at hpush
      split at hpush
      · cases hpush
      · exact of_decide_eq_true hpush
    obtain rfl := h.own connId c hsent
    rw [← huser]
    exact h.tables.proved c conn hconn (huser ▸ hu)

theorem RouteInv.right (h : RouteInv t) : RoutedRight t where
  indexed u c hget := (h.tables.indexed u c hget).2
  proved := h.tables.proved
  pushed _ _ hpush := h.pushed hpush

end

theorem routeInv_empty : RouteInv {} := by
  refine ⟨⟨?_, ?_⟩, ?_⟩
  · intro u c h
    cases h
  · intro c conn h
    cases h
  · intro c writesTo h
    cases h

/-- In every state of every run of the gate, whatever its clients send and the zone answers. -/
theorem routed_right (codec : Zone.AuthCodec) (gateId : Bytes) (evs : List GateEvent)
    (hevs : AllSteps (routeStep codec gateId) RouteOk {} evs) :
    Always (routeStep codec gateId) RoutedRight {} evs := by
  have hinv : Always (routeStep codec gateId) RouteInv {} evs :=
    always_of_allSteps (fun _ _ => routeStep_inv) routeInv_empty hevs
  intro pre hpre
  exact (hinv pre hpre).right

/-- Two users on one connection: a login that fails, one that works, the check of a token of
another user, an unbinding, and the close. -/
def sharedConnection : List GateEvent :=
  [.addConnection (str "c1") 1, .setSendCallback (str "c1") (str "c1"),
    .clientMessage (str "c1") (str "auth.login") (Zone.stringField 1 (str "ann")) (str "1") 2
      (.ok (Zone.resultError .authFailed (str "1"))),
    .clientMessage (str "c1") (str "auth.login") (Zone.stringField 1 (str "ann")) (str "2") 3
      (.ok { requestId := str "2"
             payload := some (.login true (str "u_ann") (str "t1") 9 []) }),
    .clientMessage (str "c1") (str "auth.validate_token") (Zone.stringField 1 (str "t2")) (str "3") 4
      (.ok { requestId := str "3", payload := some (.validateToken (str "u_bob")) }),
    .unbindUser (str "u_ann") [str "c1"], .removeSendCallback (str "c1"),
    .removeConnection (str "c1")]

instance (t : RoutedGate) (ev : GateEvent) : Decidable (RouteOk t ev) :=
  match ev with
  | .addConnection connId _ => inferInstanceAs (Decidable (t.gate.connections.get connId = none))
  | .setSendCallback connId writesTo => inferInstanceAs (Decidable (writesTo = connId))
  | .removeSendCallback _ => .isTrue trivial
  | .clientMessage .. => .isTrue trivial
  | .unbindUser .. => .isTrue trivial
  | .removeConnection _ => .isTrue trivial

theorem routed_right_shared :
    Always (routeStep Zone.wireAuthCodec (str "g1")) RoutedRight {} sharedConnection ∧
    PushReaches (run (routeStep Zone.wireAuthCodec (str "g1")) {} (sharedConnection.take 5))
      (str "u_bob") (str "c1") :=
  ⟨routed_right _ _ _ (by decide +kernel), by unfold PushReaches; decide +kernel⟩

end SwiftChat.Gate
