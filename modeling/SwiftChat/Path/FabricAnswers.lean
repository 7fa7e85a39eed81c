import SwiftChat.Path.FabricSound

/-! Responses across the whole system: every message of a client gets one, on its own connection. -/
namespace SwiftChat.Path
open Base Gate Zone

/-! The message that a response, a call or an arrival belongs to. -/

def Response.key (r : Response) : Received := ⟨r.addr, r.connId, r.message.cmd, r.message.requestId⟩

def Call.key (c : Call) : Received := ⟨c.addr, c.request.connId, c.request.cmd, c.request.requestId⟩

def Arriving.key (a : Arriving) : Received :=
  ⟨a.addr, a.connId, a.response.cmd, a.response.requestId⟩

/-- How many responses such a message has had, or will have. -/
def Fabric.accounted (t : Fabric) (k : Received) : Nat :=
  (t.responses.map Response.key).count k + (t.undelivered.map Response.key).count k +
    (t.calls.map Call.key).count k + (t.arriving.map Arriving.key).count k

structure Accounted (t : Fabric) : Prop where
  ids : ∀ addr c, t.isOpen addr c = true → (addr, c) ∈ t.opened
  echoed : ∀ call ∈ t.calls, ∀ r, call.answer = some (.ok r) → r.requestId = call.request.requestId
  seen : ∀ k ∈ t.received, (k.addr, k.connId) ∈ t.opened
  counts : ∀ k, t.received.count k = t.accounted k
  closed : ∀ r ∈ t.undelivered, t.isOpen r.addr r.connId = false

section
variable {cfg : Setup} {gateIds : Bytes → Bytes} {t : Fabric} {addr connId : Bytes} {g : GateService}

theorem count_map_eraseIdx {α β : Type} [DecidableEq β] {f : α → β} {l : List α} {i : Nat} {x : α}
    (h : l[i]? = some x) (k : β) :
    (l.map f).count k = ((l.eraseIdx i).map f).count k + [f x].count k := by
  induction l generalizing i with
  | nil => simp at h
  | cons y l ih =>
    cases i with
    | zero =>
      obtain rfl : y = x := by simpa using h
      simp [List.count_cons]
    | succ i =>
      have hi : l[i]? = some x := by simpa using h
      simp only [List.map_cons, List.eraseIdx_cons_succ, List.count_cons, ih hi]
      omega

theorem map_set_same {α β : Type} {f : α → β} {l : List α} {i : Nat} {x y : α}
    (h : l[i]? = some x) (hf : f y = f x) : (l.set i y).map f = l.map f := by
  induction l generalizing i with
  | nil => rfl
  | cons z l ih =>
    cases i with
    | zero =>
      obtain rfl : z = x := by simpa using h
      simp [hf]
    | succ i =>
      have hi : l[i]? = some x := by simpa using h
      simp [ih hi]

/-- No connection opens between the two states. -/
def OpensNone (t t' : Fabric) : Prop :=
  ∀ addr c, t'.isOpen addr c = true → t.isOpen addr c = true

theorem isOpen_setGate (a c : Bytes) :
    (t.setGate addr g).isOpen a c =
      if a = addr then (g.getConnection c).isSome else t.isOpen a c := by
  unfold Fabric.isOpen Fabric.setGate
  by_cases ha : a = addr
  · subst ha
    simp
  · simp [ha]

theorem opensNone_setGate
    (h : ∀ c, (g.getConnection c).isSome = true → ((t.gates addr).getConnection c).isSome = true) :
    OpensNone t (t.setGate addr g) := by
  intro a c hopen
  rw [isOpen_setGate] at hopen
  split at hopen
  · rename_i ha
    rw [ha]
    exact h c hopen
  · exact hopen

theorem opensNone_heartbeat {now : Int} :
    ∀ c, ((g.updateHeartbeat connId now).getConnection c).isSome = true →
      (g.getConnection c).isSome = true := by
  intro c hc
  obtain ⟨conn, hconn⟩ := Option.isSome_iff_exists.mp hc
  obtain ⟨old, hold, _⟩ := updateHeartbeat_connections hconn
  exact Option.isSome_iff_exists.mpr ⟨old, hold⟩

theorem opensNone_remove :
    ∀ c, ((g.removeConnection connId).1.getConnection c).isSome = true →
      (g.getConnection c).isSome = true := by
  intro c hc
  obtain ⟨conn, hconn⟩ := Option.isSome_iff_exists.mp hc
  exact Option.isSome_iff_exists.mpr ⟨conn, removeConnection_connections hconn⟩

theorem opensNone_finish {codec : AuthCodec} {req : ClientRequest}
    {answer : Except Bytes HandleClientRequestResult} :
    ∀ c, ((g.finishMessage codec req answer).gate.getConnection c).isSome = true →
      (g.getConnection c).isSome = true := by
  intro c hc
  rcases GateService.finishMessage_cases with ⟨hsame, _⟩ | ⟨_, _, _, _, _, _, _, _, hgate, _⟩
  · rw [hsame] at hc
    exact hc
  · rw [hgate] at hc
    obtain ⟨conn, hconn⟩ := Option.isSome_iff_exists.mp hc
    rcases bindUser_connections hconn with ⟨_, _, hsome⟩ | hold
    · exact hsome
    · exact Option.isSome_iff_exists.mpr ⟨conn, hold⟩

/-! What the steps keep. -/

/-- A step that opens no connection and drops no response keeps what is known of the dropped ones. -/
theorem Accounted.of_counts {t' : Fabric} (h : Accounted t) (hopens : OpensNone t t')
    (hopened : t'.opened = t.opened) (hundelivered : t'.undelivered = t.undelivered)
    (hechoed : ∀ call ∈ t'.calls, ∀ r, call.answer = some (.ok r) →
      r.requestId = call.request.requestId)
    (hseen : ∀ k ∈ t'.received, (k.addr, k.connId) ∈ t'.opened)
    (hcounts : ∀ k, t'.received.count k = t'.accounted k) : Accounted t' where
  ids a c hopen := hopened ▸ h.ids a c (hopens a c hopen)
  echoed := hechoed
  seen := hseen
  counts := hcounts
  closed r hr := by
    rw [hundelivered] at hr
    cases hopen : t'.isOpen r.addr r.connId with
    | false => rfl
    | true => exact absurd ((h.closed r hr).symm.trans (hopens _ _ hopen)) (by decide)

/-- What is known while one response is on its way to its connection. -/
structure Owing (t : Fabric) (r : Response) : Prop where
  ids : ∀ addr c, t.isOpen addr c = true → (addr, c) ∈ t.opened
  echoed : ∀ call ∈ t.calls, ∀ r, call.answer = some (.ok r) → r.requestId = call.request.requestId
  seen : ∀ k ∈ t.received, (k.addr, k.connId) ∈ t.opened
  counts : ∀ k, t.received.count k = t.accounted k + [r.key].count k
  closed : ∀ r ∈ t.undelivered, t.isOpen r.addr r.connId = false

theorem Owing.deliver {r : Response} (h : Owing t r) : Accounted (t.deliver r) := by
  unfold Fabric.deliver
  split
  · refine ⟨h.ids, h.echoed, h.seen, ?_, h.closed⟩
    intro k
    have hk := h.counts k
    simp only [Fabric.accounted, List.map_append, List.map_singleton, List.count_append] at hk ⊢
    omega
  · rename_i hclosed
    refine ⟨h.ids, h.echoed, h.seen, ?_, ?_⟩
    · intro k
      have hk := h.counts k
      simp only [Fabric.accounted, List.map_append, List.map_singleton, List.count_append] at hk ⊢
      omega
    · intro x hx
      rcases List.mem_append.mp hx with hx | hx
      · exact h.closed x hx
      · obtain rfl := List.mem_singleton.mp hx
        exact Bool.eq_false_iff.mpr hclosed

theorem Accounted.connect (h : Accounted t) (now : Int) :
    Accounted (t.connect addr connId now) := by
  unfold Fabric.connect
  split
  · exact h
  rename_i hnew
  have hopen : ∀ a c, (t.setGate addr ((t.gates addr).addConnection connId now)).isOpen a c = true →
      (a, c) = (addr, connId) ∨ t.isOpen a c = true := by
    intro a c hopen
    rw [isOpen_setGate] at hopen
    split at hopen
    · rename_i ha
      obtain ⟨conn, hconn⟩ := Option.isSome_iff_exists.mp hopen
      rcases OrderedMap.get_put_some hconn with ⟨hc, _⟩ | ⟨_, hold⟩
      · exact Or.inl (by rw [ha, hc])
      · rw [ha]
        exact Or.inr (Option.isSome_iff_exists.mpr ⟨conn, hold⟩)
    · exact Or.inr hopen
  refine ⟨?_, h.echoed, ?_, h.counts, ?_⟩
  · intro a c hac
    rcases hopen a c hac with heq | hac
    · exact List.mem_append_right _ (List.mem_singleton.mpr heq)
    · exact List.mem_append_left _ (h.ids a c hac)
  · intro k hk
    exact List.mem_append_left _ (h.seen k hk)
  · intro r hr
    cases hr' : (t.setGate addr ((t.gates addr).addConnection connId now)).isOpen r.addr r.connId with
    | false => exact hr'
    | true =>
      -- the connection of a dropped response was open before, and the new one was not
      rcases hopen _ _ hr' with heq | hold
      · have hcount : r.key ∈ t.received := by
          apply List.count_pos_iff.mp
          rw [h.counts]
          have hpos : 0 < (t.undelivered.map Response.key).count r.key :=
            List.count_pos_iff.mpr (List.mem_map_of_mem hr)
          unfold Fabric.accounted
          omega
        have hseen := h.seen r.key hcount
        exact absurd (heq ▸ hseen) hnew
      · exact absurd ((h.closed r hr).symm.trans hold) (by decide)

theorem Accounted.receive (h : Accounted t) (cmd payload requestId : Bytes) (now : Int) :
    Accounted (t.receive cfg addr connId cmd payload requestId now) := by
  unfold Fabric.receive
  split
  swap
  · exact h
  rename_i hopen
  have hseen : ∀ k ∈ t.received ++ [⟨addr, connId, cmd, requestId⟩], (k.addr, k.connId) ∈ t.opened := by
    intro k hk
    rcases List.mem_append.mp hk with hk | hk
    · exact h.seen k hk
    · obtain rfl := List.mem_singleton.mp hk
      exact h.ids addr connId hopen
  simp only
  split
  · rename_i g m hbegin
    obtain ⟨hgate, hcmd, hid⟩ := GateService.beginMessage_answered hbegin
    have hopens : ∀ c, (g.getConnection c).isSome = true →
        ((t.gates addr).getConnection c).isSome = true := by
      rcases hgate with rfl | rfl
      · exact fun c hc => hc
      · exact opensNone_heartbeat
    refine Owing.deliver ⟨?_, h.echoed, hseen, ?_, ?_⟩
    · intro a c hac
      exact h.ids a c (opensNone_setGate hopens a c hac)
    · intro k
      have hk := h.counts k
      have hkey : (⟨addr, connId, m⟩ : Response).key = ⟨addr, connId, cmd, requestId⟩ := by
        rw [Response.key, hcmd, hid]
      rw [hkey]
      simp only [Fabric.accounted, Fabric.setGate, List.count_append] at hk ⊢
      omega
    · intro r hr
      have hclosed := h.closed r hr
      cases hr' : Fabric.isOpen _ r.addr r.connId with
      | false => rfl
      | true => exact absurd (hclosed.symm.trans (opensNone_setGate hopens _ _ hr')) (by decide)
  · rename_i req hbegin
    obtain ⟨hconn, hcmd, hid, _⟩ := GateService.beginMessage_asks hbegin
    refine ⟨h.ids, ?_, hseen, ?_, h.closed⟩
    · intro call hcall r hr
      rcases List.mem_append.mp hcall with hcall | hcall
      · exact h.echoed call hcall r hr
      · obtain rfl := List.mem_singleton.mp hcall
        cases hr
    · intro k
      have hk := h.counts k
      have hkey : ({ addr := addr, request := req } : Call).key = ⟨addr, connId, cmd, requestId⟩ := by
        rw [Call.key, hconn, hcmd, hid]
      simp only [Fabric.accounted, List.map_append, List.map_singleton, hkey, List.count_append]
        at hk ⊢
      omega

theorem Accounted.setCall (h : Accounted t) {i : Nat} {old : Call} (call : Call)
    (hget : t.calls[i]? = some old) (hkey : call.key = old.key)
    (hechoed : ∀ r, call.answer = some (.ok r) → r.requestId = call.request.requestId) :
    Accounted { t with calls := t.calls.set i call } := by
  refine { h with echoed := ?_, counts := ?_ }
  · intro x hx r hr
    rcases List.mem_or_eq_of_mem_set hx with hx | rfl
    · exact h.echoed x hx r hr
    · exact hechoed r hr
  · intro k
    rw [h.counts k]
    simp only [Fabric.accounted, map_set_same hget hkey]

theorem Accounted.serve (h : Accounted t) (i : Nat) (draws : Draws) :
    Accounted (t.serve cfg i draws) := by
  unfold Fabric.serve
  split
  · rename_i addr r hget
    have hset := h.setCall ⟨addr, r, some (.ok (cfg.serve draws t.zone r).2)⟩ hget rfl (by
      intro answer hanswer
      obtain rfl := Except.ok.inj (Option.some.inj hanswer)
      exact ZoneService.handleClientRequest_echoes)
    exact { hset with }
  · exact h

theorem Accounted.lose (h : Accounted t) (i : Nat) (status : Bytes) :
    Accounted (t.lose i status) := by
  unfold Fabric.lose
  split
  · exact h
  · rename_i call hget
    have hset := h.setCall { call with answer := some (.error status) } hget rfl (by
      intro r hr
      cases hr)
    exact { hset with }

theorem Accounted.finish (h : Accounted t) (i : Nat) : Accounted (t.finish cfg i) := by
  unfold Fabric.finish
  split
  swap
  · exact h
  rename_i addr r answer hget
  have hmem := List.mem_of_getElem? hget
  have hopens : OpensNone t
      (t.setGate addr ((t.gates addr).finishMessage cfg.codecs.auth r answer).gate) :=
    opensNone_setGate opensNone_finish
  obtain ⟨hcmd, hid⟩ := @GateService.finishMessage_sent cfg.codecs.auth (t.gates addr) r answer
  have hsent : (⟨addr, r.connId, ((t.gates addr).finishMessage cfg.codecs.auth r answer).sent⟩ :
      Response).key = Call.key ⟨addr, r, some answer⟩ := by
    have hsame : ((t.gates addr).finishMessage cfg.codecs.auth r answer).sent.requestId =
        r.requestId := by
      rcases hid with hid | ⟨res, rfl, hid⟩
      · exact hid
      · exact hid.trans (h.echoed _ hmem res rfl)
    rw [Response.key, Call.key, hcmd, hsame]
  have hcount := count_map_eraseIdx (f := Call.key) hget
  have hechoed : ∀ call ∈ t.calls.eraseIdx i, ∀ res, call.answer = some (.ok res) →
      res.requestId = call.request.requestId :=
    fun call hcall => h.echoed call (List.mem_of_mem_eraseIdx hcall)
  simp only
  split
  · refine Owing.deliver ⟨?_, hechoed, h.seen, ?_, ?_⟩
    · intro a c hac
      exact h.ids a c (hopens a c hac)
    · intro k
      have hk := h.counts k
      have hc := hcount k
      rw [hsent]
      simp only [Fabric.accounted, Fabric.setGate] at hk ⊢
      omega
    · intro x hx
      cases hx' : Fabric.isOpen _ x.addr x.connId with
      | false => rfl
      | true => exact absurd ((h.closed x hx).symm.trans (hopens _ _ hx')) (by decide)
  · rename_i arrival _
    refine h.of_counts hopens rfl rfl hechoed h.seen ?_
    intro k
    have hk := h.counts k
    have hc := hcount k
    have hkey : (⟨addr, r.connId, arrival, ((t.gates addr).finishMessage cfg.codecs.auth r
        answer).sent⟩ : Arriving).key = Call.key ⟨addr, r, some answer⟩ := hsent
    simp only [Fabric.accounted, Fabric.setGate, List.map_append, List.map_singleton, hkey,
      List.count_append] at hk ⊢
    omega

theorem Accounted.announce (h : Accounted t) (i : Nat) (arrives : Bool) (now : Int) :
    Accounted (t.announce gateIds i arrives now) := by
  unfold Fabric.announce
  split
  · exact h
  · rename_i a hget
    refine Owing.deliver ⟨h.ids, h.echoed, h.seen, ?_, h.closed⟩
    intro k
    have hk := h.counts k
    have hc := count_map_eraseIdx (f := Arriving.key) hget k
    have hkey : (⟨a.addr, a.connId, a.response⟩ : Response).key = a.key := rfl
    rw [hkey]
    simp only [Fabric.accounted] at hk ⊢
    omega

theorem Accounted.step (h : Accounted t) (ev : FabricEvent) :
    Accounted (fabricStep cfg gateIds t ev) := by
  cases ev with
  | connect addr connId now => exact h.connect now
  | receive addr connId cmd payload requestId now => exact h.receive cmd payload requestId now
  | serve i draws => exact h.serve i draws
  | lose i status => exact h.lose i status
  | serveLate i draws =>
    simp only [fabricStep, Fabric.serveLate]
    split
    · exact h
    · exact { h with }
  | finish i => exact h.finish i
  | announce i arrives now => exact h.announce i arrives now
  | disconnect addr connId =>
    exact h.of_counts (opensNone_setGate opensNone_remove) rfl rfl h.echoed h.seen h.counts
  | report i arrives =>
    simp only [fabricStep, Fabric.report]
    split
    · exact h
    · exact { h with }
  | registerGate node => exact { h with }
  | route i arrives =>
    simp only [fabricStep, Fabric.route]
    split
    · exact h
    · exact { h with }
  | write i =>
    simp only [fabricStep, Fabric.write]
    split
    · exact h
    · exact { h with }

theorem accounted_start : Accounted {} where
  ids _ _ hopen := by cases hopen
  echoed _ hcall := (List.not_mem_nil hcall).elim
  seen _ hk := (List.not_mem_nil hk).elim
  counts _ := rfl
  closed _ hr := (List.not_mem_nil hr).elim

end

/-- However calls are delayed or lost: each message of a client is waiting for its response in one
place, or has had it, once, on the connection it came from; a response is only dropped when that
connection is gone. -/
theorem fabric_answers (cfg : Setup) (gateIds : Bytes → Bytes) (evs : List FabricEvent) :
    (∀ k, (fabricAfter cfg gateIds evs).received.count k =
      (fabricAfter cfg gateIds evs).accounted k) ∧
    ∀ r ∈ (fabricAfter cfg gateIds evs).undelivered,
      (fabricAfter cfg gateIds evs).isOpen r.addr r.connId = false := by
  have h : Accounted (fabricAfter cfg gateIds evs) :=
    run_invariant (Q := fun _ => True) (fun _ ev h _ => h.step ev) accounted_start
      fun _ _ => trivial
  exact ⟨h.counts, h.closed⟩

end SwiftChat.Path
