import SwiftChat.Path.FabricSound

/-! Responses across the whole system: a client reads no answer but those to its own requests. -/
namespace SwiftChat.Path
open Base Gate Zone

/-- A gate's own response: an error that carries nothing, or the time for a heartbeat. -/
def OwnWords (m : ServerMessage) : Prop :=
  (m.payload = .empty ∧ m.code ≠ errorCodeToInt .ok) ∨
    (m.cmd = str "heartbeat" ∧ ∃ now, m.payload = .heartbeat now)

/-- What the zone answered to a request of the connection that the response is for. -/
def PassesOn (history : List Served) (r : Response) : Prop :=
  ∃ e ∈ history, e.addr = r.addr ∧ e.request.connId = r.connId ∧
    e.request.requestId = r.message.requestId ∧ r.message = zoneMessage e.request.cmd e.answer

def Told (history : List Served) (r : Response) : Prop :=
  OwnWords r.message ∨ PassesOn history r

/-- What has come back of a call is what the zone answered to it. -/
def Answered (history : List Served) (call : Call) : Prop :=
  ∀ res, call.answer = some (.ok res) →
    ∃ e ∈ history, e.addr = call.addr ∧ e.request = call.request ∧ e.answer = res

/-- Of the calls, and of the responses that were given, that were dropped and that wait for their
announcement. -/
structure RepliesKnown (t : Fabric) : Prop where
  calls : ∀ call ∈ t.calls, Answered t.history call
  echoed : ∀ e ∈ t.history, e.answer.requestId = e.request.requestId
  responses : ∀ r ∈ t.responses, Told t.history r
  undelivered : ∀ r ∈ t.undelivered, Told t.history r
  arriving : ∀ a ∈ t.arriving, Told t.history ⟨a.addr, a.connId, a.response⟩

section
variable {cfg : Setup} {gateIds : Bytes → Bytes} {t : Fabric} {addr connId : Bytes} {g : GateService}
  {past later : List Served} {r : Response}

theorem Told.mono (h : Told past r) (hsub : past ⊆ later) : Told later r := by
  refine h.imp_right ?_
  rintro ⟨e, he, hrest⟩
  exact ⟨e, hsub he, hrest⟩

theorem Answered.mono {call : Call} (h : Answered past call) (hsub : past ⊆ later) :
    Answered later call := by
  intro res hres
  obtain ⟨e, he, hrest⟩ := h res hres
  exact ⟨e, hsub he, hrest⟩

theorem errorMessage_own {cmd requestId : Bytes} {ec : ErrorCode} (h : ec ≠ .ok) :
    OwnWords (errorMessage cmd requestId ec) := by
  refine Or.inl ⟨rfl, fun hcode => h ?_⟩
  exact errorCodeToInt_eq_zero.mp hcode

theorem rpcFailure_own {cmd requestId status : Bytes} : OwnWords (rpcFailure cmd requestId status) :=
  Or.inl ⟨rfl, show errorCodeToInt .rpcFailed ≠ errorCodeToInt .ok by decide⟩

theorem beginMessage_own {codec : AuthCodec} {cmd payload requestId : Bytes} {now : Int}
    {g' : GateService} {m : ServerMessage}
    (h : g.beginMessage codec connId cmd payload requestId now = .answered g' m) : OwnWords m := by
  unfold GateService.beginMessage at h
  split at h
  · split at h
    · cases h
      exact errorMessage_own (by decide)
    · cases h
  split at h
  · rename_i hbeat
    cases h
    exact Or.inr ⟨hbeat, now, rfl⟩
  split at h
  · cases h
  · cases h
    exact errorMessage_own (by decide)

/-- The second turn of a message has an error of the gate for the client, or passes the answer on. -/
theorem finishMessage_told {codec : AuthCodec} {req : ClientRequest}
    {answer : Except Bytes HandleClientRequestResult} :
    OwnWords (g.finishMessage codec req answer).sent ∨
      ∃ res, answer = .ok res ∧
        (g.finishMessage codec req answer).sent = zoneMessage req.cmd res := by
  cases answer with
  | error status => exact Or.inl rpcFailure_own
  | ok res =>
    have hinternal : OwnWords (errorMessage req.cmd req.requestId .internalError) :=
      errorMessage_own (by decide)
    simp only [GateService.finishMessage]
    split
    · unfold GateService.finishLogin
      simp only
      split
      · split
        · exact Or.inl hinternal
        · split
          · exact Or.inl hinternal
          · exact Or.inr ⟨res, rfl, rfl⟩
      · exact Or.inl hinternal
    split
    · unfold GateService.finishValidate
      simp only
      split
      · split
        · exact Or.inr ⟨res, rfl, rfl⟩
        · exact Or.inr ⟨res, rfl, rfl⟩
      · exact Or.inr ⟨res, rfl, rfl⟩
    · exact Or.inr ⟨res, rfl, rfl⟩

theorem RepliesKnown.deliver (h : RepliesKnown t) (hr : Told t.history r) :
    RepliesKnown (t.deliver r) := by
  unfold Fabric.deliver
  split
  · refine { h with responses := ?_ }
    intro x hx
    rcases List.mem_append.mp hx with hx | hx
    · exact h.responses x hx
    · obtain rfl := List.mem_singleton.mp hx
      exact hr
  · refine { h with undelivered := ?_ }
    intro x hx
    rcases List.mem_append.mp hx with hx | hx
    · exact h.undelivered x hx
    · obtain rfl := List.mem_singleton.mp hx
      exact hr

theorem RepliesKnown.served (h : RepliesKnown t) (cfg : Setup) (addr : Bytes) (req : ClientRequest)
    (draws : Draws) : RepliesKnown (t.served cfg addr req draws) := by
  let e : Served := ⟨addr, draws, req, (cfg.serve draws t.zone req).2⟩
  have hsub : t.history ⊆ t.history ++ [e] := List.subset_append_left _ _
  refine
    { calls := fun call hcall => (h.calls call hcall).mono hsub
      echoed := ?_
      responses := fun x hx => (h.responses x hx).mono hsub
      undelivered := fun x hx => (h.undelivered x hx).mono hsub
      arriving := fun a ha => (h.arriving a ha).mono hsub }
  intro x hx
  rcases List.mem_append.mp hx with hx | hx
  · exact h.echoed x hx
  · obtain rfl := List.mem_singleton.mp hx
    exact ZoneService.handleClientRequest_echoes

theorem RepliesKnown.receive (h : RepliesKnown t) (cmd payload requestId : Bytes) (now : Int) :
    RepliesKnown (t.receive cfg addr connId cmd payload requestId now) := by
  unfold Fabric.receive
  split
  swap
  · exact h
  simp only
  split
  · rename_i g m hbegin
    refine RepliesKnown.deliver ?_ (Or.inl (beginMessage_own hbegin))
    exact { h with }
  · refine { h with calls := ?_ }
    intro call hcall
    rcases List.mem_append.mp hcall with hcall | hcall
    · exact h.calls call hcall
    · obtain rfl := List.mem_singleton.mp hcall
      intro res hres
      cases hres

theorem RepliesKnown.setCall (h : RepliesKnown t) {i : Nat} {call : Call}
    (hcall : Answered t.history call) : RepliesKnown { t with calls := t.calls.set i call } := by
  refine { h with calls := ?_ }
  intro x hx
  rcases List.mem_or_eq_of_mem_set hx with hx | rfl
  · exact h.calls x hx
  · exact hcall

theorem RepliesKnown.serve (h : RepliesKnown t) (i : Nat) (draws : Draws) :
    RepliesKnown (t.serve cfg i draws) := by
  unfold Fabric.serve
  split
  · rename_i addr req _
    refine (h.served cfg addr req draws).setCall ?_
    intro res hres
    obtain rfl := Except.ok.inj (Option.some.inj hres)
    exact ⟨_, List.mem_append_right _ (List.mem_singleton.mpr rfl), rfl, rfl, rfl⟩
  · exact h

theorem RepliesKnown.lose (h : RepliesKnown t) (i : Nat) (status : Bytes) :
    RepliesKnown (t.lose i status) := by
  unfold Fabric.lose
  split
  · exact h
  · rename_i call _
    have hlost : Answered t.history { call with answer := some (.error status) } := by
      intro res hres
      cases hres
    exact { h.setCall (i := i) hlost with }

/-- A call that has come back was answered by the zone, for this request. -/
theorem RepliesKnown.finish (h : RepliesKnown t) (i : Nat) :
    RepliesKnown (t.finish cfg i) := by
  unfold Fabric.finish
  split
  swap
  · exact h
  rename_i addr req answer hget
  have hcall := h.calls _ (List.mem_of_getElem? hget)
  have htold : Told t.history
      ⟨addr, req.connId, ((t.gates addr).finishMessage cfg.codecs.auth req answer).sent⟩ := by
    rcases @finishMessage_told (t.gates addr) cfg.codecs.auth req answer with hown | ⟨res, hres, hsent⟩
    · exact Or.inl hown
    · obtain ⟨e, he, haddr, hreq, hans⟩ := hcall res (congrArg some hres)
      obtain rfl : e.request = req := hreq
      obtain rfl := hans
      refine Or.inr ⟨e, he, haddr, rfl, ?_, hsent⟩
      exact (h.echoed e he).symm.trans (congrArg ServerMessage.requestId hsent).symm
  have herased : ∀ call ∈ t.calls.eraseIdx i, Answered t.history call :=
    fun call hcall => h.calls call (List.mem_of_mem_eraseIdx hcall)
  simp only
  split
  · refine RepliesKnown.deliver ?_ htold
    exact { h with calls := herased }
  · refine { h with calls := herased, arriving := ?_ }
    intro a ha
    rcases List.mem_append.mp ha with ha | ha
    · exact h.arriving a ha
    · obtain rfl := List.mem_singleton.mp ha
      exact htold

theorem RepliesKnown.step (h : RepliesKnown t) (ev : FabricEvent) :
    RepliesKnown (fabricStep cfg gateIds t ev) := by
  cases ev with
  | connect addr connId now =>
    simp only [fabricStep, Fabric.connect]
    split
    · exact h
    · exact { h with }
  | receive addr connId cmd payload requestId now => exact h.receive cmd payload requestId now
  | serve i draws => exact h.serve i draws
  | lose i status => exact h.lose i status
  | serveLate i draws =>
    simp only [fabricStep, Fabric.serveLate]
    split
    · exact h
    · rename_i addr req _
      exact { h.served cfg addr req draws with }
  | finish i => exact h.finish i
  | announce i arrives now =>
    simp only [fabricStep, Fabric.announce]
    split
    · exact h
    · rename_i a hget
      refine RepliesKnown.deliver ?_ (h.arriving a (List.mem_of_getElem? hget))
      exact { h with arriving := fun x hx => h.arriving x (List.mem_of_mem_eraseIdx hx) }
  | disconnect addr connId => exact { h with }
  | report i arrives =>
    simp only [fabricStep, Fabric.report]
    split
    · exact h
    · exact { h with }
  | registerGate node => exact { h with }
  | route i arrives =>
    simp only [fabricStep, Fabric.route]
    split
    · exact h
    · exact { h with }
  | write i =>
    simp only [fabricStep, Fabric.write]
    split
    · exact h
    · exact { h with }

theorem repliesKnown_start : RepliesKnown {} where
  calls _ hc := (List.not_mem_nil hc).elim
  echoed _ he := (List.not_mem_nil he).elim
  responses _ hr := (List.not_mem_nil hr).elim
  undelivered _ hr := (List.not_mem_nil hr).elim
  arriving _ ha := (List.not_mem_nil ha).elim

theorem fabricAfter_repliesKnown (gateIds : Bytes → Bytes) (evs : List FabricEvent) :
    RepliesKnown (fabricAfter cfg gateIds evs) :=
  run_invariant (Q := fun _ => True) (fun _ ev h _ => h.step ev) repliesKnown_start
    fun _ _ => trivial

end

/-- Whatever calls overtake each other: a response is an error or a time of the gate, or it passes on,
as it is, what the zone answered to a request of the same connection with the same id. -/
theorem fabric_replies (cfg : Setup) (gateIds : Bytes → Bytes) (evs : List FabricEvent) :
    ∀ r ∈ (fabricAfter cfg gateIds evs).responses,
      OwnWords r.message ∨ PassesOn (fabricAfter cfg gateIds evs).history r :=
  (fabricAfter_repliesKnown gateIds evs).responses

theorem fabric_replies_vera :
    ∃ r ∈ (fabricAfter plainSetup plainGateIds veraWritesKim).responses,
      r.message.cmd = str "chat.send_message" ∧ r.message.code = errorCodeToInt .ok ∧
        (OwnWords r.message ∨
          PassesOn (fabricAfter plainSetup plainGateIds veraWritesKim).history r) := by
  have htold : ∃ r ∈ (fabricAfter plainSetup plainGateIds veraWritesKim).responses,
      r.message.cmd = str "chat.send_message" ∧ r.message.code = errorCodeToInt .ok := by
    decide +kernel
  obtain ⟨r, hr, hcmd, hcode⟩ := htold
  exact ⟨r, hr, hcmd, hcode, fabric_replies plainSetup plainGateIds veraWritesKim r hr⟩

end SwiftChat.Path
