import SwiftChat.Path.PushCauses

/-! Pushes across the whole system: to whom they are written, and what they carry. -/
namespace SwiftChat.Path
open Base Gate Zone

/-- One of the requests served put the push on its way. -/
def PushFrom (cfg : Setup) (history : List Served) (p : Push) : Prop :=
  ∃ past e, past ++ [e] <+: history ∧ PushCause cfg (chatAt cfg past) e.draws e.request p

/-- The pushes that wait, that are being written and that were written. -/
structure PushesKnown (cfg : Setup) (t : Fabric) : Prop where
  waiting : ∀ p ∈ t.zone.pushes, PushFrom cfg t.history p
  sending : ∀ s ∈ t.sending, PushFrom cfg t.history s.push
  pushed : ∀ s ∈ t.pushed, PushFrom cfg t.history s.push

/-- A message that the user `a` sent to the user it is pushed to, and that is in that user's queue
when the request is served. -/
def CarriesMessage (cfg : Setup) (past : List Served) (e : Served) (a : Bytes) (p : Push) : Prop :=
  ∃ payload m, p.payload = .chatMessage payload ∧ m.msgId = payload.msgId ∧ m.fromUserId = a ∧
    m.toId = p.userId ∧ m.content = payload.content ∧ m.mediaUrl = payload.mediaUrl ∧
    m.timestamp = payload.timestamp ∧ Chat.Queued (chatAt cfg (past ++ [e])).msgs p.userId m

/-- The news that the user `a` has read up to a message in the chat with the user it is pushed to. -/
def CarriesReceipt (cfg : Setup) (e : Served) (a : Bytes) (p : Push) : Prop :=
  ∃ lastMsgId, p.payload = .readReceipt p.userId a lastMsgId ∧
    cfg.chatOps e.draws e.request = [.markRead a p.userId .priv lastMsgId]

/-- What a push that was written stands for: its connection has shown who its user is, and it carries
what another user, who was logged in, did. -/
def PushMeant (cfg : Setup) (history : List Served) (s : Sending) : Prop :=
  Proved history s.push.gateAddr s.connId s.push.userId ∧
    ∃ past e a, past ++ [e] <+: history ∧ Issued cfg past a e.request.token ∧
      (CarriesMessage cfg past e a s.push ∨ CarriesReceipt cfg e a s.push)

section
variable {cfg : Setup} {gateIds : Bytes → Bytes} {t : Fabric} {history past : List Served}
  {e : Served} {p : Push}

theorem PushFrom.mono {later : List Served} (h : PushFrom cfg history p)
    (hpre : history <+: later) : PushFrom cfg later p := by
  obtain ⟨past, e, hpast, hcause⟩ := h
  exact ⟨past, e, hpast.trans hpre, hcause⟩

theorem PushesKnown.served (h : PushesKnown cfg t) (hchat : t.zone.chat = chatAt cfg t.history)
    (addr : Bytes) (r : ClientRequest) (draws : Draws) :
    PushesKnown cfg (t.served cfg addr r draws) := by
  let e : Served := ⟨addr, draws, r, (cfg.serve draws t.zone r).2⟩
  have hpre : t.history <+: t.history ++ [e] := List.prefix_append _ _
  refine ⟨?_, fun s hs => (h.sending s hs).mono hpre, fun s hs => (h.pushed s hs).mono hpre⟩
  intro p hp
  have hold : p ∈ t.zone.pushes → PushFrom cfg (t.history ++ [e]) p :=
    fun hp => (h.waiting p hp).mono hpre
  rcases serve_pushes cfg draws t.zone r with hsame | ⟨q, hadd, hcause⟩
  · have hp : p ∈ (cfg.serve draws t.zone r).1.pushes := hp
    rw [hsame] at hp
    exact hold hp
  · have hp : p ∈ (cfg.serve draws t.zone r).1.pushes := hp
    rw [hadd] at hp
    rcases List.mem_append.mp hp with hp | hp
    · exact hold hp
    · obtain rfl := List.mem_singleton.mp hp
      exact ⟨t.history, e, List.prefix_refl _, hchat ▸ hcause⟩

theorem PushesKnown.deliver (h : PushesKnown cfg t) (r : Response) :
    PushesKnown cfg (t.deliver r) := by
  unfold Fabric.deliver
  split
  · exact { h with }
  · exact { h with }

/-- A push that comes to its gate was waiting in the zone. -/
theorem PushesKnown.route (h : PushesKnown cfg t) (i : Nat) (arrives : Bool) :
    PushesKnown cfg (t.route i arrives) := by
  unfold Fabric.route
  split
  · exact h
  · rename_i push hget
    refine
      { waiting := fun p hp => h.waiting p (List.mem_of_mem_eraseIdx hp)
        sending := ?_
        pushed := h.pushed }
    intro s hs
    simp only at hs
    split at hs
    · rcases List.mem_append.mp hs with hs | hs
      · exact h.sending s hs
      · obtain rfl := List.mem_singleton.mp hs
        exact h.waiting push (List.mem_of_getElem? hget)
    · exact h.sending s hs

/-- A push that is written was about to be. -/
theorem PushesKnown.write (h : PushesKnown cfg t) (i : Nat) : PushesKnown cfg (t.write i) := by
  unfold Fabric.write
  split
  · exact h
  · rename_i s hget
    refine { h with sending := fun x hx => h.sending x (List.mem_of_mem_eraseIdx hx), pushed := ?_ }
    intro x hx
    simp only at hx
    split at hx
    · rcases List.mem_append.mp hx with hx | hx
      · exact h.pushed x hx
      · obtain rfl := List.mem_singleton.mp hx
        exact h.sending _ (List.mem_of_getElem? hget)
    · exact h.pushed x hx

theorem PushesKnown.step (h : PushesKnown cfg t) (hchat : t.zone.chat = chatAt cfg t.history)
    (ev : FabricEvent) : PushesKnown cfg (fabricStep cfg gateIds t ev) := by
  cases ev with
  | connect addr connId now =>
    simp only [fabricStep, Fabric.connect]
    split
    · exact h
    · exact { h with }
  | receive addr connId cmd payload requestId now =>
    simp only [fabricStep, Fabric.receive]
    split
    · split
      · refine PushesKnown.deliver ?_ _
        exact { h with }
      · exact { h with }
    · exact h
  | serve i draws =>
    simp only [fabricStep, Fabric.serve]
    split
    · exact { h.served hchat _ _ draws with }
    · exact h
  | lose i status =>
    simp only [fabricStep, Fabric.lose]
    split
    · exact h
    · exact { h with }
  | serveLate i draws =>
    simp only [fabricStep, Fabric.serveLate]
    split
    · exact h
    · exact { h.served hchat _ _ draws with }
  | finish i =>
    simp only [fabricStep, Fabric.finish]
    split
    · split
      · refine PushesKnown.deliver ?_ _
        exact { h with }
      · exact { h with }
    · exact h
  | announce i arrives now =>
    simp only [fabricStep, Fabric.announce]
    split
    · exact h
    · refine PushesKnown.deliver ?_ _
      exact { h with }
  | disconnect addr connId => exact { h with }
  | report i arrives =>
    simp only [fabricStep, Fabric.report]
    split
    · exact h
    · exact { h with }
  | registerGate node => exact { h with }
  | route i arrives => exact h.route i arrives
  | write i => exact h.write i

theorem pushesKnown_start : PushesKnown cfg {} where
  waiting _ hp := (List.not_mem_nil hp).elim
  sending _ hs := (List.not_mem_nil hs).elim
  pushed _ hs := (List.not_mem_nil hs).elim

theorem fabricAfter_pushesKnown (gateIds : Bytes → Bytes) (evs : List FabricEvent) :
    PushesKnown cfg (fabricAfter cfg gateIds evs) := by
  have hboth : FabricKnown cfg (fabricAfter cfg gateIds evs) ∧
      PushesKnown cfg (fabricAfter cfg gateIds evs) := by
    refine run_invariant (I := fun t => FabricKnown cfg t ∧ PushesKnown cfg t)
      (Q := fun _ => True) ?_ ⟨fabricKnown_start, pushesKnown_start⟩ fun _ _ => trivial
    intro t ev h _
    exact ⟨h.1.step ev, h.2.step h.1.chat ev⟩
  exact hboth.2

/-- What caused a push says what it carries. -/
theorem PushCause.meaning (hauth : Authentic cfg past e)
    (h : PushCause cfg (chatAt cfg past) e.draws e.request p) :
    ∃ a, Issued cfg past a e.request.token ∧
      (CarriesMessage cfg past e a p ∨ CarriesReceipt cfg e a p) := by
  cases h with
  | message req a hops hok huser hcmd hpayload =>
    have hacts : Acts cfg e a := by
      refine Or.inl ?_
      rw [hops]
      exact List.mem_singleton.mpr rfl
    refine ⟨a, (hauth.acting a hacts).2, Or.inl ?_⟩
    have hstate : Chat.ChatOk (fun _ => True) (chatAt cfg past) := by
      refine Chat.chatAfter_ok fun op _ => ?_
      cases op <;> trivial
    have hqueued := Chat.send_queued hstate hok
    have hafter : chatAt cfg (past ++ [e]) = (Chat.ChatService.sendMessage (chatAt cfg past) a
        req.toId .priv req.request.draft e.draws.msgRandom e.draws.chat.now).1 := by
      refine history_concat.trans ?_
      rw [hops]
      rfl
    refine ⟨_, Chat.ChatService.newMessage a req.toId (Chat.conversationOf a req.toId .priv) .priv
      req.request.draft e.draws.msgRandom e.draws.chat.now, hpayload, rfl, rfl, huser.symm, rfl, rfl,
      rfl, ?_⟩
    rw [hafter, huser]
    refine (hqueued req.toId).mpr ⟨List.mem_singleton.mpr rfl, ?_⟩
    obtain ⟨_, ⟨hfail, _⟩ | ⟨_, _, hto, _⟩⟩ := Chat.sendMessage_cases (chatAt cfg past) a req.toId
      .priv req.request.draft e.draws.msgRandom e.draws.chat.now
    · rw [hfail] at hok
      cases hok
    · exact hto
  | receipt req a hops huser hcmd hpayload =>
    have hacts : Acts cfg e a := by
      refine Or.inl ?_
      rw [hops]
      exact List.mem_singleton.mpr rfl
    obtain ⟨hsame, hissued⟩ := hauth.acting a hacts
    refine ⟨a, hissued, Or.inr ⟨req.lastMsgId, ?_, ?_⟩⟩
    · rw [hpayload, huser, hsame]
    · rw [hops, huser]

end

/-- A push is written on no connection but one that has shown to be the user's whom it is for, and it
carries a message that a logged-in user sent to that user and that is in the store, or a receipt of
one who has read that user's messages. -/
theorem fabric_pushes (cfg : Setup) (gateIds : Bytes → Bytes) (evs : List FabricEvent) :
    ∀ s ∈ (fabricAfter cfg gateIds evs).pushed,
      PushMeant cfg (fabricAfter cfg gateIds evs).history s := by
  intro s hs
  have hknown := fabricAfter_known cfg gateIds evs
  obtain ⟨past, e, hpre, hcause⟩ :=
    (fabricAfter_pushesKnown gateIds evs).pushed s hs
  obtain ⟨a, ha, hcarries⟩ := hcause.meaning (hknown.authentic past e hpre)
  exact ⟨hknown.pushed s hs, past, e, a, hpre, ha, hcarries⟩

theorem fabric_pushes_vera :
    (fabricAfter plainSetup plainGateIds veraWritesKim).pushed.map
        (fun s => (s.push.gateAddr, s.connId, s.push.userId)) = [(str "a2", str "c1", idOf 98)] ∧
      ∀ s ∈ (fabricAfter plainSetup plainGateIds veraWritesKim).pushed,
        PushMeant plainSetup (fabricAfter plainSetup plainGateIds veraWritesKim).history s :=
  ⟨by decide +kernel, fabric_pushes plainSetup plainGateIds veraWritesKim⟩

end SwiftChat.Path
