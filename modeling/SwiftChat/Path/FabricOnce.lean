import SwiftChat.Path.PushCauses
import Mathlib.Data.List.Perm.Basic

/-! Pushes across the whole system: no message is pushed twice. -/
namespace SwiftChat.Path
open Base Gate Zone

/-- The id of the message a push carries. -/
def PushPayload.msgId? : PushPayload → Option Bytes
  | .chatMessage payload => some payload.msgId
  | .readReceipt .. => none

/-- The pushes that wait, that are being written and that were written. -/
def Fabric.allPushes (t : Fabric) : List Push :=
  t.zone.pushes ++ (t.sending.map Sending.push ++ t.pushed.map Sending.push)

/-- The messages they carry. -/
def Fabric.pushIds (t : Fabric) : List Bytes :=
  t.allPushes.filterMap fun p => PushPayload.msgId? p.payload

structure PushedOnce (t : Fabric) : Prop where
  once : t.pushIds.Nodup
  stored : ∀ id ∈ t.pushIds, (Chat.getById t.zone.chat.msgs id).isSome = true

section
variable {cfg : Setup} {gateIds : Bytes → Bytes} {t t' : Fabric}

/-- A step that lets pushes go on or get lost. -/
theorem PushedOnce.of_subperm (h : PushedOnce t) (hfewer : t'.allPushes.Subperm t.allPushes)
    (hchat : t'.zone.chat = t.zone.chat) : PushedOnce t' := by
  obtain ⟨l, hperm, hsub⟩ := hfewer
  have hids : t'.pushIds.Subperm t.pushIds :=
    ⟨_, hperm.filterMap _, hsub.filterMap _⟩
  constructor
  · obtain ⟨ids, hperm, hsub⟩ := hids
    exact hperm.nodup_iff.mp (hsub.nodup h.once)
  · intro id hid
    rw [hchat]
    exact h.stored id (hids.subset hid)

theorem PushedOnce.of_same (h : PushedOnce t) (hsame : t'.allPushes = t.allPushes)
    (hchat : t'.zone.chat = t.zone.chat) : PushedOnce t' :=
  h.of_subperm (hsame ▸ List.Subperm.refl _) hchat

theorem PushedOnce.deliver (h : PushedOnce t) (r : Response) : PushedOnce (t.deliver r) := by
  unfold Fabric.deliver
  split
  · exact h.of_same rfl rfl
  · exact h.of_same rfl rfl

/-- A message is pushed when it is new. -/
theorem PushedOnce.served (h : PushedOnce t) (cfg : Setup) (addr : Bytes) (r : ClientRequest) (draws : Draws) :
    PushedOnce (t.served cfg addr r draws) := by
  have hkept : ∀ id, (Chat.getById t.zone.chat.msgs id).isSome = true →
      (Chat.getById (t.served cfg addr r draws).zone.chat.msgs id).isSome = true := by
    intro id hid
    obtain ⟨m, hm⟩ := Option.isSome_iff_exists.mp hid
    obtain ⟨m', hm', _⟩ := Chat.run_keeps_message (cfg.chatOps draws r) hm
    refine Option.isSome_iff_exists.mpr ⟨m', ?_⟩
    change Chat.getById (cfg.serve draws t.zone r).1.chat.msgs id = some m'
    rw [serve_chat]
    exact hm'
  have hserved : (t.served cfg addr r draws).allPushes = (cfg.serve draws t.zone r).1.pushes ++
      (t.sending.map Sending.push ++ t.pushed.map Sending.push) := rfl
  rcases serve_pushes cfg draws t.zone r with hsame | ⟨p, hadd, hcause⟩
  · have hids : (t.served cfg addr r draws).pushIds = t.pushIds := by
      rw [Fabric.pushIds, hserved, hsame]
      rfl
    exact ⟨hids ▸ h.once, fun id hid => hkept id (h.stored id (hids ▸ hid))⟩
  have hperm : (t.served cfg addr r draws).allPushes.Perm (p :: t.allPushes) := by
    rw [hserved, hadd, List.append_assoc]
    exact List.perm_middle
  have hids := hperm.filterMap fun p => PushPayload.msgId? p.payload
  cases hcause with
  | receipt req a _ _ _ hpayload =>
    rw [List.filterMap_cons, hpayload] at hids
    have hids : (t.served cfg addr r draws).pushIds.Perm t.pushIds := hids
    exact ⟨hids.nodup_iff.mpr h.once, fun id hid => hkept id (h.stored id (hids.subset hid))⟩
  | message req a hops hok _ _ hpayload =>
    rw [List.filterMap_cons, hpayload] at hids
    have hids : (t.served cfg addr r draws).pushIds.Perm
        (Chat.ChatService.generateMsgId draws.msgRandom :: t.pushIds) := hids
    obtain ⟨hnew, hstored⟩ := Chat.send_stored hok
    constructor
    · refine hids.nodup_iff.mpr (List.nodup_cons.mpr ⟨?_, h.once⟩)
      intro hold
      have hknown := h.stored _ hold
      rw [hnew] at hknown
      cases hknown
    · intro id hid
      rcases List.mem_cons.mp (hids.subset hid) with rfl | hold
      · apply Option.isSome_of_eq_some
        have hchat : (t.served cfg addr r draws).zone.chat =
            run Chat.chatStep t.zone.chat (cfg.chatOps draws r) := serve_chat
        rw [hchat, hops]
        exact hstored
      · exact hkept id (h.stored id hold)

theorem PushedOnce.route (h : PushedOnce t) (i : Nat) (arrives : Bool) :
    PushedOnce (t.route i arrives) := by
  unfold Fabric.route
  split
  · exact h
  rename_i push hget
  obtain ⟨hi, hpush⟩ := List.getElem?_eq_some_iff.mp hget
  have htaken : (push :: t.zone.pushes.eraseIdx i).Perm t.zone.pushes :=
    hpush ▸ List.getElem_cons_eraseIdx_perm hi
  refine h.of_subperm ?_ rfl
  refine List.Subperm.trans ?_ (htaken.append_right _).subperm
  simp only [Fabric.allPushes]
  split
  · rw [List.map_append, List.append_assoc]
    refine List.Perm.subperm ?_
    exact (List.perm_middle.append_left _).trans List.perm_middle
  · exact (List.sublist_cons_self _ _).subperm

theorem PushedOnce.write (h : PushedOnce t) (i : Nat) : PushedOnce (t.write i) := by
  unfold Fabric.write
  split
  · exact h
  rename_i s hget
  obtain ⟨hi, hs⟩ := List.getElem?_eq_some_iff.mp hget
  have htaken : (s :: t.sending.eraseIdx i).Perm t.sending :=
    hs ▸ List.getElem_cons_eraseIdx_perm hi
  refine h.of_subperm ?_ rfl
  refine List.Subperm.trans ?_ (((htaken.map Sending.push).append_right _).append_left _).subperm
  simp only [Fabric.allPushes]
  refine (List.subperm_append_left _).mpr ?_
  split
  · rw [List.map_append]
    refine List.Perm.subperm ?_
    refine (List.perm_append_comm.append_left _).trans ?_
    exact List.perm_middle
  · exact (List.sublist_cons_self _ _).subperm

theorem PushedOnce.step (h : PushedOnce t) (ev : FabricEvent) :
    PushedOnce (fabricStep cfg gateIds t ev) := by
  cases ev with
  | connect addr connId now =>
    simp only [fabricStep, Fabric.connect]
    split
    · exact h
    · exact h.of_same rfl rfl
  | receive addr connId cmd payload requestId now =>
    simp only [fabricStep, Fabric.receive]
    split
    · split
      · refine PushedOnce.deliver ?_ _
        exact h.of_same rfl rfl
      · exact h.of_same rfl rfl
    · exact h
  | serve i draws =>
    simp only [fabricStep, Fabric.serve]
    split
    · rename_i addr r _
      exact (h.served cfg addr r draws).of_same rfl rfl
    · exact h
  | lose i status =>
    simp only [fabricStep, Fabric.lose]
    split
    · exact h
    · exact h.of_same rfl rfl
  | serveLate i draws =>
    simp only [fabricStep, Fabric.serveLate]
    split
    · exact h
    · rename_i addr r _
      exact (h.served cfg addr r draws).of_same rfl rfl
  | finish i =>
    simp only [fabricStep, Fabric.finish]
    split
    · split
      · refine PushedOnce.deliver ?_ _
        exact h.of_same rfl rfl
      · exact h.of_same rfl rfl
    · exact h
  | announce i arrives now =>
    simp only [fabricStep, Fabric.announce]
    split
    · exact h
    · refine PushedOnce.deliver ?_ _
      exact h.of_same rfl rfl
  | disconnect addr connId => exact h.of_same rfl rfl
  | report i arrives =>
    simp only [fabricStep, Fabric.report]
    split
    · exact h
    · exact h.of_same rfl rfl
  | registerGate node => exact h.of_same rfl rfl
  | route i arrives => exact h.route i arrives
  | write i => exact h.write i

theorem pushedOnce_start : PushedOnce {} :=
  ⟨List.nodup_nil, fun _ hid => (List.not_mem_nil hid).elim⟩

end

/-- However calls are repeated, delayed or lost: no two pushes carry the same message, and each
carries one that is stored. -/
theorem fabric_pushed_once (cfg : Setup) (gateIds : Bytes → Bytes) (evs : List FabricEvent) :
    (fabricAfter cfg gateIds evs).pushIds.Nodup ∧
      ∀ id ∈ (fabricAfter cfg gateIds evs).pushIds,
        (Chat.getById (fabricAfter cfg gateIds evs).zone.chat.msgs id).isSome = true := by
  have h : PushedOnce (fabricAfter cfg gateIds evs) :=
    run_invariant (Q := fun _ => True) (fun _ ev h _ => h.step ev) pushedOnce_start
      fun _ _ => trivial
  exact ⟨h.once, h.stored⟩

end SwiftChat.Path
