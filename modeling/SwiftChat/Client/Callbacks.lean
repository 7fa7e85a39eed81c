import SwiftChat.Client.ProtocolHandler

/-! Every callback is called once, with what first ends its request. -/
namespace SwiftChat.Client
open Base

/-- How a request can end. -/
inductive Ending where
  | refused
  | answered (msg : ServerMessage)
  | timedOut
  | cleared
deriving DecidableEq

/-- What the callback gets. -/
def Ending.invocation (requestId : Bytes) (callback : Callback) (e : Ending) : Invocation :=
  let of code payload message :=
    ⟨requestId, code, payload, if callback = .withMessage then some message else none⟩
  match e with
  | .refused => of networkErrorCode [] []
  | .answered msg => of msg.code msg.payload msg.message
  | .timedOut => of requestTimeoutCode [] []
  | .cleared => of networkErrorCode [] []

/-- How an event ends the `k`-th request while it waits. -/
def endingOf (k : Nat) : Act → Option Ending
  | .handleMessage (some msg) =>
    if msg.requestId = requestIdOf k then some (.answered msg) else none
  | .timeout requestId => if requestId = requestIdOf k then some .timedOut else none
  | .clearPendingRequests => some .cleared
  | _ => none

/-- What first ends the `k`-th request, after it was sent. -/
def endOf (k : Nat) (serializes : Bool) (rest : List Act) : Option Ending :=
  if serializes then rest.findSome? (endingOf k) else some .refused

def Act.isSend : Act → Bool
  | .sendRequest _ _ _ _ => true
  | _ => false

def sendCount (acts : List Act) : Nat := acts.countP Act.isSend

def invocationsOf (k : Nat) (h : ProtocolHandler) : List Invocation :=
  h.invoked.filter (fun i => i.requestId = requestIdOf k)

/-- The callback of the `k`-th request is called at most once, and with what ended the request. A
`clearPendingRequests` that is under way may still have to call it. -/
structure CalledRight (k : Nat) (callback : Callback) (ending : Option Ending)
    (h : ProtocolHandler) : Prop where
  once : (invocationsOf k h).length ≤ 1
  ended : ∀ e, ending = some e → (e = .cleared → ∀ rest, .clearing rest ∉ h.stack) →
    invocationsOf k h = [e.invocation (requestIdOf k) callback]
  called : ∀ i ∈ invocationsOf k h, ∃ e, ending = some e ∧
    i = e.invocation (requestIdOf k) callback

/-! The proof follows one request through the run. -/

/-- Where a request stands. A silent one has no callback. -/
inductive Fate where
  | unsent
  | silent
  | waiting (callback : Callback)
  | finished (callback : Callback) (ending : Ending)
deriving DecidableEq

/-- A request, and how many have been sent so far. -/
structure Life where
  sends : Nat := 0
  fate : Fate := .unsent

namespace Life

def begin (callback : Option Callback) (serializes : Bool) : Fate :=
  match callback with
  | none => .silent
  | some callback => if serializes then .waiting callback else .finished callback .refused

/-- Only a request that waits can end. -/
def ends (l : Life) (e : Ending) : Life :=
  match l.fate with
  | .waiting callback => { l with fate := .finished callback e }
  | _ => l

/-- What an event means for the `k`-th request, whatever the handler does. -/
def next (k : Nat) (l : Life) : Act → Life
  | .sendRequest _ _ callback serializes =>
    { sends := l.sends + 1, fate := if l.sends + 1 = k then begin callback serializes else l.fate }
  | .handleMessage none => l
  | .handleMessage (some msg) =>
    if msg.requestId = requestIdOf k then l.ends (.answered msg) else l
  | .timeout requestId => if requestId = requestIdOf k then l.ends .timedOut else l
  | .clearPendingRequests => l.ends .cleared
  | .callReturns => l

end Life

def Frame.rest : Frame → List (Bytes × Callback)
  | .running => []
  | .clearing rest => rest

/-- What the loops of `clearPendingRequests` that are under way still hold of a request. -/
def heldOf (k : Nat) (h : ProtocolHandler) : List (Bytes × Callback) :=
  (h.stack.flatMap Frame.rest).filter (fun e => e.1 = requestIdOf k)

variable {k n : Nat} {h : ProtocolHandler} {l : Life} {a : Act} {acts : List Act}
  {kicked : Bytes → Option Bytes} {cb : Callback} {e : Ending} {id : Bytes} {frame : Frame}
  {entries : List (Bytes × Callback)} {p : OrderedMap Bytes Callback} {msg : ServerMessage}

def Fate.pending : Fate → Option Callback
  | .waiting callback => some callback
  | _ => none

/-- The callback was called when the request is over, unless a loop that clears it holds it. -/
def Fate.Called (k : Nat) (held : List (Bytes × Callback)) (called : List Invocation) : Fate → Prop
  | .finished callback e =>
    held = [] ∧ called = [e.invocation (requestIdOf k) callback] ∨
      held = [(requestIdOf k, callback)] ∧ called = [] ∧ e = .cleared
  | _ => held = [] ∧ called = []

/-- The handler has the request where its fate says. -/
structure Stands (k : Nat) (f : Fate) (h : ProtocolHandler) : Prop where
  pending : h.pending.get (requestIdOf k) = f.pending
  called : f.Called k (heldOf k h) (invocationsOf k h)

/-- The handler is where the life of the `k`-th request says. -/
structure Follows (k : Nat) (l : Life) (h : ProtocolHandler) : Prop where
  counter : h.counter = l.sends
  unsent : l.fate = .unsent ↔ l.sends < k ∨ k = 0
  stands : Stands k l.fate h

theorem requestIdOf_inj (hn : n < 2 ^ 31) (hk : k < 2 ^ 31) (he : requestIdOf n = requestIdOf k) :
    n = k := by
  have hint := congrArg stoi (List.append_cancel_left he)
  rw [stoi_formatInt (by omega), stoi_formatInt (by omega), Option.some.injEq] at hint
  omega

theorem requestIdOf_ne_nil : requestIdOf k ≠ [] := by
  intro he
  exact absurd (List.append_eq_nil_iff.mp he).1 (by decide)

/-! What the parts of the handler do to one request. -/

theorem heldOf_invoke {code : Int} {payload message : Bytes} :
    heldOf k (h.invoke frame id cb code payload message) =
      frame.rest.filter (fun e => e.1 = requestIdOf k) ++ heldOf k h := by
  simp [heldOf, ProtocolHandler.invoke]

theorem invocationsOf_invoke {code : Int} {payload message : Bytes} :
    invocationsOf k (h.invoke frame id cb code payload message) =
      invocationsOf k h ++ if id = requestIdOf k then
        [⟨id, code, payload, if cb = .withMessage then some message else none⟩] else [] := by
  simp only [invocationsOf, ProtocolHandler.invoke, List.filter_append, List.filter_cons,
    List.filter_nil, decide_eq_true_eq]

/-- Only these three count. -/
theorem Stands.congr {f : Fate} {h' : ProtocolHandler} (hs : Stands k f h)
    (hp : h'.pending.get (requestIdOf k) = h.pending.get (requestIdOf k))
    (hh : heldOf k h' = heldOf k h) (hi : invocationsOf k h' = invocationsOf k h) :
    Stands k f h' := by
  obtain ⟨hpending, hcalled⟩ := hs
  refine ⟨hp.trans hpending, ?_⟩
  rw [hh, hi]
  exact hcalled

/-- A request that is pending waits. -/
theorem Stands.waiting_of_pending {f : Fate} (hs : Stands k f h)
    (hp : h.pending.get (requestIdOf k) = some cb) : f = .waiting cb := by
  have hpending := hs.pending
  rw [hp] at hpending
  cases f with
  | waiting callback => rw [Option.some.inj hpending]
  | _ => cases hpending

/-- A request is completed with what its callback gets. -/
theorem complete_stands (hs : Stands k (.waiting cb) h) (hid : id = requestIdOf k)
    {code : Int} {payload message : Bytes}
    (he : e.invocation (requestIdOf k) cb =
      ⟨requestIdOf k, code, payload, if cb = .withMessage then some message else none⟩) :
    Stands k (.finished cb e) (h.complete id cb code payload message) := by
  subst hid
  obtain ⟨hheld, hinv⟩ := hs.called
  refine ⟨OrderedMap.get_delete_self, Or.inl ⟨?_, ?_⟩⟩
  · rw [ProtocolHandler.complete, heldOf_invoke]
    exact hheld
  · rw [ProtocolHandler.complete, invocationsOf_invoke, if_pos rfl, ← he]
    change invocationsOf k h ++ _ = _
    rw [hinv, List.nil_append]

/-- The completion of another request does not touch it. -/
theorem complete_other {f : Fate} (hs : Stands k f h) (hid : id ≠ requestIdOf k) {code : Int}
    {payload message : Bytes} : Stands k f (h.complete id cb code payload message) := by
  apply hs.congr
  · exact OrderedMap.get_delete_ne (Ne.symm hid)
  · rw [ProtocolHandler.complete, heldOf_invoke]
    rfl
  · rw [ProtocolHandler.complete, invocationsOf_invoke, if_neg hid, List.append_nil]
    rfl

/-- A loop that does not hold the request does not touch it. -/
theorem clearNext_other {f : Fate} (hs : Stands k f h)
    (hno : entries.filter (fun e => e.1 = requestIdOf k) = []) :
    Stands k f (h.clearNext entries) := by
  cases entries with
  | nil => exact hs
  | cons x rest =>
    obtain ⟨id, cb⟩ := x
    rw [List.filter_eq_nil_iff] at hno
    have hid : id ≠ requestIdOf k := by simpa using hno (id, cb) List.mem_cons_self
    have hrest : rest.filter (fun e => e.1 = requestIdOf k) = [] :=
      List.filter_eq_nil_iff.mpr (fun x hx => hno x (List.mem_cons_of_mem _ hx))
    apply hs.congr
    · rfl
    · rw [ProtocolHandler.clearNext, heldOf_invoke, Frame.rest, hrest, List.nil_append]
    · rw [ProtocolHandler.clearNext, invocationsOf_invoke, if_neg hid, List.append_nil]

/-- A loop that holds the request calls its callback, or goes on holding it. -/
theorem clearNext_held (hp : h.pending.get (requestIdOf k) = none) (hh : heldOf k h = [])
    (hi : invocationsOf k h = [])
    (hin : entries.filter (fun e => e.1 = requestIdOf k) = [(requestIdOf k, cb)]) :
    Stands k (.finished cb .cleared) (h.clearNext entries) := by
  cases entries with
  | nil => cases hin
  | cons x rest =>
    obtain ⟨id, callback⟩ := x
    refine ⟨hp, ?_⟩
    simp only [Fate.Called, ProtocolHandler.clearNext, heldOf_invoke, invocationsOf_invoke,
      Frame.rest, hh, hi, List.append_nil, List.nil_append]
    by_cases hid : id = requestIdOf k
    · rw [List.filter_cons, if_pos (by simpa using hid)] at hin
      obtain ⟨hx, hrest⟩ := List.cons.inj hin
      obtain ⟨rfl, rfl⟩ := Prod.mk.inj hx
      exact Or.inl ⟨hrest, if_pos rfl⟩
    · rw [List.filter_cons, if_neg (by simpa using hid)] at hin
      exact Or.inr ⟨hin, if_neg hid, trivial⟩

/-! One event. -/

/-- The only request that an end concerns is one that waits. -/
theorem Follows.of_same (hf : Follows k l h) {h' : ProtocolHandler} (hcounter : h'.counter = h.counter)
    (hs : Stands k l.fate h') : Follows k l h' :=
  ⟨hcounter.trans hf.counter, hf.unsent, hs⟩

/-- A request that waits is over. -/
theorem Follows.ended (hf : Follows k l h) (hl : l.fate = .waiting cb) {h' : ProtocolHandler}
    (hcounter : h'.counter = h.counter) (hs : Stands k (.finished cb e) h') :
    Follows k (l.ends e) h' := by
  have hends : l.ends e = { l with fate := .finished cb e } := by
    unfold Life.ends
    rw [hl]
  rw [hends]
  refine ⟨hcounter.trans hf.counter, ?_, hs⟩
  have hunsent := hf.unsent
  rw [hl] at hunsent
  simpa using hunsent

theorem ends_of_not_waiting (hl : ∀ cb, l.fate ≠ .waiting cb) : l.ends e = l := by
  unfold Life.ends
  split
  · rename_i hw
    exact absurd hw (hl _)
  · rfl

theorem counter_sendRequest {cmd payload : Bytes} {callback : Option Callback} {serializes : Bool} :
    (h.sendRequest cmd payload callback serializes).counter = h.counter + 1 := by
  cases callback <;> cases serializes <;> rfl

theorem begin_ne_unsent {callback : Option Callback} {serializes : Bool} :
    Life.begin callback serializes ≠ .unsent := by
  unfold Life.begin
  split
  · simp
  · split <;> simp

/-- The request is sent; so far it has left no trace. -/
theorem sendRequest_own {cmd payload : Bytes} {callback : Option Callback} {serializes : Bool}
    (hs : Stands k .unsent h) (hid : requestIdOf (h.counter + 1) = requestIdOf k) :
    Stands k (Life.begin callback serializes) (h.sendRequest cmd payload callback serializes) := by
  obtain ⟨hp, hheld, hinv⟩ := hs
  cases callback with
  | none => cases serializes with
    | false => exact ⟨hp, hheld, hinv⟩
    | true => exact ⟨hp, hheld, hinv⟩
  | some cb => cases serializes with
    | true =>
      refine ⟨?_, hheld, hinv⟩
      simp only [ProtocolHandler.sendRequest, hid]
      exact OrderedMap.get_put_self
    | false =>
      refine ⟨hp, Or.inl ⟨hheld, ?_⟩⟩
      simp only [ProtocolHandler.sendRequest, hid, Bool.false_eq_true, not_false_eq_true, if_true,
        invocationsOf_invoke]
      change invocationsOf k h ++ _ = _
      rw [hinv]
      rfl

/-- Another request is sent. -/
theorem sendRequest_other {cmd payload : Bytes} {callback : Option Callback} {serializes : Bool}
    {f : Fate} (hs : Stands k f h) (hid : requestIdOf (h.counter + 1) ≠ requestIdOf k) :
    Stands k f (h.sendRequest cmd payload callback serializes) := by
  cases callback with
  | none => cases serializes with
    | false => exact hs.congr rfl rfl rfl
    | true => exact hs.congr rfl rfl rfl
  | some cb => cases serializes with
    | true => exact hs.congr (OrderedMap.get_put_ne hid.symm) rfl rfl
    | false =>
      refine hs.congr rfl rfl ?_
      simp only [ProtocolHandler.sendRequest, Bool.false_eq_true, not_false_eq_true, if_true,
        invocationsOf_invoke, if_neg hid, List.append_nil]
      rfl

theorem sendRequest_follows {cmd payload : Bytes} {callback : Option Callback} {serializes : Bool}
    (hf : Follows k l h) (hk : k < 2 ^ 31) (hc : l.sends + 1 < 2 ^ 31) :
    Follows k (l.next k (.sendRequest cmd payload callback serializes))
      (h.sendRequest cmd payload callback serializes) := by
  obtain ⟨hcounter, hunsent, hstands⟩ := hf
  by_cases hn : l.sends + 1 = k
  · have hl : l.fate = .unsent := hunsent.mpr (Or.inl (by omega))
    rw [hl] at hstands
    simp only [Life.next, if_pos hn]
    refine ⟨?_, iff_of_false begin_ne_unsent (by change ¬ (l.sends + 1 < k ∨ k = 0); omega), ?_⟩
    · rw [counter_sendRequest, hcounter]
    · exact sendRequest_own hstands (by rw [hcounter, hn])
  · simp only [Life.next, if_neg hn]
    refine ⟨?_, ?_, sendRequest_other hstands ?_⟩
    · rw [counter_sendRequest, hcounter]
    · change l.fate = .unsent ↔ l.sends + 1 < k ∨ k = 0
      rw [hunsent]
      omega
    · intro he
      have hsame := requestIdOf_inj (by omega) hk he
      omega

/-- Something ends the request with this id, if it is pending. -/
theorem complete_follows (hf : Follows k l h) (hp : h.pending.get id = some cb) {code : Int}
    {payload message : Bytes}
    (he : ∀ cb, e.invocation (requestIdOf k) cb =
      ⟨requestIdOf k, code, payload, if cb = .withMessage then some message else none⟩) :
    Follows k (if id = requestIdOf k then l.ends e else l) (h.complete id cb code payload message) := by
  by_cases hid : id = requestIdOf k
  · rw [if_pos hid]
    subst hid
    have hl := hf.stands.waiting_of_pending hp
    exact hf.ended hl rfl (complete_stands (hl ▸ hf.stands) rfl (he cb))
  · rw [if_neg hid]
    exact hf.of_same rfl (complete_other hf.stands hid)

/-- Nothing ends a request that is not pending. -/
theorem absent_follows (hf : Follows k l h) (hp : h.pending.get id = none) :
    (if id = requestIdOf k then l.ends e else l) = l := by
  split
  · rename_i hid
    subst hid
    apply ends_of_not_waiting
    intro cb hl
    have hpending := hf.stands.pending
    rw [hp, hl] at hpending
    cases hpending
  · rfl

theorem handleMessage_follows {m : Option ServerMessage} (hf : Follows k l h) :
    Follows k (l.next k (.handleMessage m)) (h.handleMessage kicked m) := by
  cases m with
  | none => exact hf
  | some msg =>
    simp only [Life.next, ProtocolHandler.handleMessage]
    cases hp : (if msg.requestId = [] then none else h.pending.get msg.requestId) with
    | some callback =>
      have hget : h.pending.get msg.requestId = some callback := by
        split at hp
        · cases hp
        · exact hp
      exact complete_follows hf hget (fun _ => rfl)
    | none =>
      have hsame : (if msg.requestId = requestIdOf k then l.ends (.answered msg) else l) = l := by
        by_cases hnil : msg.requestId = []
        · rw [if_neg (fun he => requestIdOf_ne_nil (he.symm.trans hnil))]
        · rw [if_neg hnil] at hp
          exact absent_follows hf hp
      rw [hsame]
      simp only
      split
      · exact hf
      · exact hf.of_same rfl (hf.stands.congr rfl rfl rfl)

theorem timeout_follows (hf : Follows k l h) :
    Follows k (l.next k (.timeout id)) (h.timeout id) := by
  simp only [Life.next, ProtocolHandler.timeout]
  cases hp : h.pending.get id with
  | none =>
    rw [absent_follows hf hp]
    exact hf
  | some callback => exact complete_follows hf hp (fun _ => rfl)

theorem counter_clearNext : (h.clearNext entries).counter = h.counter := by
  cases entries <;> rfl

theorem clearPendingRequests_follows (hf : Follows k l h) :
    Follows k (l.next k .clearPendingRequests) h.clearPendingRequests := by
  simp only [Life.next, ProtocolHandler.clearPendingRequests]
  have hentries : h.pending.entries.filter (fun e => e.1 = requestIdOf k) =
      (h.pending.get (requestIdOf k)).toList.map (fun v => (requestIdOf k, v)) := by
    rw [← OrderedMap.filter_entries]
    exact List.filter_congr (fun e _ => by congr)
  rw [hf.stands.pending] at hentries
  have hcalled := hf.stands.called
  cases hl : l.fate with
  | waiting cb =>
    rw [hl] at hentries hcalled
    exact hf.ended hl counter_clearNext (clearNext_held rfl hcalled.1 hcalled.2 hentries)
  | _ =>
    rw [ends_of_not_waiting (by simp [hl])]
    rw [hl] at hentries hcalled
    refine hf.of_same counter_clearNext (clearNext_other ?_ hentries)
    rw [hl]
    exact ⟨rfl, hcalled⟩

theorem callReturns_follows (hf : Follows k l h) : Follows k l h.callReturns := by
  unfold ProtocolHandler.callReturns
  split
  · exact hf
  · rename_i stack hstack
    refine hf.of_same rfl (hf.stands.congr rfl ?_ rfl)
    simp [heldOf, hstack, Frame.rest]
  · rename_i rest stack hstack
    have hheld : heldOf k h =
        rest.filter (fun e => e.1 = requestIdOf k) ++ heldOf k { h with stack := stack } := by
      simp [heldOf, hstack, Frame.rest]
    refine hf.of_same counter_clearNext ?_
    obtain ⟨hpending, hcalled⟩ := hf.stands
    generalize l.fate = f at hpending hcalled
    rw [hheld] at hcalled
    cases f with
    | finished cb e =>
      rcases hcalled with ⟨hh, hi⟩ | ⟨hh, hi, rfl⟩
      · obtain ⟨hrest, hh⟩ := List.append_eq_nil_iff.mp hh
        exact clearNext_other ⟨hpending, Or.inl ⟨hh, hi⟩⟩ hrest
      · rcases List.append_eq_singleton_iff.mp hh with ⟨hrest, hh⟩ | ⟨hrest, hh⟩
        · exact clearNext_other ⟨hpending, Or.inr ⟨hh, hi, rfl⟩⟩ hrest
        · exact clearNext_held hpending hh hi hrest
    | _ =>
      obtain ⟨hrest, hh⟩ := List.append_eq_nil_iff.mp hcalled.1
      exact clearNext_other ⟨hpending, hh, hcalled.2⟩ hrest

theorem step_follows (hf : Follows k l h) (hk : k < 2 ^ 31)
    (hc : l.sends + (if a.isSend then 1 else 0) < 2 ^ 31) :
    Follows k (l.next k a) (step kicked h a) := by
  cases a with
  | sendRequest cmd payload callback serializes => exact sendRequest_follows hf hk hc
  | handleMessage m => exact handleMessage_follows hf
  | timeout id => exact timeout_follows hf
  | clearPendingRequests => exact clearPendingRequests_follows hf
  | callReturns => exact callReturns_follows hf

theorem follows_start : Follows k {} {} where
  counter := rfl
  unsent := by
    constructor
    · intro _
      change 0 < k ∨ k = 0
      omega
    · intro _
      rfl
  stands := ⟨rfl, rfl, rfl⟩

theorem sends_next : (l.next k a).sends = l.sends + (if a.isSend then 1 else 0) := by
  have hends : ∀ e, (l.ends e).sends = l.sends := by
    intro e
    unfold Life.ends
    split <;> rfl
  cases a with
  | sendRequest => rfl
  | handleMessage m =>
    cases m with
    | none => rfl
    | some msg =>
      simp only [Life.next]
      split
      · exact hends _
      · rfl
  | timeout id =>
    simp only [Life.next]
    split
    · exact hends _
    · rfl
  | clearPendingRequests => exact hends _
  | callReturns => rfl

/-- The handler follows the request along every run. -/
theorem run_follows (hk : k < 2 ^ 31) (hf : Follows k l h) (hc : l.sends + sendCount acts < 2 ^ 31) :
    Follows k (run (Life.next k) l acts) (run (step kicked) h acts) := by
  induction acts generalizing l h with
  | nil => exact hf
  | cons a acts ih =>
    have hcount : sendCount (a :: acts) = sendCount acts + (if a.isSend then 1 else 0) :=
      List.countP_cons
    rw [hcount] at hc
    refine ih (step_follows hf hk (by omega)) ?_
    rw [sends_next]
    omega

/-! The life of a request, from what its run says. -/

theorem next_eq (hsend : a.isSend = false) :
    l.next k a = match endingOf k a with
      | none => l
      | some e => l.ends e := by
  cases a with
  | sendRequest => cases hsend
  | handleMessage m =>
    cases m with
    | none => rfl
    | some msg =>
      simp only [Life.next, endingOf]
      split <;> rfl
  | timeout id =>
    simp only [Life.next, endingOf]
    split <;> rfl
  | clearPendingRequests => rfl
  | callReturns => rfl

/-- Later sends do not concern a request that was sent. -/
theorem fate_next_send (hk : k ≤ l.sends) (hsend : a.isSend = true) :
    (l.next k a).fate = l.fate ∧ endingOf k a = none := by
  cases a with
  | sendRequest =>
    refine ⟨?_, rfl⟩
    simp only [Life.next]
    rw [if_neg (by omega)]
  | _ => cases hsend

/-- A request that is over stays over. -/
theorem next_finished (hl : l.fate = .finished cb e) (hk : k ≤ l.sends) :
    (l.next k a).fate = .finished cb e := by
  cases hsend : a.isSend with
  | true => exact (fate_next_send hk hsend).1.trans hl
  | false =>
    rw [next_eq hsend]
    split
    · exact hl
    · rw [ends_of_not_waiting (by simp [hl]), hl]

theorem run_finished (hl : l.fate = .finished cb e) (hk : k ≤ l.sends) :
    (run (Life.next k) l acts).fate = .finished cb e := by
  induction acts generalizing l with
  | nil => exact hl
  | cons a acts ih =>
    refine ih (next_finished hl hk) ?_
    rw [sends_next]
    omega

/-- A request that waits is ended by the first event that can end it. -/
theorem fate_run_waiting (hl : l.fate = .waiting cb) (hk : k ≤ l.sends) :
    (run (Life.next k) l acts).fate = match acts.findSome? (endingOf k) with
      | none => .waiting cb
      | some e => .finished cb e := by
  induction acts generalizing l with
  | nil => exact hl
  | cons a acts ih =>
    have hsends : k ≤ (l.next k a).sends := by
      rw [sends_next]
      omega
    rw [List.findSome?_cons]
    cases hsend : a.isSend with
    | true =>
      obtain ⟨hfate, hnone⟩ := fate_next_send hk hsend
      rw [hnone]
      exact ih (hfate.trans hl) hsends
    | false =>
      have hnext := next_eq (k := k) (l := l) hsend
      cases he : endingOf k a with
      | none =>
        rw [he] at hnext
        exact ih ((congrArg Life.fate hnext).trans hl) hsends
      | some e =>
        have hfinished : (l.next k a).fate = .finished cb e := by
          rw [hnext, he]
          simp only [Life.ends, hl]
        change (run (Life.next k) (l.next k a) acts).fate = _
        exact run_finished hfinished hsends

theorem sends_run : (run (Life.next k) l acts).sends = l.sends + sendCount acts := by
  induction acts generalizing l with
  | nil => rfl
  | cons a acts ih =>
    have hcount : sendCount (a :: acts) = sendCount acts + (if a.isSend then 1 else 0) :=
      List.countP_cons
    have hrun := ih (l := l.next k a)
    rw [sends_next] at hrun
    rw [hcount]
    exact hrun.trans (by omega)

/-- The fate of a request that was sent with a callback. -/
def fateOf (callback : Callback) : Option Ending → Fate
  | none => .waiting callback
  | some e => .finished callback e

theorem heldOf_of_running (hrun : ∀ rest, .clearing rest ∉ h.stack) : heldOf k h = [] := by
  rw [heldOf, List.filter_eq_nil_iff]
  intro x hx
  obtain ⟨frame, hframe, hx⟩ := List.mem_flatMap.mp hx
  cases frame with
  | running => cases hx
  | clearing rest => exact absurd hframe (hrun rest)

theorem Stands.calledRight {ending : Option Ending} (hs : Stands k (fateOf cb ending) h) :
    CalledRight k cb ending h := by
  obtain ⟨_, hcalled⟩ := hs
  cases ending with
  | none =>
    have hi := hcalled.2
    exact ⟨by simp [hi], by rintro _ ⟨⟩, by simp [hi]⟩
  | some e =>
    rcases hcalled with ⟨_, hi⟩ | ⟨hh, hi, rfl⟩
    · refine ⟨by simp [hi], ?_, ?_⟩
      · rintro _ ⟨⟩ _
        exact hi
      · intro i hin
        rw [hi, List.mem_singleton] at hin
        exact ⟨e, rfl, hin⟩
    · refine ⟨by simp [hi], ?_, by simp [hi]⟩
      rintro _ ⟨⟩ hrun
      rw [heldOf_of_running (hrun rfl)] at hh
      cases hh

/-- A request that was sent with a callback, at the end of any run. -/
theorem sent_stands (before rest : List Act) (cmd payload : Bytes) (serializes : Bool)
    (hcount : sendCount before + 1 + sendCount rest < 2 ^ 31) :
    Stands (sendCount before + 1) (fateOf cb (endOf (sendCount before + 1) serializes rest))
      (run (step kicked) {} (before ++ .sendRequest cmd payload (some cb) serializes :: rest)) := by
  have hk : sendCount before + 1 < 2 ^ 31 := by omega
  generalize hkey : sendCount before + 1 = k at hk ⊢
  have hbefore : Follows k (run (Life.next k) {} before) (run (step kicked) {} before) :=
    run_follows hk follows_start (by change 0 + _ < _; omega)
  have hsends : (run (Life.next k) {} before).sends + 1 = k := by
    rw [sends_run]
    change 0 + _ + 1 = k
    omega
  rw [run_append]
  generalize run (Life.next k) {} before = l at hbefore hsends
  generalize run (step kicked) {} before = h at hbefore
  have hsent : Follows k (l.next k (.sendRequest cmd payload (some cb) serializes))
      (h.sendRequest cmd payload (some cb) serializes) := sendRequest_follows hbefore hk (by omega)
  have hl : (l.next k (.sendRequest cmd payload (some cb) serializes)).sends = k := hsends
  have hfate : (l.next k (.sendRequest cmd payload (some cb) serializes)).fate =
      Life.begin (some cb) serializes := if_pos hsends
  generalize l.next k (.sendRequest cmd payload (some cb) serializes) = l' at hsent hl hfate
  have hend : Stands k (run (Life.next k) l' rest).fate
      (run (step kicked) (h.sendRequest cmd payload (some cb) serializes) rest) :=
    (run_follows hk hsent (by omega)).stands
  suffices hfinished : (run (Life.next k) l' rest).fate = fateOf cb (endOf k serializes rest) by
    rw [hfinished] at hend
    exact hend
  cases serializes with
  | true =>
    rw [fate_run_waiting hfate (by omega)]
    simp only [endOf, if_true]
    cases rest.findSome? (endingOf k) <;> rfl
  | false => exact run_finished hfate (by omega)

/-- Every callback is called at most once, with what first ended its request, and then the id of
the request is never pending again: whatever comes in, and from whichever callback the handler is
called. -/
theorem callbacks_right (kicked : Bytes → Option Bytes) (before : List Act) (cmd payload : Bytes)
    (callback : Callback) (serializes : Bool) (now later : List Act)
    (hcount : sendCount before + 1 + sendCount (now ++ later) < 2 ^ 31) :
    let k := sendCount before + 1
    let h := run (step kicked) {} (before ++ .sendRequest cmd payload (some callback) serializes :: now)
    CalledRight k callback (endOf k serializes now) h ∧
      (invocationsOf k h ≠ [] → (run (step kicked) h later).pending.get (requestIdOf k) = none) := by
  have hsum : sendCount (now ++ later) = sendCount now + sendCount later := List.countP_append
  intro k h
  have hnow : Stands k (fateOf callback (endOf k serializes now)) h :=
    sent_stands before now cmd payload serializes (by omega)
  refine ⟨hnow.calledRight, fun hne => ?_⟩
  obtain ⟨i, hi⟩ := List.exists_mem_of_ne_nil _ hne
  obtain ⟨e, he, _⟩ := hnow.calledRight.called i hi
  have hall : Stands k (fateOf callback (endOf k serializes (now ++ later)))
      (run (step kicked) {}
        (before ++ .sendRequest cmd payload (some callback) serializes :: (now ++ later))) :=
    sent_stands before (now ++ later) cmd payload serializes hcount
  have hend : endOf k serializes (now ++ later) = some e := by
    unfold endOf at he ⊢
    split
    · rename_i hs
      rw [if_pos hs] at he
      rw [List.findSome?_append, he]
      rfl
    · rename_i hs
      rw [if_neg hs] at he
      exact he
  have hpending := hall.pending
  rw [hend, ← List.cons_append, ← List.append_assoc, run_append] at hpending
  exact hpending

/-- The callback of the first request sends another one while a disconnect empties the map. -/
theorem callbacks_right_nested :
    let now := [Act.sendRequest (str "chat.sync") [] (some .withMessage) true,
      .clearPendingRequests, .sendRequest (str "auth.login") [] (some .plain) true, .callReturns]
    let h := run (step fun _ => none) {} (.sendRequest (str "chat.send") [] (some .plain) true :: now)
    CalledRight 1 .plain (endOf 1 true now) h ∧
      (invocationsOf 1 h ≠ [] →
        (run (step fun _ => none) h [.callReturns]).pending.get (requestIdOf 1) = none) ∧
      endOf 1 true now = some .cleared ∧ (invocationsOf 1 h).length = 1 := by
  intro now h
  have hright := callbacks_right (fun _ => none) [] (str "chat.send") [] .plain true now [.callReturns]
    (by decide)
  exact ⟨hright.1, hright.2, by decide +kernel, by decide +kernel⟩

/-- A request that was cleared does not get the answer that comes later, though its timer has not
fired. -/
theorem cleared_before_answer :
    ¬ ∀ (between : List Act) (msg : ServerMessage), msg.requestId = requestIdOf 1 →
      (∀ m, .handleMessage (some m) ∈ between → m.requestId ≠ requestIdOf 1) →
      (∀ id, .timeout id ∉ between) →
      invocationsOf 1 (run (step fun _ => none) {}
        (.sendRequest (str "chat.send") [] (some .plain) true ::
          (between ++ [.handleMessage (some msg)]))) =
        [(Ending.answered msg).invocation (requestIdOf 1) .plain] := by
  intro hall
  have hget := hall [.clearPendingRequests, .callReturns] { requestId := requestIdOf 1 } rfl
    (by simp) (by simp)
  revert hget
  decide +kernel

end SwiftChat.Client
