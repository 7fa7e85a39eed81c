import SwiftChat.Chat.ChatService
import Mathlib.Data.List.Forall2

/-! Two message databases read side by side: related messages under the same keys give related
pages. -/
namespace SwiftChat.Chat
open Base

/-- Values of the same kind, and related messages. -/
inductive ValueRel (R : MessageData → MessageData → Prop) : MsgValue → MsgValue → Prop
  | message {m m' : MessageData} (h : R m m') : ValueRel R (.message m) (.message m')
  | empty : ValueRel R .empty .empty

/-- The same keys, with related values. -/
def Alike (R : MessageData → MessageData → Prop) (db db' : MsgDb) : Prop :=
  ∀ k, Option.Rel (ValueRel R) (db.get k) (db'.get k)

/-- What the reads look at besides the keys. -/
def KeepsPlace (R : MessageData → MessageData → Prop) : Prop :=
  ∀ m m', R m m' →
    m'.conversationId = m.conversationId ∧ m'.toId = m.toId ∧ m'.timestamp = m.timestamp

variable {R Q : MessageData → MessageData → Prop} {db db' : MsgDb}

theorem Alike.mono (h : Alike R db db') (hQ : ∀ m m', R m m' → Q m m') : Alike Q db db' := by
  intro k
  have hk := h k
  generalize db.get k = o at hk
  generalize db'.get k = o' at hk
  cases hk with
  | none => exact .none
  | some hv =>
    cases hv with
    | message hm => exact .some (.message (hQ _ _ hm))
    | empty => exact .some .empty

theorem Alike.getById (h : Alike R db db') (id : Bytes) :
    Option.Rel R (getById db id) (getById db' id) := by
  unfold Chat.getById
  by_cases hid : id = []
  · rw [if_pos hid, if_pos hid]
    exact .none
  · rw [if_neg hid, if_neg hid]
    have hk := h (keyMsg id)
    generalize db.get (keyMsg id) = o at hk
    generalize db'.get (keyMsg id) = o' at hk
    cases hk with
    | none => exact .none
    | some hv =>
      cases hv with
      | message hm => exact .some hm
      | empty => exact .none

theorem Alike.seek_keys (h : Alike R db db') (k : Bytes) :
    (db.seek k).map Prod.fst = (db'.seek k).map Prod.fst := by
  refine OrderedMap.seek_keys ?_ k
  intro k'
  have hk := h k'
  generalize db.get k' = o at hk
  generalize db'.get k' = o' at hk
  cases hk with
  | none => rfl
  | some hv => rfl

/-- The loop of `GetHistory` looks at the keys only. -/
theorem historyLoop_keys {pfx : Bytes} {cutoff limit : Int} {it it' : List (Bytes × MsgValue)}
    (h : it.map Prod.fst = it'.map Prod.fst) (keys : List Bytes) :
    historyLoop pfx cutoff limit it keys = historyLoop pfx cutoff limit it' keys := by
  induction it generalizing it' keys with
  | nil =>
    obtain rfl := List.map_eq_nil_iff.mp h.symm
    rfl
  | cons e it ih =>
    cases it' with
    | nil => cases h
    | cons e' it' =>
      obtain ⟨hkey, hrest⟩ := List.cons.inj h
      simp only [historyLoop, hkey, ih hrest]

theorem Alike.filterMap_getById (h : Alike R db db') (ids : List Bytes) :
    List.Forall₂ R (ids.filterMap (Chat.getById db)) (ids.filterMap (Chat.getById db')) := by
  induction ids with
  | nil => exact .nil
  | cons id ids ih =>
    have hid := h.getById id
    cases hm : Chat.getById db id with
    | none =>
      rw [hm] at hid
      cases hm' : Chat.getById db' id with
      | none => simpa [hm, hm'] using ih
      | some m' =>
        rw [hm'] at hid
        cases hid
    | some m =>
      rw [hm] at hid
      cases hm' : Chat.getById db' id with
      | none =>
        rw [hm'] at hid
        cases hid
      | some m' =>
        rw [hm'] at hid
        cases hid with
        | some hR =>
          rw [List.filterMap_cons_some hm, List.filterMap_cons_some hm']
          exact .cons hR ih

theorem Alike.historyFrom (h : Alike R db db') (c : Bytes) (cutoff limit : Int) :
    List.Forall₂ R (historyFrom db c cutoff limit) (historyFrom db' c cutoff limit) := by
  unfold Chat.historyFrom
  rw [historyLoop_keys (h.seek_keys (prefixChat c))]
  exact h.filterMap_getById _

theorem Alike.getHistory (hR : KeepsPlace R) (h : Alike R db db') (c before : Bytes)
    (limit : Int) : List.Forall₂ R (getHistory db c before limit) (getHistory db' c before limit) := by
  unfold Chat.getHistory
  split
  · exact .nil
  split
  · exact h.historyFrom c (-1) limit
  have hid := h.getById before
  cases hm : Chat.getById db before with
  | none =>
    rw [hm] at hid
    cases hm' : Chat.getById db' before with
    | none => exact .nil
    | some m' =>
      rw [hm'] at hid
      cases hid
  | some m =>
    rw [hm] at hid
    cases hm' : Chat.getById db' before with
    | none =>
      rw [hm'] at hid
      cases hid
    | some m' =>
      rw [hm'] at hid
      cases hid with
      | some hRm =>
        obtain ⟨hconv, hto, hts⟩ := hR m m' hRm
        simp only [hconv, hto, hts]
        split
        · exact .nil
        · exact h.historyFrom c _ limit

/-- The loops of `PullOffline` have come equally far. -/
structure ScanRel (R : MessageData → MessageData → Prop) (t t' : PullScan) : Prop where
  skip : t'.skip = t.skip
  count : t'.count = t.count
  lastRevTs : t'.lastRevTs = t.lastRevTs
  result : List.Forall₂ R t.result t'.result

theorem ScanRel.push {t t' : PullScan} (h : ScanRel R t t') {m m' : MessageData} (hm : R m m')
    (revTs : Bytes) :
    ScanRel R { t with result := t.result ++ [m], lastRevTs := revTs, count := t.count + 1 }
      { t' with result := t'.result ++ [m'], lastRevTs := revTs, count := t'.count + 1 } where
  skip := h.skip
  count := congrArg (· + 1) h.count
  lastRevTs := rfl
  result := List.rel_append h.result (.cons hm .nil)

theorem Alike.pullLoop (h : Alike R db db') (pfx cursor : Bytes) (limit : Int)
    {it it' : List (Bytes × MsgValue)} (hit : it.map Prod.fst = it'.map Prod.fst)
    {t t' : PullScan} (ht : ScanRel R t t') :
    ScanRel R (pullLoop db pfx cursor limit it t).1 (pullLoop db' pfx cursor limit it' t').1 ∧
      (pullLoop db pfx cursor limit it t).2.map Prod.fst =
        (pullLoop db' pfx cursor limit it' t').2.map Prod.fst := by
  induction it generalizing it' t t' with
  | nil =>
    obtain rfl := List.map_eq_nil_iff.mp hit.symm
    exact ⟨ht, rfl⟩
  | cons e it ih =>
    cases it' with
    | nil => cases hit
    | cons e' it' =>
      obtain ⟨hkey, hrest⟩ := List.cons.inj hit
      obtain ⟨skip, count, revTs, result⟩ := t
      obtain ⟨skip', count', revTs', result'⟩ := t'
      obtain ⟨rfl, rfl, rfl, hresult⟩ := ht
      have ht : ScanRel R ⟨skip', count', revTs', result⟩ ⟨skip', count', revTs', result'⟩ :=
        ⟨rfl, rfl, rfl, hresult⟩
      simp only [Chat.pullLoop, ← hkey]
      split
      · exact ⟨ht, hit⟩
      split
      · exact ih hrest ⟨rfl, rfl, rfl, hresult⟩
      split
      · exact ih hrest ht
      have hid := h.getById (parseOfflineKey e.1 pfx).2
      generalize Chat.getById db (parseOfflineKey e.1 pfx).2 = o at hid
      generalize Chat.getById db' (parseOfflineKey e.1 pfx).2 = o' at hid
      cases hid with
      | none => exact ih hrest ht
      | some hm =>
        have hpush := ht.push hm (parseOfflineKey e.1 pfx).1
        simp only
        split
        · exact ⟨hpush, hit⟩
        · exact ih hrest hpush

theorem underPrefix_keys {pfx : Bytes} {it it' : List (Bytes × MsgValue)}
    (h : it.map Prod.fst = it'.map Prod.fst) : underPrefix pfx it = underPrefix pfx it' := by
  cases it with
  | nil =>
    obtain rfl := List.map_eq_nil_iff.mp h.symm
    rfl
  | cons e it =>
    cases it' with
    | nil => cases h
    | cons e' it' =>
      obtain ⟨hkey, _⟩ := List.cons.inj h
      simp [underPrefix, hkey]

/-- The same cursor and the same word on what follows, over related messages. -/
structure PageRel (R : MessageData → MessageData → Prop) (p p' : PullResult) : Prop where
  messages : List.Forall₂ R p.messages p'.messages
  nextCursor : p'.nextCursor = p.nextCursor
  hasMore : p'.hasMore = p.hasMore

theorem Alike.pullOffline (h : Alike R db db') (u cursor : Bytes) (limit : Int) :
    PageRel R (pullOffline db u cursor limit) (pullOffline db' u cursor limit) := by
  unfold Chat.pullOffline
  split
  · exact ⟨.nil, rfl, rfl⟩
  have hstart : ScanRel R { skip := !cursor.isEmpty } { skip := !cursor.isEmpty } :=
    ⟨rfl, rfl, rfl, .nil⟩
  obtain ⟨hscan, hkeys⟩ :=
    h.pullLoop (prefixOffline u) cursor limit (h.seek_keys (prefixOffline u)) hstart
  have htail : (Chat.pullLoop db (prefixOffline u) cursor limit (db.seek (prefixOffline u))
      { skip := !cursor.isEmpty }).2.tail.map Prod.fst =
      (Chat.pullLoop db' (prefixOffline u) cursor limit (db'.seek (prefixOffline u))
        { skip := !cursor.isEmpty }).2.tail.map Prod.fst := by
    rw [List.map_tail, List.map_tail, hkeys]
  simp only [pageOf, hscan.count, underPrefix_keys hkeys, underPrefix_keys htail]
  split
  · exact ⟨hscan.result, hscan.lastRevTs, rfl⟩
  · exact ⟨hscan.result, rfl, rfl⟩

/-! The same over whole states, whose other databases are equal. -/

structure AlikeStates (R : MessageData → MessageData → Prop) (s s' : ChatState) : Prop where
  msgs : Alike R s.msgs s'.msgs
  convs : s'.convs = s.convs
  metas : s'.metas = s.metas
  groups : s'.groups = s.groups

theorem AlikeStates.getHistory (hR : KeepsPlace R) {s s' : ChatState} (h : AlikeStates R s s')
    (u chatId : Bytes) (ct : ChatType) (before : Bytes) (limit : Int) :
    List.Forall₂ R (ChatService.getHistory s u chatId ct before limit).2
      (ChatService.getHistory s' u chatId ct before limit).2 := by
  unfold ChatService.getHistory
  split
  · exact .nil
  have hid : (ChatService.resolveConversationId s' u chatId ct).2 =
      (ChatService.resolveConversationId s u chatId ct).2 := by
    unfold ChatService.resolveConversationId
    rw [h.metas]
    split
    · rfl
    · cases ct <;> rfl
  have hresolved : ∀ t : ChatState, (ChatService.resolveConversationId t u chatId ct).1.msgs = t.msgs ∧
      (ChatService.resolveConversationId t u chatId ct).1.groups = t.groups := by
    intro t
    unfold ChatService.resolveConversationId
    split
    · exact ⟨rfl, rfl⟩
    · cases ct <;> exact ⟨rfl, rfl⟩
  simp only [hid, (hresolved s).1, (hresolved s).2, (hresolved s').1, (hresolved s').2, h.groups]
  split
  · exact .nil
  split
  · exact .nil
  · exact h.msgs.getHistory hR _ before limit

theorem AlikeStates.pullOffline {s s' : ChatState} (h : AlikeStates R s s') (u cursor : Bytes)
    (limit : Int) :
    PageRel R (ChatService.pullOffline s u cursor limit)
      (ChatService.pullOffline s' u cursor limit) :=
  h.msgs.pullOffline u cursor _

end SwiftChat.Chat
