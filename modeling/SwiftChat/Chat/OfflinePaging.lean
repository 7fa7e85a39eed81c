import SwiftChat.Base.Paging
import SwiftChat.Chat.StoreInvariant
import Mathlib.Data.List.Forall2

/-! Draining an offline queue page by page. -/
namespace SwiftChat.Chat
open Base
variable {db : MsgDb} {u cursor : Bytes} {limit : Int} {es rest : List (Bytes × MsgValue)}
  {m : MessageData} {ms : List MessageData} {s : PullScan} {n : Nat}

inductive StoreOp where
  | save (msg : MessageData)
  | markRecalled (msgId : Bytes) (recallAt : Int)
  | addToOffline (userId msgId : Bytes)
  | clearOffline (userId untilMsgId : Bytes)

def storeStep (db : MsgDb) : StoreOp → MsgDb
  | .save msg => (save db msg).1
  | .markRecalled msgId recallAt => (markRecalled db msgId recallAt).1
  | .addToOffline userId msgId => (addToOffline db userId msgId).1
  | .clearOffline userId untilMsgId => (clearOffline db userId untilMsgId).1

def storeAfter (ops : List StoreOp) : MsgDb := run storeStep OrderedMap.empty ops

/-- What the callers promise: timestamps of 13 digits and user ids without the separator. -/
def StoreOp.Ok : StoreOp → Prop
  | .save msg => InRange msg.timestamp
  | .addToOffline userId _ => colon ∉ userId
  | _ => True

instance : ∀ op : StoreOp, Decidable op.Ok
  | .save msg => inferInstanceAs (Decidable (InRange msg.timestamp))
  | .addToOffline userId _ => inferInstanceAs (Decidable (colon ∉ userId))
  | .markRecalled _ _ => .isTrue trivial
  | .clearOffline _ _ => .isTrue trivial

/-- The stores built under that promise. -/
abbrev PlainStore (db : MsgDb) : Prop :=
  WellFormed (fun u => colon ∉ u) (fun m => InRange m.timestamp) db

theorem storeStep_write {op : StoreOp} (h : op.Ok) :
    Write (fun u => colon ∉ u) (fun m => InRange m.timestamp) db (storeStep db op) := by
  cases op with
  | save msg => exact save_write h
  | markRecalled msgId recallAt => exact markRecalled_write
  | addToOffline userId msgId => exact addToOffline_write h
  | clearOffline userId untilMsgId => exact clearOffline_write

theorem plainStore_after {ops : List StoreOp} (h : ∀ op ∈ ops, op.Ok) :
    PlainStore (storeAfter ops) := by
  refine run_invariant ?_ wellFormed_empty h
  intro db op hdb hop
  exact (storeStep_write hop).wellFormed (fun _ _ hm => hm) hdb

/-- A stored message that has an entry in the queue of `u`. -/
def Queued (db : MsgDb) (u : Bytes) (m : MessageData) : Prop :=
  getById db m.msgId = some m ∧ db.get (keyOffline u m.timestamp m.msgId) = some .empty

instance (db : MsgDb) (u : Bytes) (m : MessageData) : Decidable (Queued db u m) :=
  inferInstanceAs (Decidable (_ ∧ _))

/-- The queued messages of `u` in key order. -/
def offlineQueue (db : MsgDb) (u : Bytes) : List MessageData :=
  (db.scan (prefixOffline u)).filterMap fun e =>
    getById db (parseOfflineKey e.1 (prefixOffline u)).2

/-- A list is the whole queue of `u`: it has exactly the queued messages, in key order. -/
def IsOfflineQueue (db : MsgDb) (u : Bytes) (l : List MessageData) : Prop :=
  (∀ m, m ∈ l ↔ Queued db u m) ∧
    l.Pairwise (fun a b => keyOffline u a.timestamp a.msgId < keyOffline u b.timestamp b.msgId)

/-- An entry of the queue of `u` and the message it stands for. -/
def Resolves (db : MsgDb) (u : Bytes) (e : Bytes × MsgValue) (m : MessageData) : Prop :=
  getById db m.msgId = some m ∧ e.1 = keyOffline u m.timestamp m.msgId

theorem Resolves.parse {e : Bytes × MsgValue} (h : Resolves db u e m) :
    parseOfflineKey e.1 (prefixOffline u) = (revTs m.timestamp, m.msgId) := by
  rw [h.2]
  exact parse_indexKey _ _ _ (get_of_getById h.1).1

theorem Resolves.under {e : Bytes × MsgValue} (h : Resolves db u e m) :
    (prefixOffline u).isPrefixOf e.1 = true := by
  rw [h.2, List.isPrefixOf_iff_prefix]
  exact indexPrefix_isPrefix _ _ _ _

theorem Queued.mem_scan (h : Queued db u m) :
    (keyOffline u m.timestamp m.msgId, MsgValue.empty) ∈ db.scan (prefixOffline u) :=
  OrderedMap.mem_scan.mpr ⟨h.2, indexPrefix_isPrefix _ _ _ _⟩

theorem Queued.resolves (h : Queued db u m) :
    Resolves db u (keyOffline u m.timestamp m.msgId, .empty) m := ⟨h.1, rfl⟩

theorem Resolves.queued (hdb : PlainStore db) {e : Bytes × MsgValue} (h : Resolves db u e m)
    (he : e ∈ db.scan (prefixOffline u)) : Queued db u m := by
  have hget := (OrderedMap.mem_scan.mp (show (e.1, e.2) ∈ _ from he)).1
  refine ⟨h.1, ?_⟩
  rw [← h.2, hget, (hdb.offline hget (kOffline_isPrefix_of_scan he)).1]

theorem resolves_of_mem_scan (hdb : PlainStore db) (hu : colon ∉ u) {e : Bytes × MsgValue}
    (he : e ∈ db.scan (prefixOffline u)) : u ≠ [] ∧ ∃ m, Resolves db u e m := by
  obtain ⟨hget, hp⟩ := OrderedMap.mem_scan.mp (show (e.1, e.2) ∈ _ from he)
  obtain ⟨_, w, m, hw, hne, hg, hk⟩ := hdb.offline hget (kOffline_isPrefix_of_scan he)
  have hp' : indexPrefix kOffline u <+: indexKey kOffline w m.timestamp m.msgId := by
    rw [hk] at hp
    exact hp
  obtain rfl := owner_eq_of_isPrefix hu hw hp'
  exact ⟨hne, m, hg, hk⟩

/-- A lookup through an entry finds the message the entry stands for. -/
theorem resolves_of_lookup (hdb : PlainStore db) (hu : colon ∉ u) {e : Bytes × MsgValue}
    (he : e ∈ db.scan (prefixOffline u))
    (hg : getById db (parseOfflineKey e.1 (prefixOffline u)).2 = some m) : Resolves db u e m := by
  obtain ⟨_, m', hr⟩ := resolves_of_mem_scan hdb hu he
  rw [hr.parse, hr.1] at hg
  rwa [← Option.some.inj hg]

theorem scan_resolves (hdb : PlainStore db) (hu : colon ∉ u) :
    List.Forall₂ (Resolves db u) (db.scan (prefixOffline u)) (offlineQueue db u) := by
  refine forall₂_filterMap ?_ (fun e he => (resolves_of_mem_scan hdb hu he).2)
  intro e m hr
  rw [hr.parse]
  exact hr.1

theorem mem_offlineQueue (hdb : PlainStore db) (hu : colon ∉ u) :
    m ∈ offlineQueue db u ↔ Queued db u m := by
  constructor
  · intro hm
    obtain ⟨e, he, hg⟩ := List.mem_filterMap.mp hm
    exact (resolves_of_lookup hdb hu he hg).queued hdb he
  · intro hq
    refine List.mem_filterMap.mpr ⟨_, hq.mem_scan, ?_⟩
    rw [hq.resolves.parse]
    exact hq.1

/-- Nobody queues for the empty user id. -/
theorem user_ne_nil (hdb : PlainStore db) (hu : colon ∉ u) (hm : Queued db u m) : u ≠ [] :=
  (resolves_of_mem_scan hdb hu hm.mem_scan).1

theorem offlineQueue_pairwise (hdb : PlainStore db) (hu : colon ∉ u) :
    (offlineQueue db u).Pairwise
      (fun a b => keyOffline u a.timestamp a.msgId < keyOffline u b.timestamp b.msgId) := by
  rw [offlineQueue, List.pairwise_filterMap]
  refine OrderedMap.scan_pairwise.imp_of_mem ?_
  intro e e' he he' hlt m hm m' hm'
  rw [← (resolves_of_lookup hdb hu he hm).2, ← (resolves_of_lookup hdb hu he' hm').2]
  exact hlt

theorem isOfflineQueue_offlineQueue (hdb : PlainStore db) (hu : colon ∉ u) :
    IsOfflineQueue db u (offlineQueue db u) :=
  ⟨fun _ => mem_offlineQueue hdb hu, offlineQueue_pairwise hdb hu⟩

/-- The queue is the only list of that kind. -/
theorem isOfflineQueue_iff (hdb : PlainStore db) (hu : colon ∉ u) :
    IsOfflineQueue db u ms ↔ ms = offlineQueue db u := by
  constructor
  · rintro ⟨hmem, hp⟩
    apply OrderedMap.eq_of_mem_iff hp (offlineQueue_pairwise hdb hu)
    exact fun m => (hmem m).trans (mem_offlineQueue hdb hu).symm
  · intro h
    rw [h]
    exact isOfflineQueue_offlineQueue hdb hu

/-- The key the cursor compares. -/
def pageKey (m : MessageData) : Bytes := revTs m.timestamp

/-- A later queued message is not newer. -/
theorem offlineQueue_sorted (hdb : PlainStore db) (hu : colon ∉ u) :
    (offlineQueue db u).Pairwise (fun a b => pageKey a ≤ pageKey b) := by
  refine (offlineQueue_pairwise hdb hu).imp ?_
  intro a b hlt
  rcases indexKey_lt_iff.mp hlt with h | ⟨h, _⟩
  · exact h.le
  · exact h.le

theorem offlineQueue_nodup (hdb : PlainStore db) (hu : colon ∉ u) : (offlineQueue db u).Nodup :=
  OrderedMap.nodup_of_keys (offlineQueue_pairwise hdb hu)

/-- An iterator visits the entries under the prefix and then leaves it. -/
theorem seek_eq_scan_append (db : MsgDb) (pfx : Bytes) :
    ∃ rest, db.seek pfx = db.scan pfx ++ rest ∧ underPrefix pfx rest = false := by
  refine ⟨(db.seek pfx).dropWhile (fun e => pfx.isPrefixOf e.1),
    List.takeWhile_append_dropWhile.symm, ?_⟩
  cases h : ((db.seek pfx).dropWhile (fun e => pfx.isPrefixOf e.1)).head? with
  | none => simp [underPrefix, h]
  | some e =>
    have := List.head?_dropWhile_not (fun e : Bytes × MsgValue => pfx.isPrefixOf e.1) (db.seek pfx)
    rw [h] at this
    simpa [underPrefix, h] using this

/-! The loop of `PullOffline` on an iterator that first visits `es` and then leaves the prefix. -/

theorem pullLoop_outside (h : underPrefix (prefixOffline u) rest = false) :
    pullLoop db (prefixOffline u) cursor limit rest s = (s, rest) := by
  cases rest with
  | nil => rfl
  | cons e rest =>
    have he : (prefixOffline u).isPrefixOf e.1 = false := h
    simp [pullLoop, he]

theorem pullLoop_cons {e : Bytes × MsgValue} {it : List (Bytes × MsgValue)}
    (h : Resolves db u e m) (hs : s.skip = false) :
    pullLoop db (prefixOffline u) cursor limit (e :: it) s =
      (let s' := { s with
        result := s.result ++ [m], lastRevTs := revTs m.timestamp, count := s.count + 1 }
      if s'.count ≥ limit then (s', e :: it)
      else pullLoop db (prefixOffline u) cursor limit it s') := by
  simp only [pullLoop, h.under, h.parse, hs, h.1]
  simp

/-- With `n` more messages to take, the loop stops on the last of them when there are enough. -/
theorem pullLoop_full (h : List.Forall₂ (Resolves db u) es ms) (hs : s.skip = false)
    (hn : s.count + (n + 1 : Nat) = limit) (hlen : n < ms.length) :
    pullLoop db (prefixOffline u) cursor limit (es ++ rest) s =
      ({ s with
        result := s.result ++ ms.take (n + 1), lastRevTs := revTs (ms[n]).timestamp,
        count := limit }, es.drop n ++ rest) := by
  induction h generalizing s n with
  | nil => simp at hlen
  | @cons e m es ms hr hes ih =>
    rw [List.cons_append, pullLoop_cons hr hs]
    cases n with
    | zero =>
      have hfull : s.count + 1 = limit := by simpa using hn
      simp [hfull]
    | succ n =>
      have hmore : ¬ s.count + 1 ≥ limit := by push_cast at hn; omega
      simp only [hmore, if_false]
      have hlen' : n < ms.length := by simpa using hlen
      rw [ih (s := { s with
        result := s.result ++ [m], lastRevTs := revTs m.timestamp, count := s.count + 1 }) hs
        (by push_cast at hn ⊢; omega) hlen']
      simp

/-- When there are not enough messages, the loop takes them all and leaves the prefix. -/
theorem pullLoop_short (h : List.Forall₂ (Resolves db u) es ms) (hs : s.skip = false)
    (hrest : underPrefix (prefixOffline u) rest = false)
    (hlt : s.count + (ms.length : Nat) < limit) :
    ∃ s', pullLoop db (prefixOffline u) cursor limit (es ++ rest) s = (s', rest) ∧
      s'.result = s.result ++ ms ∧ s'.count < limit := by
  induction h generalizing s with
  | nil => exact ⟨s, by rw [List.nil_append, pullLoop_outside hrest], by simp, by simpa using hlt⟩
  | @cons e m es ms hr hes ih =>
    have hmore : ¬ s.count + 1 ≥ limit := by simp at hlt; omega
    rw [List.cons_append, pullLoop_cons hr hs]
    simp only [hmore, if_false]
    obtain ⟨s', hs', hres, hcount⟩ := ih (s := { s with
      result := s.result ++ [m], lastRevTs := revTs m.timestamp, count := s.count + 1 }) hs
      (by simp at hlt ⊢; omega)
    exact ⟨s', hs', by simp [hres], hcount⟩

/-- Looking for the cursor drops the entries up to the first one with its timestamp. -/
theorem pullLoop_skip (cursor : Bytes) (limit : Int) (h : List.Forall₂ (Resolves db u) es ms)
    (hs : s.skip = true) (hrest : underPrefix (prefixOffline u) rest = false) :
    ∃ es' b, List.Forall₂ (Resolves db u) es' (afterCursor pageKey ms (some cursor)) ∧
      pullLoop db (prefixOffline u) cursor limit (es ++ rest) s =
        ({ (pullLoop db (prefixOffline u) cursor limit (es' ++ rest) { s with skip := false }).1
          with skip := b },
          (pullLoop db (prefixOffline u) cursor limit (es' ++ rest) { s with skip := false }).2) := by
  induction h with
  | nil =>
    refine ⟨[], true, by simp [afterCursor], ?_⟩
    rw [List.nil_append, pullLoop_outside hrest, pullLoop_outside hrest]
    simp [← hs]
  | @cons e m es ms hr hes ih =>
    by_cases hc : revTs m.timestamp = cursor
    · refine ⟨es, (pullLoop db (prefixOffline u) cursor limit (es ++ rest)
        { s with skip := false }).1.skip, ?_, ?_⟩
      · simpa [afterCursor, pageKey, hc] using hes
      · simp [pullLoop, hr.under, hr.parse, hs, hc]
    · obtain ⟨es', b, hes', hloop⟩ := ih
      refine ⟨es', b, ?_, ?_⟩
      · simpa [afterCursor, pageKey, hc] using hes'
      · rw [← hloop]
        simp [pullLoop, hr.under, hr.parse, hs, hc]

/-- The page a caller sees for the messages that are left. -/
def pageResult (limit : Nat) (ys : List MessageData) : PullResult :=
  match nextCursor pageKey limit ys with
  | none => { messages := ys.take limit }
  | some c => { messages := ys.take limit, nextCursor := c, hasMore := true }

theorem underPrefix_entries (h : List.Forall₂ (Resolves db u) es ms)
    (hrest : underPrefix (prefixOffline u) rest = false) :
    underPrefix (prefixOffline u) (es ++ rest) = true ↔ 0 < ms.length := by
  cases h with
  | nil => simp [hrest]
  | cons hr _ => simp [underPrefix, hr.under]

theorem pageOf_pullLoop (h : List.Forall₂ (Resolves db u) es ms) (hs : s.skip = false)
    (hrest : underPrefix (prefixOffline u) rest = false) (hcount : s.count = 0)
    (hresult : s.result = []) (b : Bool) :
    pageOf (prefixOffline u) (n + 1 : Nat)
      { (pullLoop db (prefixOffline u) cursor (n + 1 : Nat) (es ++ rest) s).1 with skip := b }
      (pullLoop db (prefixOffline u) cursor (n + 1 : Nat) (es ++ rest) s).2 =
      pageResult (n + 1) ms := by
  rcases Nat.lt_or_ge n ms.length with hlen | hlen
  · rw [pullLoop_full h hs (by simp [hcount]) hlen]
    have hat := underPrefix_entries (List.forall₂_drop n h) hrest
    have hnext := underPrefix_entries (List.forall₂_drop (n + 1) h) hrest
    have htail : (es.drop n ++ rest).tail = es.drop (n + 1) ++ rest := by
      have : n < es.length := h.length_eq ▸ hlen
      rw [List.drop_eq_getElem_cons this]
      rfl
    simp only [pageOf, htail, hat, hnext, pageResult, nextCursor, hresult, List.length_drop]
    by_cases hmore : n + 1 < ms.length
    · rw [if_pos ⟨by simp, by omega, by omega⟩, if_pos hmore]
      simp [hlen, pageKey]
    · rw [if_neg (by omega), if_neg hmore]
      simp
  · obtain ⟨s', hloop, hres, hlt⟩ :
        ∃ s', pullLoop db (prefixOffline u) cursor (n + 1 : Nat) (es ++ rest) s = (s', rest) ∧
          s'.result = s.result ++ ms ∧ s'.count < (n + 1 : Nat) :=
      pullLoop_short h hs hrest (by rw [hcount]; omega)
    rw [hloop]
    simp only [pageOf, pageResult, nextCursor]
    rw [if_neg (by omega), if_neg (by omega), hres, hresult, List.take_of_length_le (by omega)]
    rfl

/-- The cursor string of a request: empty for the first page. -/
def cursorString (c : Option Bytes) : Bytes := c.getD []

/-- `PullOffline` returns the next page of the queue behind the first entry with the cursor's
timestamp. -/
theorem pullOffline_eq (hdb : PlainStore db) (hu : colon ∉ u) (hne : u ≠ []) {c : Option Bytes}
    (hc : c ≠ some []) :
    pullOffline db u (cursorString c) (n + 1 : Nat) =
      pageResult (n + 1) (afterCursor pageKey (offlineQueue db u) c) := by
  have hscan := scan_resolves hdb hu
  obtain ⟨rest, hseek, hrest⟩ := seek_eq_scan_append db (prefixOffline u)
  have hgo : ¬ (u = [] ∨ ((n + 1 : Nat) : Int) ≤ 0) := by simp [hne]
  simp only [pullOffline, hgo, if_false, hseek]
  cases c with
  | none => exact pageOf_pullLoop hscan (by simp [cursorString]) hrest rfl rfl _
  | some c =>
    have hcne : c ≠ [] := fun he => hc (by rw [he])
    simp only [cursorString, Option.getD_some]
    obtain ⟨es', b, hes', hloop⟩ := pullLoop_skip (s := { skip := !c.isEmpty }) c (n + 1 : Nat) hscan
      (by simp [hcne]) hrest
    rw [hloop]
    exact pageOf_pullLoop hes' rfl hrest rfl rfl b

/-- The client's loop: pull, feed the cursor back, stop when there is no more. -/
def pullAll (db : MsgDb) (u : Bytes) (limit : Int) : Nat → Bytes → Option (List (List MessageData))
  | 0, _ => none
  | fuel + 1, cursor =>
    let r := pullOffline db u cursor limit
    if r.hasMore then (pullAll db u limit fuel r.nextCursor).map (r.messages :: ·)
    else some [r.messages]

theorem pullAll_eq_pages (hdb : PlainStore db) (hu : colon ∉ u) (hne : u ≠ []) (fuel : Nat)
    {c : Option Bytes} (hc : c ≠ some []) :
    pullAll db u (n + 1 : Nat) fuel (cursorString c) =
      pages pageKey (n + 1) (offlineQueue db u) fuel c := by
  induction fuel generalizing c with
  | zero => rfl
  | succ fuel ih =>
    simp only [pullAll, pages, pullOffline_eq hdb hu hne hc, pageResult]
    cases hnext : nextCursor pageKey (n + 1) (afterCursor pageKey (offlineQueue db u) c) with
    | none => simp
    | some c' =>
      have hc' : some c' ≠ some [] := by
        intro he
        rw [nextCursor] at hnext
        split at hnext
        · obtain ⟨m, _, hm⟩ := Option.map_eq_some_iff.mp hnext
          have hlen := congrArg List.length (hm.trans (Option.some.inj he))
          simp [pageKey] at hlen
        · cases hnext
      simp only [if_true]
      rw [← ih hc']
      rfl

/-- No page ends inside a run of equal timestamps: where the queue is cut behind `k` pages, the
last message before the cut does not share its timestamp with the one before it. -/
def CutsDistinct (db : MsgDb) (u : Bytes) (limit : Nat) : Prop :=
  ∀ k a b, 2 ≤ k * limit → k * limit < (offlineQueue db u).length →
    (offlineQueue db u)[k * limit - 2]? = some a → (offlineQueue db u)[k * limit - 1]? = some b →
    a.timestamp ≠ b.timestamp

theorem inRange_of_mem (hdb : PlainStore db) (hu : colon ∉ u) (hm : m ∈ offlineQueue db u) :
    InRange m.timestamp :=
  (hdb.message ((mem_offlineQueue hdb hu).mp hm).1).2

theorem cutsDistinct_iff_clean (hdb : PlainStore db) (hu : colon ∉ u) :
    CutsDistinct db u n ↔ ∀ k, 0 < k → k * n < (offlineQueue db u).length →
      CleanCut pageKey (offlineQueue db u) (k * n) := by
  constructor
  · intro h k _ hlt h2 hle hkey
    have hne := h k _ _ h2 hlt (List.getElem?_eq_getElem (by omega))
      (List.getElem?_eq_getElem (by omega))
    exact hne ((revTs_inj (inRange_of_mem hdb hu (List.getElem_mem _))
      (inRange_of_mem hdb hu (List.getElem_mem _))).mp hkey)
  · intro h k a b h2 hlt ha hb hts
    have hk : 0 < k := Nat.pos_of_ne_zero (fun he => by simp [he] at h2)
    obtain ⟨_, rfl⟩ := List.getElem?_eq_some_iff.mp ha
    obtain ⟨_, rfl⟩ := List.getElem?_eq_some_iff.mp hb
    exact h k hk hlt h2 (Nat.le_of_lt hlt) (congrArg revTs hts)

theorem pullAll_complete_iff (hdb : PlainStore db) (hu : colon ∉ u) (hl : 1 ≤ limit) :
    (∃ fuel ps, pullAll db u limit fuel [] = some ps ∧ IsOfflineQueue db u ps.flatten) ↔
      CutsDistinct db u limit.toNat := by
  obtain ⟨n, rfl⟩ : ∃ n : Nat, limit = (n + 1 : Nat) := ⟨limit.toNat - 1, by omega⟩
  simp only [isOfflineQueue_iff hdb hu, Int.toNat_natCast]
  by_cases hne : u = []
  · -- the store answers the empty user id at once
    have hq : offlineQueue db u = [] := by
      refine List.eq_nil_iff_forall_not_mem.mpr ?_
      intro m hm
      exact user_ne_nil hdb hu ((mem_offlineQueue hdb hu).mp hm) hne
    refine ⟨fun _ => by simp [CutsDistinct, hq], fun _ => ⟨1, [[]], ?_, by simp [hq]⟩⟩
    simp [pullAll, pullOffline, hne]
  · rw [cutsDistinct_iff_clean hdb hu]
    refine Iff.trans ?_ (pages_iff (Nat.le_add_left 1 n) (offlineQueue_nodup hdb hu)
      (offlineQueue_sorted hdb hu))
    have hc : (none : Option Bytes) ≠ some [] := by simp
    constructor
    · rintro ⟨fuel, ps, hps, hflat⟩
      exact ⟨fuel, ps, (pullAll_eq_pages hdb hu hne fuel hc).symm.trans hps, hflat⟩
    · rintro ⟨fuel, ps, hps, hflat⟩
      exact ⟨fuel, ps, (pullAll_eq_pages hdb hu hne fuel hc).trans hps, hflat⟩

/-- For a queue built by any run of store operations, draining it page by page ends and returns
every queued message once, newest first, exactly when no page ends inside a run of equal
timestamps. -/
theorem pullOffline_pages_iff (ops : List StoreOp) (hops : ∀ op ∈ ops, op.Ok) (u : Bytes)
    (hu : colon ∉ u) (limit : Int) (hl : 1 ≤ limit) :
    (∃ fuel ps, pullAll (storeAfter ops) u limit fuel [] = some ps ∧
      IsOfflineQueue (storeAfter ops) u ps.flatten) ↔
      CutsDistinct (storeAfter ops) u limit.toNat :=
  pullAll_complete_iff (plainStore_after hops) hu hl

/-- Messages for one user that share a millisecond. -/
def burst (ids : List Bytes) : List StoreOp :=
  ids.flatMap fun id =>
    [.save { msgId := id, fromUserId := str "a", toId := str "b", timestamp := 5 },
      .addToOffline (str "b") id]

theorem burst_ok (ids : List Bytes) : ∀ op ∈ burst ids, op.Ok := by
  intro op hop
  obtain ⟨id, _, hid⟩ := List.mem_flatMap.mp hop
  rcases List.mem_cons.mp hid with rfl | hid
  · exact (⟨by decide, by decide⟩ : InRange 5)
  · rw [List.mem_singleton.mp hid]
    exact (by decide : colon ∉ str "b")

/-- Three messages of one millisecond and pages of two: the second page starts with the second
message again. -/
theorem pullOffline_repeats_burst :
    (∀ op ∈ burst [str "x", str "y", str "z"], op.Ok) ∧ colon ∉ str "b" ∧
    ¬ ∃ fuel ps, pullAll (storeAfter (burst [str "x", str "y", str "z"])) (str "b") 2 fuel [] =
        some ps ∧ IsOfflineQueue (storeAfter (burst [str "x", str "y", str "z"])) (str "b")
          ps.flatten := by
  refine ⟨burst_ok _, by decide, ?_⟩
  rw [pullAll_complete_iff (plainStore_after (burst_ok _)) (by decide) (by decide)]
  intro h
  exact h 1 { msgId := str "x", fromUserId := str "a", toId := str "b", timestamp := 5 }
    { msgId := str "y", fromUserId := str "a", toId := str "b", timestamp := 5 }
    (by decide) (by decide) (by decide) (by decide) rfl

/-- Two such messages fit on one page. -/
theorem pullOffline_pages_burst :
    ∃ fuel ps, pullAll (storeAfter (burst [str "x", str "y"])) (str "b") 2 fuel [] = some ps ∧
      IsOfflineQueue (storeAfter (burst [str "x", str "y"])) (str "b") ps.flatten := by
  refine (pullOffline_pages_iff _ (burst_ok _) _ (by decide) 2 (by decide)).mpr ?_
  intro k a b h2 hlt
  have hlen : (offlineQueue (storeAfter (burst [str "x", str "y"])) (str "b")).length = 2 := by
    decide
  rw [hlen] at hlt
  change 2 ≤ k * 2 at h2
  change k * 2 < 2 at hlt
  omega

end SwiftChat.Chat
