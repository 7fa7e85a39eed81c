import SwiftChat.Chat.History
import SwiftChat.Chat.OfflinePaging

/-! Reading a conversation back page by page. -/
namespace SwiftChat.Chat
open Base
variable {db : MsgDb} {c before : Bytes} {cutoff limit : Int} {es : List (Bytes × MsgValue)}
  {e : Bytes × MsgValue} {m : MessageData} {ms l : List MessageData} {n : Nat}

/-- What the callers promise of a message: a timestamp of 13 digits, and a conversation whose id has
no separator. -/
def FiledPlainly (m : MessageData) : Prop :=
  InRange m.timestamp ∧ timelineId m ≠ [] ∧ colon ∉ timelineId m

def StoreOp.Plain : StoreOp → Prop
  | .save msg => FiledPlainly msg
  | _ => True

/-- The stores built under that promise. -/
abbrev FiledStore (db : MsgDb) : Prop := WellFormed (fun _ => True) FiledPlainly db

theorem filedStore_after {ops : List StoreOp} (h : ∀ op ∈ ops, op.Plain) :
    FiledStore (storeAfter ops) := by
  refine run_invariant ?_ wellFormed_empty h
  intro db op hdb hop
  have hw : Write (fun _ => True) FiledPlainly db (storeStep db op) := by
    cases op with
    | save msg => exact save_write hop
    | markRecalled msgId recallAt => exact markRecalled_write
    | addToOffline userId msgId => exact addToOffline_write trivial
    | clearOffline userId untilMsgId => exact clearOffline_write
  exact hw.wellFormed (fun _ _ hm => hm) hdb

/-- A stored message of the conversation. -/
def InTimeline (db : MsgDb) (c : Bytes) (m : MessageData) : Prop :=
  getById db m.msgId = some m ∧ timelineId m = c

/-- The messages of a conversation in key order. -/
def timeline (db : MsgDb) (c : Bytes) : List MessageData :=
  (db.scan (prefixChat c)).filterMap fun e => getById db (parseChatKey e.1 (prefixChat c)).2

/-- A list is the whole conversation: every message once, newest first. -/
def IsTimeline (db : MsgDb) (c : Bytes) (l : List MessageData) : Prop :=
  l.Nodup ∧ (∀ m, m ∈ l ↔ InTimeline db c m) ∧ l.Pairwise (fun a b => b.timestamp ≤ a.timestamp)

/-- An entry of the timeline and the message it leads to. -/
def Leads (db : MsgDb) (c : Bytes) (e : Bytes × MsgValue) (m : MessageData) : Prop :=
  InTimeline db c m ∧ e.1 = keyChat c m.timestamp m.msgId

theorem Leads.parse (h : Leads db c e m) :
    parseChatKey e.1 (prefixChat c) = (revTs m.timestamp, m.msgId) := by
  rw [h.2]
  exact parse_indexKey _ _ _ (get_of_getById h.1.1).1

theorem leads_of_mem_scan (hdb : FiledStore db) (hc : colon ∉ c) (he : e ∈ db.scan (prefixChat c)) :
    ∃ m, Leads db c e m := by
  obtain ⟨hget, hp⟩ := OrderedMap.mem_scan.mp (show (e.1, e.2) ∈ _ from he)
  obtain ⟨_, m, hg, hk⟩ := hdb.chat hget ((kChat_isPrefix c).trans hp)
  have hp' : indexPrefix kChat c <+: indexKey kChat (timelineId m) m.timestamp m.msgId := by
    rw [hk] at hp
    exact hp
  have hown := owner_eq_of_isPrefix hc (hdb.message hg).2.2.2 hp'
  exact ⟨m, ⟨hg, hown.symm⟩, by rw [hk, hown]⟩

theorem leads_of_lookup (hdb : FiledStore db) (hc : colon ∉ c) (he : e ∈ db.scan (prefixChat c))
    (hg : getById db (parseChatKey e.1 (prefixChat c)).2 = some m) : Leads db c e m := by
  obtain ⟨m', hm'⟩ := leads_of_mem_scan hdb hc he
  rw [hm'.parse, hm'.1.1] at hg
  rwa [← Option.some.inj hg]

theorem scan_leads (hdb : FiledStore db) (hc : colon ∉ c) :
    List.Forall₂ (Leads db c) (db.scan (prefixChat c)) (timeline db c) := by
  refine forall₂_filterMap ?_ (fun e he => leads_of_mem_scan hdb hc he)
  intro e m h
  rw [h.parse]
  exact h.1.1

theorem mem_timeline (hdb : FiledStore db) (hc : colon ∉ c) :
    m ∈ timeline db c ↔ InTimeline db c m := by
  constructor
  · intro hm
    obtain ⟨e, he, hg⟩ := List.mem_filterMap.mp hm
    exact (leads_of_lookup hdb hc he hg).1
  · rintro ⟨hg, rfl⟩
    have hlead : Leads db (timelineId m) (keyChat (timelineId m) m.timestamp m.msgId, .empty) m :=
      ⟨⟨hg, rfl⟩, rfl⟩
    refine List.mem_filterMap.mpr ⟨_, OrderedMap.mem_scan.mpr ⟨hdb.indexed hg, ?_⟩, ?_⟩
    · exact indexPrefix_isPrefix _ _ _ _
    · rw [hlead.parse]
      exact hg

/-- The number a message is filed under. -/
def historyKey (m : MessageData) : Int := revOf m.timestamp

theorem timeline_pairwise (hdb : FiledStore db) (hc : colon ∉ c) :
    (timeline db c).Pairwise
      (fun a b => keyChat c a.timestamp a.msgId < keyChat c b.timestamp b.msgId) := by
  rw [timeline, List.pairwise_filterMap]
  refine OrderedMap.scan_pairwise.imp_of_mem ?_
  intro e e' he he' hlt m hm m' hm'
  rw [← (leads_of_lookup hdb hc he hm).2, ← (leads_of_lookup hdb hc he' hm').2]
  exact hlt

theorem timeline_sorted (hdb : FiledStore db) (hc : colon ∉ c) :
    (timeline db c).Pairwise (fun a b => historyKey a ≤ historyKey b) := by
  refine (timeline_pairwise hdb hc).imp ?_
  intro a b hlt
  rcases indexKey_lt_iff.mp hlt with h | ⟨h, _⟩
  · exact (revTs_lt_iff.mp h).le
  · have hle : ¬ revTs b.timestamp < revTs a.timestamp := by
      rw [h]
      exact lt_irrefl _
    exact not_lt.mp (revTs_lt_iff.not.mp hle)

theorem timeline_nodup (hdb : FiledStore db) (hc : colon ∉ c) : (timeline db c).Nodup :=
  OrderedMap.nodup_of_keys (timeline_pairwise hdb hc)

theorem historyKey_of_mem (hdb : FiledStore db) (hc : colon ∉ c) (hm : m ∈ timeline db c) :
    historyKey m = maxTs - m.timestamp :=
  revOf_of_inRange (hdb.message ((mem_timeline hdb hc).mp hm).1).2.1

theorem isTimeline_timeline (hdb : FiledStore db) (hc : colon ∉ c) :
    IsTimeline db c (timeline db c) := by
  refine ⟨timeline_nodup hdb hc, fun m => mem_timeline hdb hc, ?_⟩
  refine (timeline_sorted hdb hc).imp_of_mem ?_
  intro a b ha hb hle
  rw [historyKey_of_mem hdb hc ha, historyKey_of_mem hdb hc hb] at hle
  omega

/-- The only sublist that is the whole conversation is all of it. -/
theorem isTimeline_iff_of_sublist (hdb : FiledStore db) (hc : colon ∉ c)
    (hsub : l.Sublist (timeline db c)) : IsTimeline db c l ↔ l = timeline db c := by
  constructor
  · rintro ⟨hnodup, hmem, _⟩
    have hperm := (List.perm_ext_iff_of_nodup hnodup (timeline_nodup hdb hc)).mpr
      (fun m => (hmem m).trans (mem_timeline hdb hc).symm)
    exact hsub.eq_of_length hperm.length_eq
  · rintro rfl
    exact isTimeline_timeline hdb hc

/-! One page. -/

theorem historyEntry_of_leads (h : Leads db c e m) :
    historyEntry (prefixChat c) cutoff e.1 =
      if cutoff ≥ 0 ∧ historyKey m ≤ cutoff then none else some m.msgId := by
  simp [historyEntry, h.parse, stoll_revTs, historyKey]

/-- The ids the loop can take are those of the messages behind the cut-off. -/
theorem filterMap_historyEntry (h : List.Forall₂ (Leads db c) es ms) :
    es.filterMap (fun e => historyEntry (prefixChat c) cutoff e.1) =
      (ms.filter (fun m => ¬ (cutoff ≥ 0 ∧ historyKey m ≤ cutoff))).map MessageData.msgId := by
  induction h with
  | nil => rfl
  | @cons e m es ms hr _ ih =>
    rw [List.filterMap_cons, historyEntry_of_leads hr]
    by_cases hcut : cutoff ≥ 0 ∧ historyKey m ≤ cutoff
    · rw [if_pos hcut, List.filter_cons_of_neg (by simpa using hcut)]
      exact ih
    · rw [if_neg hcut, List.filter_cons_of_pos (by exact decide_eq_true hcut), List.map_cons, ← ih]

theorem filterMap_getById (h : ∀ m ∈ ms, getById db m.msgId = some m) :
    (ms.map MessageData.msgId).filterMap (getById db) = ms := by
  rw [List.filterMap_map]
  induction ms with
  | nil => rfl
  | cons m ms ih =>
    have hm : (getById db ∘ MessageData.msgId) m = some m := h m List.mem_cons_self
    rw [List.filterMap_cons_some hm, ih (fun m' h' => h m' (List.mem_cons_of_mem _ h'))]

theorem historyFrom_timeline (hdb : FiledStore db) (hc : colon ∉ c) :
    historyFrom db c cutoff (n + 1 : Nat) =
      ((timeline db c).filter (fun m => ¬ (cutoff ≥ 0 ∧ historyKey m ≤ cutoff))).take (n + 1) := by
  rw [historyFrom_eq, filterMap_historyEntry (scan_leads hdb hc), ← List.map_take]
  apply filterMap_getById
  intro m hm
  exact ((mem_timeline hdb hc).mp (List.mem_filter.mp (List.mem_of_mem_take hm)).1).1

/-- The first page: the newest messages. -/
theorem getHistory_first (hdb : FiledStore db) (hc : colon ∉ c) (hne : c ≠ []) :
    getHistory db c [] (n + 1 : Nat) = (behind historyKey (timeline db c) none).take (n + 1) := by
  have hgo : ¬ (c = [] ∨ ((n + 1 : Nat) : Int) ≤ 0) := by simp [hne]
  rw [getHistory, if_neg hgo, if_pos rfl, historyFrom_timeline hdb hc]
  simp [behind]

/-- A later page: the messages strictly older than the one it starts behind. -/
theorem getHistory_next (hdb : FiledStore db) (hc : colon ∉ c) (hm : m ∈ timeline db c) :
    getHistory db c m.msgId (n + 1 : Nat) =
      (behind historyKey (timeline db c) (some (historyKey m))).take (n + 1) := by
  obtain ⟨hg, htl⟩ := (mem_timeline hdb hc).mp hm
  obtain ⟨_, hrange, hne, _⟩ := hdb.message hg
  have hgo : ¬ (c = [] ∨ ((n + 1 : Nat) : Int) ≤ 0) := by simp [← htl, hne]
  have hown : ¬ (m.conversationId ≠ c ∧ m.toId ≠ c) := by
    rintro ⟨hconv, hto⟩
    unfold timelineId at htl
    split at htl
    · exact hto htl
    · exact hconv htl
  have hcut : maxTs - m.timestamp ≥ 0 := by
    unfold InRange at hrange
    omega
  rw [getHistory, if_neg hgo, if_neg (get_of_getById hg).1, hg]
  simp only [if_neg hown]
  rw [historyFrom_timeline hdb hc, ← historyKey_of_mem hdb hc hm]
  rw [← historyKey_of_mem hdb hc hm] at hcut
  simp [behind, hcut]

theorem getHistory_nil : getHistory db [] before limit = [] := by
  simp [getHistory]

/-! The loop over all pages. -/

/-- The client's loop: ask for what lies before the last message of the page, until a page is not
full. -/
def historyAll (db : MsgDb) (c : Bytes) (limit : Int) :
    Nat → Bytes → Option (List (List MessageData))
  | 0, _ => none
  | fuel + 1, before =>
    let page := getHistory db c before limit
    if (page.length : Int) < limit then some [page]
    else (historyAll db c limit fuel ((page.getLast?.map MessageData.msgId).getD [])).map (page :: ·)

/-- A place to start from: the newest message, or behind a message of the conversation. -/
def StartsAt (db : MsgDb) (c before : Bytes) (key : Option Int) : Prop :=
  before = [] ∧ key = none ∨
    ∃ m ∈ timeline db c, before = m.msgId ∧ key = some (historyKey m)

theorem getHistory_eq (hdb : FiledStore db) (hc : colon ∉ c) (hne : c ≠ []) {key : Option Int}
    (h : StartsAt db c before key) :
    getHistory db c before (n + 1 : Nat) =
      (behind historyKey (timeline db c) key).take (n + 1) := by
  rcases h with ⟨rfl, rfl⟩ | ⟨m, hm, rfl, rfl⟩
  · exact getHistory_first hdb hc hne
  · exact getHistory_next hdb hc hm

theorem mem_of_mem_behind {key : Option Int} (h : m ∈ behind historyKey (timeline db c) key) :
    m ∈ timeline db c := by
  cases key with
  | none => exact h
  | some k => exact (List.mem_filter.mp h).1

theorem historyAll_eq_cutPages (hdb : FiledStore db) (hc : colon ∉ c) (hne : c ≠ []) (fuel : Nat)
    {key : Option Int} (h : StartsAt db c before key) :
    historyAll db c (n + 1 : Nat) fuel before =
      cutPages historyKey (n + 1) (timeline db c) fuel key := by
  induction fuel generalizing before key with
  | zero => rfl
  | succ fuel ih =>
    simp only [historyAll, cutPages, getHistory_eq hdb hc hne h, Int.ofNat_lt]
    split
    · rfl
    · rename_i hfull
      congr 1
      cases hlast : ((behind historyKey (timeline db c) key).take (n + 1)).getLast? with
      | none =>
        rw [List.getLast?_eq_none_iff] at hlast
        simp [hlast] at hfull
      | some m =>
        have hm := mem_of_mem_behind (List.mem_of_mem_take (List.mem_of_getLast? hlast))
        exact ih (Or.inr ⟨m, hm, rfl, rfl⟩)

/-- In the range of timestamps the numbers messages are filed under tell them apart. -/
theorem cutsApart_iff (hdb : FiledStore db) (hc : colon ∉ c) :
    CutsApart historyKey n (timeline db c) ↔ CutsApart MessageData.timestamp n (timeline db c) := by
  have hkey : ∀ {i : Nat} {a : MessageData}, (timeline db c)[i]? = some a →
      historyKey a = maxTs - a.timestamp :=
    fun h => historyKey_of_mem hdb hc (List.mem_of_getElem? h)
  constructor
  · intro h k a b hk ha hb he
    exact h k a b hk ha hb (by rw [hkey ha, hkey hb, he])
  · intro h k a b hk ha hb he
    rw [hkey ha, hkey hb] at he
    exact h k a b hk ha hb (by omega)

theorem historyAll_complete_iff (hdb : FiledStore db) (hc : colon ∉ c) (hl : 1 ≤ limit) :
    (∃ fuel ps, historyAll db c limit fuel [] = some ps ∧ IsTimeline db c ps.flatten) ↔
      CutsApart MessageData.timestamp limit.toNat (timeline db c) := by
  obtain ⟨n, rfl⟩ : ∃ n : Nat, limit = (n + 1 : Nat) := ⟨limit.toNat - 1, by omega⟩
  rw [Int.toNat_natCast]
  by_cases hne : c = []
  · -- no message is filed under the empty id, and the store answers it at once
    have hempty : timeline db c = [] := by
      refine List.eq_nil_iff_forall_not_mem.mpr ?_
      intro m hm
      obtain ⟨hg, htl⟩ := (mem_timeline hdb hc).mp hm
      exact (hdb.message hg).2.2.1 (htl.trans hne)
    refine ⟨fun _ => by simp [CutsApart, hempty], fun _ => ⟨1, [[]], ?_, ?_⟩⟩
    · subst hne
      simp [historyAll, getHistory_nil]
    · exact (isTimeline_iff_of_sublist hdb hc (by simp)).mpr (by simp [hempty])
  · have hright : PagesRight historyKey (n + 1) (timeline db c) none :=
      pagesRight (by omega) (timeline_sorted hdb hc)
    obtain ⟨⟨fuel, ps, hps⟩, hall⟩ := hright
    have hloop : ∀ fuel, historyAll db c (n + 1 : Nat) fuel [] =
        cutPages historyKey (n + 1) (timeline db c) fuel none :=
      fun fuel => historyAll_eq_cutPages hdb hc hne fuel (Or.inl ⟨rfl, rfl⟩)
    rw [← cutsApart_iff hdb hc]
    constructor
    · rintro ⟨fuel, ps, hps, htl⟩
      obtain ⟨hsub, hiff⟩ := hall fuel ps ((hloop fuel).symm.trans hps)
      exact hiff.mp ((isTimeline_iff_of_sublist hdb hc hsub).mp htl)
    · intro hcuts
      obtain ⟨hsub, hiff⟩ := hall fuel ps hps
      exact ⟨fuel, ps, (hloop fuel).trans hps,
        (isTimeline_iff_of_sublist hdb hc hsub).mpr (hiff.mpr hcuts)⟩

/-- For a store built by any run of operations, reading a conversation page by page ends and returns
every message once, newest first, exactly when no page ends between two messages of one
timestamp. -/
theorem getHistory_pages_iff (ops : List StoreOp) (hops : ∀ op ∈ ops, op.Plain) (c : Bytes)
    (hc : colon ∉ c) (limit : Int) (hl : 1 ≤ limit) :
    (∃ fuel ps, historyAll (storeAfter ops) c limit fuel [] = some ps ∧
      IsTimeline (storeAfter ops) c ps.flatten) ↔
      CutsApart MessageData.timestamp limit.toNat (timeline (storeAfter ops) c) :=
  historyAll_complete_iff (filedStore_after hops) hc hl

/-- A message of one conversation with a given id and timestamp. -/
def historyMessage (id : Bytes) (timestamp : Int) : MessageData :=
  { msgId := id, fromUserId := str "a", conversationId := str "c", timestamp := timestamp }

/-- Two messages of one millisecond. -/
def sameMillisecond : List StoreOp :=
  [.save (historyMessage (str "x") 5), .save (historyMessage (str "y") 5)]

theorem sameMillisecond_plain : ∀ op ∈ sameMillisecond, op.Plain := by
  intro op hop
  have hplain : FiledPlainly (historyMessage (str "x") 5) ∧
      FiledPlainly (historyMessage (str "y") 5) := by
    unfold FiledPlainly InRange
    decide
  rcases List.mem_cons.mp hop with rfl | hop
  · exact hplain.1
  · rw [List.mem_singleton.mp hop]
    exact hplain.2

/-- With pages of one, the second message is skipped. -/
theorem getHistory_skips_message :
    (∀ op ∈ sameMillisecond, op.Plain) ∧ colon ∉ str "c" ∧
      ¬ ∃ fuel ps, historyAll (storeAfter sameMillisecond) (str "c") 1 fuel [] = some ps ∧
        IsTimeline (storeAfter sameMillisecond) (str "c") ps.flatten := by
  refine ⟨sameMillisecond_plain, by decide, ?_⟩
  rw [historyAll_complete_iff (filedStore_after sameMillisecond_plain) (by decide) (by decide)]
  intro h
  exact h 1 (historyMessage (str "x") 5) (historyMessage (str "y") 5) (by decide) (by decide)
    (by decide) rfl

/-- With pages of two, both are on the first one. -/
theorem getHistory_pages_together :
    ∃ fuel ps, historyAll (storeAfter sameMillisecond) (str "c") 2 fuel [] = some ps ∧
      IsTimeline (storeAfter sameMillisecond) (str "c") ps.flatten := by
  refine (getHistory_pages_iff _ sameMillisecond_plain _ (by decide) 2 (by decide)).mpr ?_
  intro k a b hk _ hb
  have hlen : (timeline (storeAfter sameMillisecond) (str "c")).length = 2 := by decide
  have hlt := (List.getElem?_eq_some_iff.mp hb).1
  rw [hlen] at hlt
  change k * 2 < 2 at hlt
  omega

end SwiftChat.Chat
