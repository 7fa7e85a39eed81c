import SwiftChat.Chat.ClearOffline
import SwiftChat.Chat.Receivers

/-! Draining an offline queue while entries are added and cleared between the pages. -/
namespace SwiftChat.Chat
open Base
variable {db : MsgDb} {u w id cursor : Bytes} {limit : Int} {m x : MessageData} {op : StoreOp}
  {ops : List StoreOp} {batches : List (List StoreOp)} {ps : List (List MessageData)} {n : Nat}

/-- The operations on queues, for user ids without the separator; messages may be saved meanwhile. -/
def StoreOp.OnQueue : StoreOp → Prop
  | .save msg => InRange msg.timestamp
  | .addToOffline w _ => colon ∉ w
  | .clearOffline w _ => colon ∉ w
  | _ => False

instance : ∀ op : StoreOp, Decidable op.OnQueue
  | .save msg => inferInstanceAs (Decidable (InRange msg.timestamp))
  | .addToOffline w _ => inferInstanceAs (Decidable (colon ∉ w))
  | .clearOffline w _ => inferInstanceAs (Decidable (colon ∉ w))
  | .markRecalled _ _ => .isFalse (fun h => h)

/-- The client's loop while the store changes: each batch runs between two pages. The result is
there when the last page is the one that reports no more. -/
def pullBetween (u : Bytes) (limit : Int) :
    MsgDb → Bytes → List (List StoreOp) → Option (List (List MessageData))
  | db, cursor, [] =>
    let r := pullOffline db u cursor limit
    if r.hasMore then none else some [r.messages]
  | db, cursor, ops :: rest =>
    let r := pullOffline db u cursor limit
    if r.hasMore then
      (pullBetween u limit (run storeStep db ops) r.nextCursor rest).map (r.messages :: ·)
    else none

/-- The message is in the queue of `u` in every state the loop passes through. -/
def QueuedThroughout (u : Bytes) (m : MessageData) (db : MsgDb) (batches : List (List StoreOp)) :
    Prop :=
  Always storeStep (fun db => Queued db u m) db batches.flatten

theorem StoreOp.OnQueue.ok (h : op.OnQueue) : op.Ok := by
  cases op with
  | save msg => exact h
  | markRecalled id t => exact h.elim
  | addToOffline w id => exact h
  | clearOffline w id => trivial

theorem queued_save {msg : MessageData} (h : Queued db u x) : Queued (save db msg).1 u x := by
  unfold save
  split
  · exact h
  · split
    · exact h
    · rename_i hid hnew
      push Not at hid
      have hne : x.msgId ≠ msg.msgId := by
        intro he
        rw [← he, (get_of_getById h.1).2] at hnew
        exact hnew rfl
      simp only [OrderedMap.write_cons, OrderedMap.write_nil, OrderedMap.apply_put]
      constructor
      · rw [getById_save hid.1, if_neg hne]
        exact h.1
      · rw [OrderedMap.get_put_ne keyChat_ne_keyOffline.symm,
          OrderedMap.get_put_ne keyMsg_ne_keyOffline.symm]
        exact h.2

theorem addToOffline_getById {id' : Bytes} :
    getById (addToOffline db w id).1 id' = getById db id' := by
  unfold addToOffline
  split
  · rfl
  · cases getById db id with
    | none => rfl
    | some v => exact getById_put_ne keyMsg_ne_keyOffline

/-- Adding an entry takes none out. -/
theorem queued_addToOffline (h : Queued db u x) : Queued (addToOffline db w id).1 u x := by
  refine ⟨by rw [addToOffline_getById]; exact h.1, ?_⟩
  unfold addToOffline
  split
  · exact h.2
  · cases getById db id with
    | none => exact h.2
    | some v =>
      simp only [OrderedMap.get_put, h.2]
      split <;> rfl

/-- What is cleared is cleared with everything older: a newer message stays as long as an older one
does. -/
theorem queued_step (hdb : PlainStore db) (hu : colon ∉ u) (hne : u ≠ []) (hop : op.OnQueue)
    (hx : Queued db u x) (hold : m.timestamp ≤ x.timestamp) (hm : Queued (storeStep db op) u m) :
    Queued (storeStep db op) u x := by
  cases op with
  | save msg => exact queued_save hx
  | markRecalled id t => exact hop.elim
  | addToOffline w id => exact queued_addToOffline hx
  | clearOffline w id =>
    by_cases hw : w = u
    · subst hw
      rw [storeStep, queued_clearOffline (fun _ _ h => (hdb.message h).2) hne] at hm ⊢
      refine ⟨hx, fun hup => hm.2 ?_⟩
      rcases hup with hid | ⟨v, hv, hle⟩
      · exact Or.inl hid
      · exact Or.inr ⟨v, hv, hold.trans hle⟩
    · exact (queued_clearOther hu hop hw).mpr hx

theorem plainStore_run (ops : List StoreOp) (hdb : PlainStore db) (hops : ∀ op ∈ ops, op.OnQueue) :
    PlainStore (run storeStep db ops) := by
  refine run_invariant ?_ hdb hops
  intro db op hdb hop
  exact (storeStep_write hop.ok).wellFormed (fun _ _ hm => hm) hdb

/-- The same over a batch. -/
theorem queued_batch (hdb : PlainStore db) (hu : colon ∉ u) (hne : u ≠ [])
    (hops : ∀ op ∈ ops, op.OnQueue) (hx : Queued db u x) (hold : m.timestamp ≤ x.timestamp)
    (hm : Always storeStep (fun db => Queued db u m) db ops) :
    Queued (run storeStep db ops) u x := by
  induction ops generalizing db with
  | nil => exact hx
  | cons op ops ih =>
    have hop := hops op List.mem_cons_self
    have hrest := (always_cons.mp hm).2
    have hstep : PlainStore (storeStep db op) :=
      plainStore_run [op] hdb (fun o ho => by rwa [List.mem_singleton.mp ho])
    have hx' := queued_step hdb hu hne hop hx hold hrest.first
    exact ih hstep (fun o ho => hops o (List.mem_cons_of_mem _ ho)) hx' hrest

/-- A message left behind a page is still behind its cursor when the next page is fetched. -/
theorem ahead_of_batch (hdb : PlainStore db) (hu : colon ∉ u) (hne : u ≠ [])
    (hops : ∀ op ∈ ops, op.OnQueue) (hm : Always storeStep (fun db => Queued db u m) db ops)
    (hx : x ∈ offlineQueue db u)
    (hlt : keyOffline u x.timestamp x.msgId < keyOffline u m.timestamp m.msgId) :
    m ∈ afterCursor pageKey (offlineQueue (run storeStep db ops) u) (some (pageKey x)) := by
  have hdb' := plainStore_run _ hdb hops
  have hqx := (mem_offlineQueue hdb hu).mp hx
  have hold : m.timestamp ≤ x.timestamp := by
    rcases (indexKey_lt_iff_later (hdb.message hqx.1).2 (hdb.message hm.first.1).2).mp hlt with h | h
    · exact h.le
    · exact h.1.ge
  have hqx' := queued_batch hdb hu hne hops hqx hold hm
  exact mem_afterCursor_of_lt (offlineQueue_pairwise hdb' hu) ((mem_offlineQueue hdb' hu).mpr hqx')
    ((mem_offlineQueue hdb' hu).mpr hm.last) hlt

/-- A queued message that is behind the cursor is returned on some later page. -/
theorem mem_pullBetween (hdb : PlainStore db) (hu : colon ∉ u) (hne : u ≠ [])
    (hbatches : ∀ ops ∈ batches, ∀ op ∈ ops, op.OnQueue) (hall : QueuedThroughout u m db batches)
    {c : Option Bytes} (hc : c ≠ some []) (hahead : m ∈ afterCursor pageKey (offlineQueue db u) c)
    (hps : pullBetween u (n + 1 : Nat) db (cursorString c) batches = some ps) : m ∈ ps.flatten := by
  induction batches generalizing db c ps with
  | nil =>
    simp only [pullBetween, pullOffline_eq hdb hu hne hc, pageResult] at hps
    rcases nextCursor_cases pageKey (Nat.le_add_left 1 n) (afterCursor pageKey (offlineQueue db u) c)
      with ⟨hnext, hfits⟩ | ⟨x, _, hnext⟩
    · simp only [hnext] at hps
      obtain rfl := Option.some.inj hps
      simpa [List.take_of_length_le hfits] using hahead
    · simp [hnext] at hps
  | cons ops rest ih =>
    simp only [pullBetween, pullOffline_eq hdb hu hne hc, pageResult] at hps
    rcases nextCursor_cases pageKey (Nat.le_add_left 1 n) (afterCursor pageKey (offlineQueue db u) c)
      with ⟨hnext, hfits⟩ | ⟨x, hx, hnext⟩
    · simp [hnext] at hps
    · simp only [hnext, if_true] at hps
      obtain ⟨qs, hqs, rfl⟩ := Option.map_eq_some_iff.mp hps
      rw [List.flatten_cons, List.mem_append]
      rw [← List.take_append_drop (n + 1) (afterCursor pageKey (offlineQueue db u) c),
        List.mem_append] at hahead
      rcases hahead with hpage | hleft
      · exact Or.inl hpage
      · -- the last message of the page stands before the one that is left
        refine Or.inr ?_
        have hops := hbatches ops List.mem_cons_self
        obtain ⟨hbatch, hrest⟩ := always_append.mp (show Always _ _ db (ops ++ rest.flatten) from hall)
        have hsub : (afterCursor pageKey (offlineQueue db u) c).Sublist (offlineQueue db u) :=
          afterCursor_sublist c
        have hpair := (offlineQueue_pairwise hdb hu).sublist hsub
        have hxpage : x ∈ (afterCursor pageKey (offlineQueue db u) c).take (n + 1) := by
          refine List.mem_of_getElem? (i := n) ?_
          rw [List.getElem?_take_of_lt (Nat.lt_succ_self n)]
          exact hx
        have hlt := (List.pairwise_append.mp (by
          rwa [← List.take_append_drop (n + 1) (afterCursor pageKey (offlineQueue db u) c)] at hpair)).2.2
          x hxpage m hleft
        have hxq := (afterCursor_sublist c).subset (List.mem_of_getElem? hx)
        have hcursor : some (pageKey x) ≠ some [] := by
          intro he
          have hlen := congrArg List.length (Option.some.inj he)
          simp [pageKey] at hlen
        exact ih (plainStore_run _ hdb hops) (fun o ho => hbatches o (List.mem_cons_of_mem _ ho)) hrest
          hcursor (ahead_of_batch hdb hu hne hops hbatch hxq hlt) hqs

/-- Whatever is added to queues or cleared between the pages: when the loop ends, every message that
was in the queue all along is on one of its pages. -/
theorem pullBetween_complete (before : List StoreOp) (hbefore : ∀ op ∈ before, op.Ok) (u : Bytes)
    (hu : colon ∉ u) (limit : Int) (hl : 1 ≤ limit) (batches : List (List StoreOp))
    (hbatches : ∀ ops ∈ batches, ∀ op ∈ ops, op.OnQueue) (ps : List (List MessageData))
    (hps : pullBetween u limit (storeAfter before) [] batches = some ps) (m : MessageData)
    (hm : QueuedThroughout u m (storeAfter before) batches) : m ∈ ps.flatten := by
  have hdb := plainStore_after hbefore
  have hq := (mem_offlineQueue hdb hu).mpr hm.first
  have hne := user_ne_nil hdb hu hm.first
  obtain ⟨n, rfl⟩ : ∃ n : Nat, limit = (n + 1 : Nat) := ⟨limit.toNat - 1, by omega⟩
  exact mem_pullBetween hdb hu hne hbatches hm (c := none) (by simp) hq hps

/-- Two messages wait for `b`, a third one is stored. -/
def twoQueued : List StoreOp :=
  [.save (queueMessage (str "x") 7), .save (queueMessage (str "y") 5),
    .save (queueMessage (str "z") 6), .addToOffline (str "b") (str "x"),
    .addToOffline (str "b") (str "y")]

/-- The third one comes in between, and the queue of another user is cleared. -/
def betweenPages : List (List StoreOp) :=
  [[.addToOffline (str "b") (str "z"), .clearOffline (str "c") []], []]

theorem pullBetween_older :
    queueMessage (str "y") 5 ∈
      [[queueMessage (str "x") 7], [queueMessage (str "z") 6], [queueMessage (str "y") 5]].flatten := by
  refine pullBetween_complete twoQueued (by decide) (str "b") (by decide) 1 (by decide) betweenPages
    (by decide) _ (by decide +kernel) _ ?_
  unfold QueuedThroughout betweenPages
  simp only [List.flatten_cons, List.flatten_nil, List.append_nil, always_cons, always_nil]
  decide +kernel

end SwiftChat.Chat
