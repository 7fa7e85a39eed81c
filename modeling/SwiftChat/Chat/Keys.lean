import SwiftChat.Base.Decimal

/-! The key layout of the message database: reversed timestamps and the two time-ordered
indexes built from them. -/
namespace SwiftChat.Chat
open Base
variable {t t' : Int} {k o o' id id' : Bytes}

def maxTs : Int := 9999999999999

/-- The number a timestamp is filed under; anything outside the range counts as oldest. -/
def revOf (timestamp : Int) : Int :=
  if timestamp ≤ 0 ∨ timestamp > maxTs then maxTs else maxTs - timestamp

/-- `%013` of the reversed timestamp. -/
def revTs (timestamp : Int) : Bytes := padDec 13 (revOf timestamp).toNat

/-- The prefix of the entries of one owner (a conversation or a user) in an index. -/
def indexPrefix (index owner : Bytes) : Bytes := index ++ owner ++ str ":"

def indexKey (index owner : Bytes) (timestamp : Int) (msgId : Bytes) : Bytes :=
  index ++ owner ++ str ":" ++ revTs timestamp ++ str ":" ++ msgId

/-- The `rev_ts` and `msg_id` fields of a key; both stay empty when the key is too short. -/
def parseIndexKey (key pfx : Bytes) : Bytes × Bytes :=
  let pos := pfx.length
  if key.length ≤ pos + 13 + 1 then ([], []) else ((key.drop pos).take 13, key.drop (pos + 14))

def kMsg : Bytes := str "msg:"
def kChat : Bytes := str "chat:"
def kOffline : Bytes := str "offline:"
def kConv : Bytes := str "conv:"
def kConvMeta : Bytes := str "conv_meta:"

def keyMsg (msgId : Bytes) : Bytes := kMsg ++ msgId
def keyChat : Bytes → Int → Bytes → Bytes := indexKey kChat
def prefixChat : Bytes → Bytes := indexPrefix kChat
def keyOffline : Bytes → Int → Bytes → Bytes := indexKey kOffline
def prefixOffline : Bytes → Bytes := indexPrefix kOffline
def keyConv (userId conversationId : Bytes) : Bytes := kConv ++ userId ++ str ":" ++ conversationId
def prefixConv (userId : Bytes) : Bytes := kConv ++ userId ++ str ":"
def keyConvMeta (conversationId : Bytes) : Bytes := kConvMeta ++ conversationId
def parseChatKey : Bytes → Bytes → Bytes × Bytes := parseIndexKey
def parseOfflineKey : Bytes → Bytes → Bytes × Bytes := parseIndexKey

/-- The separator of key fields. -/
def colon : UInt8 := 58

theorem str_colon : str ":" = [colon] := by decide

/-- The range of timestamps the 13 digits are made for. -/
def InRange (t : Int) : Prop := 1 ≤ t ∧ t ≤ maxTs

instance (t : Int) : Decidable (InRange t) := inferInstanceAs (Decidable (_ ∧ _))

theorem revOf_bounds (t : Int) : 0 ≤ revOf t ∧ revOf t ≤ maxTs := by
  unfold revOf maxTs
  split <;> omega

theorem revOf_toNat_lt (t : Int) : (revOf t).toNat < 10 ^ 13 := by
  have h := revOf_bounds t
  unfold maxTs at h
  omega

@[simp] theorem length_revTs (t : Int) : (revTs t).length = 13 := length_padDec

theorem revTs_inj (ht : InRange t) (ht' : InRange t') : revTs t = revTs t' ↔ t = t' := by
  rw [revTs, revTs, padDec_inj (revOf_toNat_lt t) (revOf_toNat_lt t')]
  unfold InRange maxTs at *
  unfold revOf maxTs
  split <;> split <;> omega

theorem revTs_lt_iff : revTs t < revTs t' ↔ revOf t < revOf t' := by
  have h := revOf_bounds t
  have h' := revOf_bounds t'
  rw [revTs, revTs, padDec_lt_iff (revOf_toNat_lt t) (revOf_toNat_lt t')]
  omega

theorem revOf_of_inRange (ht : InRange t) : revOf t = maxTs - t := by
  unfold InRange at ht
  rw [revOf, if_neg (by omega)]

theorem stoll_revTs (t : Int) : stoll (revTs t) = some (revOf t) := by
  have h := revOf_bounds t
  have hlt := revOf_toNat_lt t
  rw [revTs, stoll_padDec (by omega) hlt (by omega)]
  congr 1
  omega

theorem indexKey_eq (index owner : Bytes) (t : Int) (id : Bytes) :
    indexKey index owner t id = indexPrefix index owner ++ (revTs t ++ (colon :: id)) := by
  simp [indexKey, indexPrefix, str_colon, List.append_assoc]

theorem indexPrefix_isPrefix (index owner : Bytes) (t : Int) (id : Bytes) :
    indexPrefix index owner <+: indexKey index owner t id :=
  ⟨_, (indexKey_eq index owner t id).symm⟩

theorem kChat_isPrefix (c : Bytes) : kChat <+: prefixChat c := by
  rw [prefixChat, indexPrefix, List.append_assoc]
  exact List.prefix_append _ _

theorem kOffline_isPrefix (u : Bytes) : kOffline <+: prefixOffline u := by
  rw [prefixOffline, indexPrefix, List.append_assoc]
  exact List.prefix_append _ _

theorem parse_append (pfx rev id : Bytes) (hrev : rev.length = 13) (hid : id ≠ []) :
    parseIndexKey (pfx ++ (rev ++ (colon :: id))) pfx = (rev, id) := by
  have hlen : 0 < id.length := List.length_pos_iff.mpr hid
  have hd : (pfx ++ (rev ++ (colon :: id))).drop (pfx.length + 14) = id := by
    rw [← List.drop_drop, List.drop_left, List.drop_append, hrev]
    simp [hrev]
  simp only [parseIndexKey]
  rw [if_neg (by simp [hrev]; omega), hd, List.drop_left, List.take_append_of_le_length (by omega),
    List.take_of_length_le (by omega)]

/-- A key read with its own prefix gives back the two fields it was built from. -/
theorem parse_indexKey (index owner : Bytes) (t : Int) (hid : id ≠ []) :
    parseIndexKey (indexKey index owner t id) (indexPrefix index owner) = (revTs t, id) := by
  rw [indexKey_eq]
  exact parse_append _ _ _ (length_revTs t) hid

/-- Among the entries of one owner, keys are ordered by reversed timestamp, then message id. -/
theorem indexKey_lt_iff :
    indexKey k o t id < indexKey k o t' id' ↔
      revTs t < revTs t' ∨ (revTs t = revTs t' ∧ id < id') := by
  rw [indexKey_eq, indexKey_eq, append_lt_append_left, append_lt_append_iff (by simp)]
  have hc : (colon :: id) < (colon :: id') ↔ id < id' := append_lt_append_left [colon]
  rw [hc]

/-- Later timestamps come first. -/
theorem indexKey_lt_iff_later (ht : InRange t) (ht' : InRange t') :
    indexKey k o t id < indexKey k o t' id' ↔ t' < t ∨ t = t' ∧ id < id' := by
  have hrev : revOf t < revOf t' ↔ t' < t := by
    rw [revOf_of_inRange ht, revOf_of_inRange ht']
    omega
  rw [indexKey_lt_iff, revTs_lt_iff, revTs_inj ht ht', hrev]

theorem indexKey_inj (ht : InRange t) (ht' : InRange t')
    (h : indexKey k o t id = indexKey k o t' id') : t = t' ∧ id = id' := by
  rw [indexKey_eq, indexKey_eq] at h
  obtain ⟨htime, htail⟩ := List.append_inj (List.append_cancel_left h) (by simp)
  exact ⟨(revTs_inj ht ht').mp htime, (List.cons.inj htail).2⟩

/-- Owners free of the separator never see each other's entries. -/
theorem owner_eq_of_isPrefix (ho : colon ∉ o) (ho' : colon ∉ o')
    (h : indexPrefix k o <+: indexKey k o' t id) : o = o' := by
  have hsplit : indexKey k o' t id = k ++ (o' ++ colon :: (revTs t ++ colon :: id)) := by
    simp [indexKey, str_colon, List.append_assoc]
  rw [hsplit, indexPrefix, str_colon, List.append_assoc, List.prefix_append_right_inj] at h
  exact (sep_prefix_iff ho ho').mp h

/-- Owners of one length never see each other's entries either. -/
theorem owner_eq_of_length (hlen : o.length = o'.length)
    (h : indexPrefix k o <+: indexKey k o' t id) : o = o' := by
  obtain ⟨rest, hrest⟩ := h
  have hsplit : k ++ (o ++ (colon :: rest)) = k ++ (o' ++ (colon :: (revTs t ++ colon :: id))) := by
    simpa [indexPrefix, indexKey, str_colon, List.append_assoc] using hrest
  exact List.append_inj_left (List.append_cancel_left hsplit) hlen

/-! The codec of the two indexes. -/

/-- The entries of `owner` are in order of time, newest first, and then of message ids; no two
entries have one key, and an entry can be read back from its key. -/
structure TimeOrdered (key : Bytes → Int → Bytes → Bytes) (pfx : Bytes → Bytes)
    (parse : Bytes → Bytes → Bytes × Bytes) (owner : Bytes) : Prop where
  lt_iff : ∀ t t' id id', InRange t → InRange t' → id ≠ [] → id' ≠ [] →
    (key owner t id < key owner t' id' ↔ t > t' ∨ t = t' ∧ id < id')
  inj : ∀ t t' id id', InRange t → InRange t' → id ≠ [] → id' ≠ [] →
    key owner t id = key owner t' id' → t = t' ∧ id = id'
  parsed : ∀ t id, InRange t → id ≠ [] → parse (key owner t id) (pfx owner) = (revTs t, id)

theorem indexKey_timeOrdered (index owner : Bytes) :
    TimeOrdered (indexKey index) (indexPrefix index) parseIndexKey owner where
  lt_iff _ _ _ _ ht ht' _ _ := indexKey_lt_iff_later ht ht'
  inj _ _ _ _ ht ht' _ _ h := indexKey_inj ht ht' h
  parsed t _ _ hid := parse_indexKey index owner t hid

/-- `snprintf` with the format `%013` and a buffer of 16 bytes. -/
def printRev (rev : Int) : Bytes := (formatPadded 13 rev).take 15

theorem revTs_printed (t : Int) : revTs t = printRev (revOf t) := by
  have hcast : revOf t = ((revOf t).toNat : Int) := (Int.toNat_of_nonneg (revOf_bounds t).1).symm
  have hlt := revOf_toNat_lt t
  rw [printRev, hcast, formatPadded_natCast (by decide) hlt, List.take_of_length_le]
  · rfl
  · rw [length_padDec]
    decide

/-- What is printed of any timestamp is 13 digits, and with them both indexes are in order of time. -/
theorem timeKeys_right :
    (∀ t, revTs t = printRev (revOf t) ∧ (revTs t).length = 13 ∧ ∀ b ∈ revTs t, isDigit b = true) ∧
    ∀ owner, TimeOrdered keyChat prefixChat parseChatKey owner ∧
      TimeOrdered keyOffline prefixOffline parseOfflineKey owner := by
  constructor
  · intro t
    exact ⟨revTs_printed t, length_revTs t, fun b hb => isDigit_of_mem_padDec hb⟩
  · intro owner
    exact ⟨indexKey_timeOrdered kChat owner, indexKey_timeOrdered kOffline owner⟩

/-- Of two entries the later one comes first, whatever the ids. -/
theorem timeKeys_right_two :
    keyOffline (str "u_1") 2 (str "m_9") < keyOffline (str "u_1") 1 (str "m_1") ∧
      parseOfflineKey (keyOffline (str "u_1") 2 (str "m_9")) (prefixOffline (str "u_1")) =
        (str "9999999999997", str "m_9") := by
  have hkeys := (timeKeys_right.2 (str "u_1")).2
  constructor
  · exact (hkeys.lt_iff 2 1 (str "m_9") (str "m_1") (by decide) (by decide) (by decide)
      (by decide)).mpr (Or.inl (by decide))
  · have hrev : revTs 2 = str "9999999999997" := by decide
    rw [hkeys.parsed 2 (str "m_9") (by decide) (by decide), hrev]

end SwiftChat.Chat
