import SwiftChat.Common
import SwiftChat.Base.Bits
import Mathlib.Data.List.DropRight
import Mathlib.Data.List.TakeWhile

/-! The base64url text of a byte string, as the token helper writes and reads it. -/
namespace SwiftChat.Token
open Base
variable {c : UInt8} {s r : Bytes} {v : BitVec 32} {k n : Nat}

def b64 : Bytes := str "ABCDEFGHIJKLMNOPQRSTUVWXYZabcdefghijklmnopqrstuvwxyz0123456789+/"

/-- The character of the six bits of `val` from bit `valb` on. -/
def b64Char (val : BitVec 32) (valb : Nat) : UInt8 :=
  b64.getD ((val.sshiftRight valb) &&& 0x3F#32).toNat 0

/-- The inner loop: six bits at a time while `valb` is not negative. -/
def drainBits (val : BitVec 32) (valb : Int) : Bytes × Int :=
  if 0 ≤ valb then
    let (out, valb') := drainBits val (valb - 6)
    (b64Char val valb.toNat :: out, valb')
  else ([], valb)
termination_by (valb + 1).toNat
decreasing_by omega

/-- The loop over the bytes; `val` is a 32-bit `int` that wraps. -/
def encodeLoop : Bytes → BitVec 32 → Int → Bytes
  | [], val, valb =>
    if -6 < valb then [b64Char (val <<< 8) (valb + 8).toNat] else []
  | b :: data, val, valb =>
    let val := (val <<< 8) + b.toBitVec.zeroExtend 32
    let (out, valb) := drainBits val (valb + 8)
    out ++ encodeLoop data val valb

def toUrl (c : UInt8) : UInt8 := if c = 43 then 45 else if c = 47 then 95 else c

def base64UrlEncode (s : Bytes) : Bytes :=
  ((encodeLoop s 0 (-6)).map toUrl).rdropWhile (· = 61)

def ofUrl (c : UInt8) : UInt8 := if c = 45 then 43 else if c = 95 then 47 else c

/-- The initialised half of the decoder's table of 256 entries. -/
def decodeTable : List Int :=
  [-1,-1,-1,-1,-1,-1,-1,-1,-1,-1,-1,-1,-1,-1,-1,-1,-1,-1,-1,-1,-1,-1,-1,-1,-1,-1,-1,-1,-1,-1,-1,-1,
   -1,-1,-1,-1,-1,-1,-1,-1,-1,-1,-1,62,-1,-1,-1,63,52,53,54,55,56,57,58,59,60,61,-1,-1,-1,-1,-1,-1,
   -1, 0, 1, 2, 3, 4, 5, 6, 7, 8, 9,10,11,12,13,14,15,16,17,18,19,20,21,22,23,24,25,-1,-1,-1,-1,-1,
   -1,26,27,28,29,30,31,32,33,34,35,36,37,38,39,40,41,42,43,44,45,46,47,48,49,50,51,-1,-1,-1,-1,-1]

/-- `T[c]`; the entries that the source leaves out are zero. -/
def tableAt (c : UInt8) : Int := decodeTable.getD c.toNat 0

def decodeLoop : Bytes → BitVec 32 → Int → Bytes
  | [], _, _ => []
  | c :: s, val, valb =>
    if tableAt c < 0 then []
    else
      let val := (val <<< 6) + BitVec.ofInt 32 (tableAt c)
      let valb := valb + 6
      if 0 ≤ valb then
        UInt8.ofBitVec ((val.sshiftRight valb.toNat &&& 0xFF#32).truncate 8) ::
          decodeLoop s val (valb - 8)
      else decodeLoop s val valb

/-- `=` until the length is a multiple of four. -/
def padding (n : Nat) : Bytes := List.replicate ((4 - n % 4) % 4) 61

def base64UrlDecode (s : Bytes) : Bytes :=
  decodeLoop (s.map ofUrl ++ padding s.length) 0 (-8)

/-! The encoder. -/

theorem toNat_b64Index (h : n + 6 ≤ 32) :
    ((v.sshiftRight n) &&& 0x3F#32).toNat = v.toNat / 2 ^ n % 64 :=
  toNat_sshiftRight_and (w := 6) h

theorem bits_six : bits 6 (n % 64) = bits 6 n := bits_mod (Nat.le_refl 6)

/-- The characters of six-bit numbers. -/
def b64Text (xs : List Nat) : Bytes := xs.map fun x => b64.getD x 0

/-- The inner loop takes six bits at a time off the pending ones and leaves fewer than six. -/
theorem drainBits_spec (hk : k ≤ 32) :
    ∃ (xs : List Nat) (k' : Nat),
      drainBits v (k - 6 : Int) = (b64Text xs, (k' - 6 : Int)) ∧ k' < 6 ∧
      (∀ x ∈ xs, x < 64) ∧ bits k v.toNat = bitStream 6 xs ++ bits k' v.toNat := by
  induction k using Nat.strongRecOn with
  | ind k ih =>
    rw [drainBits]
    by_cases h : (0 : Int) ≤ k - 6
    · obtain ⟨k0, rfl⟩ : ∃ m, k = 6 + m := ⟨k - 6, by omega⟩
      obtain ⟨xs, k', hdrain, hlt, hxs, hbits⟩ := ih k0 (by omega) (by omega)
      refine ⟨v.toNat / 2 ^ k0 % 64 :: xs, k', ?_, hlt, ?_, ?_⟩
      · have hpos : ((6 + k0 : Nat) : Int) - 6 = k0 := by omega
        rw [if_pos h, hpos, hdrain]
        simp only [Int.toNat_natCast, b64Char, toNat_b64Index (by omega : k0 + 6 ≤ 32)]
        rfl
      · intro x hx
        rcases List.mem_cons.mp hx with rfl | hx
        · exact Nat.mod_lt _ (by decide)
        · exact hxs x hx
      · rw [bits_add, hbits, bitStream_cons, bits_six, List.append_assoc]
    · rw [if_neg h]
      exact ⟨[], k, rfl, by omega, by simp, rfl⟩

/-- A shift by one byte keeps the pending bits in the low end, also when the rest wraps. -/
theorem bits_shift_byte (hk : k + 8 ≤ 32) (b : BitVec 32) (hb : b.toNat < 256) :
    bits (k + 8) ((v <<< 8) + b).toNat = bits k v.toNat ++ bits 8 b.toNat := by
  have hval : ((v <<< 8) + b).toNat = (v.toNat * 2 ^ 8 + b.toNat) % 2 ^ 32 := by
    rw [BitVec.toNat_add, BitVec.toNat_shiftLeft, Nat.shiftLeft_eq, Nat.mod_add_mod]
  rw [hval, bits_mod hk, bits_shift_add hb]

/-- What is written carries the pending bits and the bytes, filled up with fewer than six zeros. -/
theorem encodeLoop_spec (data : Bytes) (hk : k < 6) :
    ∃ xs z, encodeLoop data v (k - 6 : Int) = b64Text xs ∧ (∀ x ∈ xs, x < 64) ∧ z < 6 ∧
      bitStream 6 xs =
        bits k v.toNat ++ bitStream 8 (data.map UInt8.toNat) ++ List.replicate z false := by
  induction data generalizing v k with
  | nil =>
    cases k with
    | zero => exact ⟨[], 0, by simp [encodeLoop, b64Text], by simp, by omega, rfl⟩
    | succ m =>
      -- the last bits, filled up from a zero byte
      have hshift : ((m + 1 : Nat) - 6 + 8 : Int).toNat = m + 3 := by omega
      have hzero := bits_shift_byte (v := v) (k := m + 1) (by omega) 0#32 (by decide)
      rw [BitVec.add_zero, show m + 1 + 8 = 6 + (m + 3) by omega, bits_add] at hzero
      have hsplit : bits 8 (0#32).toNat =
          List.replicate (5 - m) false ++ List.replicate (m + 3) false := by
        rw [← List.replicate_add, show 5 - m + (m + 3) = 8 by omega]
        exact bits_zero
      rw [hsplit, ← List.append_assoc] at hzero
      obtain ⟨hchar, -⟩ := List.append_inj' hzero (by simp)
      refine ⟨[(v <<< 8).toNat / 2 ^ (m + 3) % 64], 5 - m, ?_, ?_, by omega, ?_⟩
      · rw [encodeLoop, if_pos (by omega), hshift, b64Char, toNat_b64Index (by omega)]
        rfl
      · simpa using Nat.mod_lt _ (by decide)
      · rw [bitStream_cons, bits_six, hchar]
        simp [bitStream]
  | cons b data ih =>
    have hb : (b.toBitVec.zeroExtend 32).toNat = b.toNat := by
      have := b.toNat_lt
      simp only [BitVec.truncate_eq_setWidth, BitVec.toNat_setWidth, UInt8.toNat_toBitVec]
      omega
    have hbyte := bits_shift_byte (v := v) (k := k) (by omega) (b.toBitVec.zeroExtend 32)
      (by rw [hb]; exact b.toNat_lt)
    rw [hb] at hbyte
    obtain ⟨xs, k', hdrain, hk', hxs, hbits⟩ :=
      drainBits_spec (v := (v <<< 8) + b.toBitVec.zeroExtend 32) (k := k + 8) (by omega)
    obtain ⟨ys, z, hloop, hys, hz, hstream⟩ := ih (v := (v <<< 8) + b.toBitVec.zeroExtend 32) hk'
    refine ⟨xs ++ ys, z, ?_, ?_, hz, ?_⟩
    · rw [encodeLoop, show (k - 6 + 8 : Int) = ((k + 8 : Nat) : Int) - 6 by omega, hdrain]
      simp only [hloop, b64Text, List.map_append]
    · intro x hx
      rcases List.mem_append.mp hx with hx | hx
      · exact hxs x hx
      · exact hys x hx
    · rw [bitStream_append, hstream, ← List.append_assoc, ← List.append_assoc, ← hbits, hbyte,
        List.map_cons, bitStream_cons]
      simp only [List.append_assoc]

/-! The decoder. -/

/-- The number the decoder adds for a byte that it does not stop at. -/
def sextet (c : UInt8) : Nat := (tableAt c).toNat

theorem tableAt_spec (c : UInt8) : tableAt c < 64 := by
  have hall : ∀ x ∈ decodeTable, x < 64 := by decide +kernel
  rw [tableAt, List.getD_eq_getElem?_getD]
  cases h : decodeTable[c.toNat]? with
  | none => simp
  | some x => simpa using hall x (List.mem_of_getElem? h)

theorem decodeLoop_stop (h : tableAt c < 0) (s : Bytes) (v : BitVec 32) (valb : Int) :
    decodeLoop (c :: s) v valb = [] := by
  simp [decodeLoop, h]

theorem decodeLoop_go (h : 0 ≤ tableAt c) (s : Bytes) (v : BitVec 32) (valb : Int) :
    decodeLoop (c :: s) v valb =
      if 0 ≤ valb + 6 then
        UInt8.ofBitVec ((((v <<< 6) + BitVec.ofInt 32 (tableAt c)).sshiftRight (valb + 6).toNat
            &&& 0xFF#32).truncate 8) ::
          decodeLoop s ((v <<< 6) + BitVec.ofInt 32 (tableAt c)) (valb + 6 - 8)
      else decodeLoop s ((v <<< 6) + BitVec.ofInt 32 (tableAt c)) (valb + 6) := by
  have hstop : ¬ tableAt c < 0 := by omega
  rw [decodeLoop, if_neg hstop]

/-- Nothing behind the first byte that the table refuses counts. -/
theorem decodeLoop_takeWhile (s : Bytes) (v : BitVec 32) (valb : Int) :
    decodeLoop s v valb = decodeLoop (s.takeWhile (0 ≤ tableAt ·)) v valb := by
  induction s generalizing v valb with
  | nil => rfl
  | cons c s ih =>
    by_cases h : tableAt c < 0
    · have hneg : ¬ 0 ≤ tableAt c := by omega
      rw [decodeLoop_stop h, List.takeWhile_cons_of_neg (by simpa using hneg)]
      rfl
    · have hpos : 0 ≤ tableAt c := by omega
      rw [List.takeWhile_cons_of_pos (by simpa using hpos), decodeLoop_go hpos, decodeLoop_go hpos,
        ← ih, ← ih]

/-- A shift by six bits keeps the pending bits in the low end, also when the rest wraps. -/
theorem bits_shift_sextet (hk : k + 6 ≤ 32) (h : 0 ≤ tableAt c) :
    bits (k + 6) ((v <<< 6) + BitVec.ofInt 32 (tableAt c)).toNat =
      bits k v.toNat ++ bits 6 (sextet c) := by
  have hlt := tableAt_spec c
  have hsextet : (BitVec.ofInt 32 (tableAt c)).toNat = sextet c := by
    rw [BitVec.toNat_ofInt, sextet, Int.emod_eq_of_lt h (by omega)]
  have hval : ((v <<< 6) + BitVec.ofInt 32 (tableAt c)).toNat =
      (v.toNat * 2 ^ 6 + sextet c) % 2 ^ 32 := by
    rw [BitVec.toNat_add, BitVec.toNat_shiftLeft, Nat.shiftLeft_eq, Nat.mod_add_mod, hsextet]
  rw [hval, bits_mod hk, bits_shift_add (by rw [sextet]; omega)]

theorem bits_byte (h : n + 8 ≤ 32) :
    bits 8 (UInt8.ofBitVec ((v.sshiftRight n &&& 0xFF#32).truncate 8)).toNat =
      bits 8 (v.toNat / 2 ^ n) := by
  have hmask : (v.sshiftRight n &&& 0xFF#32).toNat = v.toNat / 2 ^ n % 256 :=
    toNat_sshiftRight_and (w := 8) h
  rw [UInt8.toNat_ofBitVec, BitVec.truncate_eq_setWidth, BitVec.toNat_setWidth, hmask,
    Nat.mod_mod]
  exact bits_mod (Nat.le_refl 8)

/-- What is read carries the pending bits and the sextets, up to fewer than eight bits. -/
theorem decodeLoop_spec (s : Bytes) (hk : k < 8) (hs : ∀ c ∈ s, 0 ≤ tableAt c) :
    ∃ p : List Bool, p.length < 8 ∧
      bits k v.toNat ++ bitStream 6 (s.map sextet) =
        bitStream 8 ((decodeLoop s v (k - 8 : Int)).map UInt8.toNat) ++ p := by
  induction s generalizing v k with
  | nil => exact ⟨bits k v.toNat, by simpa using hk, by simp [decodeLoop, bitStream]⟩
  | cons c s ih =>
    have hc := hs c List.mem_cons_self
    have hrest : ∀ d ∈ s, 0 ≤ tableAt d := fun d hd => hs d (List.mem_cons_of_mem c hd)
    have hshift := bits_shift_sextet (v := v) (c := c) (k := k) (by omega) hc
    rw [List.map_cons, bitStream_cons, ← List.append_assoc, ← hshift, decodeLoop_go hc]
    by_cases hfull : (0 : Int) ≤ k - 8 + 6
    · -- the byte is complete
      obtain ⟨m, rfl⟩ : ∃ m, k = m + 2 := ⟨k - 2, by omega⟩
      have hvalb : ((m + 2 : Nat) - 8 + 6 : Int) = m := by omega
      obtain ⟨p, hp, heq⟩ := ih (v := (v <<< 6) + BitVec.ofInt 32 (tableAt c)) (k := m)
        (by omega) hrest
      refine ⟨p, hp, ?_⟩
      rw [if_pos hfull, hvalb, List.map_cons, bitStream_cons, Int.toNat_natCast,
        bits_byte (by omega), List.append_assoc, ← heq, show m + 2 + 6 = 8 + m by omega, bits_add,
        List.append_assoc]
    · obtain ⟨p, hp, heq⟩ := ih (v := (v <<< 6) + BitVec.ofInt 32 (tableAt c)) (k := k + 6)
        (by omega) hrest
      refine ⟨p, hp, ?_⟩
      rw [if_neg hfull, heq]
      congr 4
      omega

theorem toNat_lt_of_mem_map {n : Nat} (h : n ∈ s.map UInt8.toNat) : n < 2 ^ 8 := by
  obtain ⟨b, -, rfl⟩ := List.mem_map.mp h
  exact b.toNat_lt

/-- Every six bits make up the bytes that are read. -/
theorem length_decodeLoop (s : Bytes) (hs : ∀ c ∈ s, 0 ≤ tableAt c) :
    (decodeLoop s 0 (-8)).length = 6 * s.length / 8 := by
  obtain ⟨p, hp, heq⟩ := decodeLoop_spec (v := 0) (k := 0) s (by decide) hs
  have hlen := congrArg List.length heq
  simp only [List.length_append, length_bits, length_bitStream, List.length_map] at hlen
  change 0 + 6 * s.length = 8 * (decodeLoop s 0 (-8)).length + p.length at hlen
  omega

/-! Both directions together. -/

/-- `A-Z`, `a-z`, `0-9`, `-` and `_`. -/
def isUrlChar (c : UInt8) : Bool := isAlphaNum c || c == 45 || c == 95

theorem urlChar_spec (h : n < 64) :
    isUrlChar (toUrl (b64.getD n 0)) = true ∧ tableAt (ofUrl (toUrl (b64.getD n 0))) = n := by
  have hall : ∀ m < 64, isUrlChar (toUrl (b64.getD m 0)) = true ∧
      tableAt (ofUrl (toUrl (b64.getD m 0))) = m := by decide +kernel
  exact hall n h

theorem isUrlChar_ne (h : isUrlChar c = true) : c ≠ 61 ∧ c ≠ 46 := by
  constructor
  · rintro rfl
    exact absurd h (by decide)
  · rintro rfl
    exact absurd h (by decide)

theorem isUrlChar_of_mem_text {xs : List Nat} (hxs : ∀ x ∈ xs, x < 64)
    (h : c ∈ (b64Text xs).map toUrl) : isUrlChar c = true := by
  simp only [b64Text, List.mem_map, exists_exists_and_eq_and] at h
  obtain ⟨x, hx, rfl⟩ := h
  exact (urlChar_spec (hxs x hx)).1

/-- The text is made of sextets that spell the bytes and fewer than six zero bits behind them. -/
theorem base64UrlEncode_spec (s : Bytes) :
    ∃ xs z, base64UrlEncode s = (b64Text xs).map toUrl ∧ (∀ x ∈ xs, x < 64) ∧ z < 6 ∧
      bitStream 6 xs = bitStream 8 (s.map UInt8.toNat) ++ List.replicate z false := by
  obtain ⟨xs, z, hloop, hxs, hz, hbits⟩ := encodeLoop_spec (v := 0) (k := 0) s (by decide)
  refine ⟨xs, z, ?_, hxs, hz, by simpa [bits] using hbits⟩
  have hnone : ((b64Text xs).map toUrl).rdropWhile (· = 61) = (b64Text xs).map toUrl := by
    rw [List.rdropWhile_eq_self_iff]
    intro hne h61
    have hlast := isUrlChar_of_mem_text hxs (List.getLast_mem hne)
    exact (isUrlChar_ne hlast).1 (of_decide_eq_true h61)
  change encodeLoop s 0 (-6) = _ at hloop
  rw [base64UrlEncode, hloop, hnone]

theorem isUrlChar_of_mem_encode (h : c ∈ base64UrlEncode s) : isUrlChar c = true := by
  obtain ⟨xs, z, heq, hxs, -⟩ := base64UrlEncode_spec s
  exact isUrlChar_of_mem_text hxs (heq ▸ h)

theorem length_base64UrlEncode (s : Bytes) :
    (base64UrlEncode s).length = (4 * s.length + 2) / 3 := by
  obtain ⟨xs, z, heq, -, hz, hbits⟩ := base64UrlEncode_spec s
  have hlen := congrArg List.length hbits
  simp only [List.length_append, length_bitStream, List.length_map, List.length_replicate] at hlen
  rw [heq, List.length_map, b64Text, List.length_map]
  omega

/-- The padding never counts: the table refuses `=`. -/
theorem base64UrlDecode_eq (s : Bytes) :
    base64UrlDecode s = decodeLoop ((s.map ofUrl).takeWhile (0 ≤ tableAt ·)) 0 (-8) := by
  have hpad : (padding s.length).takeWhile (0 ≤ tableAt ·) = [] := by
    rw [padding]
    cases (4 - s.length % 4) % 4 with
    | zero => rfl
    | succ m => rw [List.replicate_succ, List.takeWhile_cons_of_neg (by decide)]
  rw [base64UrlDecode, decodeLoop_takeWhile]
  congr 1
  by_cases hall : ∀ c ∈ s.map ofUrl, decide (0 ≤ tableAt c) = true
  · rw [List.takeWhile_append_of_pos hall, hpad, List.append_nil,
      List.takeWhile_eq_self_iff.mpr hall]
  · rw [List.takeWhile_append, if_neg]
    intro hlen
    exact hall (List.takeWhile_eq_self_iff.mp
      ((List.takeWhile_prefix _).eq_of_length hlen))

theorem base64UrlDecode_encode (s : Bytes) : base64UrlDecode (base64UrlEncode s) = s := by
  obtain ⟨xs, z, heq, hxs, hz, hbits⟩ := base64UrlEncode_spec s
  have htable : ∀ x ∈ xs, tableAt (ofUrl (toUrl (b64.getD x 0))) = x :=
    fun x hx => (urlChar_spec (hxs x hx)).2
  have hpos : ∀ c ∈ (base64UrlEncode s).map ofUrl, 0 ≤ tableAt c := by
    simp only [heq, b64Text, List.map_map, List.mem_map]
    rintro c ⟨x, hx, rfl⟩
    change 0 ≤ tableAt (ofUrl (toUrl (b64.getD x 0)))
    rw [htable x hx]
    omega
  have hsextets : ((base64UrlEncode s).map ofUrl).map sextet = xs := by
    rw [heq, b64Text, List.map_map, List.map_map, List.map_map]
    conv_rhs => rw [← List.map_id xs]
    apply List.map_congr_left
    intro x hx
    change (tableAt (ofUrl (toUrl (b64.getD x 0)))).toNat = x
    rw [htable x hx, Int.toNat_natCast]
  obtain ⟨p, hp, hdecode⟩ :=
    decodeLoop_spec (v := 0) (k := 0) ((base64UrlEncode s).map ofUrl) (by decide) hpos
  rw [hsextets, hbits] at hdecode
  have hbytes := bitStream_inj_of_lt (w := 8) (fun _ hx => toNat_lt_of_mem_map hx)
    (fun _ hx => toNat_lt_of_mem_map hx) (by simp; omega) hp hdecode
  have hall : ∀ c ∈ (base64UrlEncode s).map ofUrl, decide (0 ≤ tableAt c) = true :=
    fun c hc => decide_eq_true (hpos c hc)
  rw [base64UrlDecode_eq, List.takeWhile_eq_self_iff.mpr hall]
  exact (List.map_injective_iff.mpr (fun _ _ h => UInt8.toNat_inj.mp h) hbytes).symm

/-- Decoding undoes encoding for every byte string, through every wrap of the accumulator; the text
has the length of unpadded base64 and its alphabet. -/
theorem base64Url_round_trip (s : Bytes) :
    base64UrlDecode (base64UrlEncode s) = s ∧
      (base64UrlEncode s).length = (4 * s.length + 2) / 3 ∧
      ∀ c ∈ base64UrlEncode s, isUrlChar c = true :=
  ⟨base64UrlDecode_encode s, length_base64UrlEncode s, fun _ hc => isUrlChar_of_mem_encode hc⟩

/-! Bytes outside the alphabet. -/

/-- The characters of the two base64 alphabets. -/
def isBase64 (c : UInt8) : Bool := isAlphaNum c || c == 43 || c == 47 || c == 45 || c == 95

/-- The table refuses every byte outside the alphabets, except those of its missing half. -/
theorem tableAt_ofUrl (c : UInt8) : 0 ≤ tableAt (ofUrl c) ↔ isBase64 c = true ∨ 128 ≤ c := by
  have hall : ∀ n < 256, 0 ≤ tableAt (ofUrl (UInt8.ofNat n)) ↔
      isBase64 (UInt8.ofNat n) = true ∨ 128 ≤ UInt8.ofNat n := by decide +kernel
  have hc := hall c.toNat c.toNat_lt
  rwa [UInt8.ofNat_toNat] at hc

/-- The bytes that the decoder does not stop at. -/
def isRead (c : UInt8) : Bool := isBase64 c || 128 ≤ c

theorem base64UrlDecode_takeWhile (s : Bytes) :
    base64UrlDecode s = decodeLoop ((s.takeWhile isRead).map ofUrl) 0 (-8) := by
  rw [base64UrlDecode_eq, List.takeWhile_map]
  congr 3
  funext c
  rw [Bool.eq_iff_iff]
  simp [tableAt_ofUrl, isRead]

/-- More sextets that complete no further byte change nothing. -/
theorem decodeLoop_append (hs : ∀ c ∈ s ++ r, 0 ≤ tableAt c)
    (hlen : 6 * (s ++ r).length / 8 = 6 * s.length / 8) :
    decodeLoop (s ++ r) 0 (-8) = decodeLoop s 0 (-8) := by
  have hhead : ∀ c ∈ s, 0 ≤ tableAt c := fun c hc => hs c (List.mem_append_left r hc)
  obtain ⟨p, -, hp⟩ := decodeLoop_spec (v := 0) (k := 0) s (by decide) hhead
  obtain ⟨q, -, hq⟩ := decodeLoop_spec (v := 0) (k := 0) (s ++ r) (by decide) hs
  rw [List.map_append, bitStream_append, ← List.append_assoc, hp, List.append_assoc] at hq
  have hbytes := bitStream_inj (w := 8) (fun _ hx => toNat_lt_of_mem_map hx)
    (fun _ hx => toNat_lt_of_mem_map hx) ?_ hq
  · exact (List.map_injective_iff.mpr (fun _ _ h => UInt8.toNat_inj.mp h) hbytes).symm
  · have hl := length_decodeLoop s hhead
    have hl' := length_decodeLoop (s ++ r) hs
    simp only [List.length_map]
    change (decodeLoop s 0 (-8)).length = (decodeLoop (s ++ r) 0 (-8)).length
    omega

theorem read_takeWhile (s : Bytes) : ∀ c ∈ (s.takeWhile isRead).map ofUrl, 0 ≤ tableAt c := by
  intro c hc
  obtain ⟨d, hd, rfl⟩ := List.mem_map.mp hc
  have hread := List.mem_takeWhile_imp hd
  rw [tableAt_ofUrl]
  simpa [isRead] using hread

/-- When two numbers of sextets complete the same number of bytes. -/
theorem bytes_of_sextets_eq_iff {m n : Nat} (h : n ≤ m) :
    6 * m / 8 = 6 * n / 8 ↔ m = n ∨ m = n + 1 ∧ n % 4 = 0 := by
  constructor
  · intro heq
    have hle : m ≤ n + 1 := by omega
    obtain rfl | rfl : m = n ∨ m = n + 1 := by omega
    · exact Or.inl rfl
    · exact Or.inr ⟨rfl, by omega⟩
  · rintro (rfl | ⟨rfl, h4⟩)
    · rfl
    · omega

/-- The decoder reads the longest prefix in the alphabets and nothing else exactly when no byte
from 128 on stands behind that prefix, or a single one does where four characters are complete:
such a byte counts as an `A`. -/
theorem base64UrlDecode_prefix_iff (s : Bytes) :
    base64UrlDecode s = base64UrlDecode (s.takeWhile isBase64) ↔
      (s.takeWhile isRead).length = (s.takeWhile isBase64).length ∨
        (s.takeWhile isRead).length = (s.takeWhile isBase64).length + 1 ∧
          (s.takeWhile isBase64).length % 4 = 0 := by
  have hself : (s.takeWhile isBase64).takeWhile isRead = s.takeWhile isBase64 := by
    rw [List.takeWhile_eq_self_iff]
    intro c hc
    simp [isRead, List.mem_takeWhile_imp hc]
  have hstart : s.takeWhile isBase64 <+: s.takeWhile isRead := by
    have hboth : (s.takeWhile isRead).takeWhile isBase64 = s.takeWhile isBase64 := by
      rw [List.takeWhile_takeWhile]
      congr 1
      funext c
      rw [Bool.eq_iff_iff]
      simp +contextual [isRead]
    rw [← hboth]
    exact List.takeWhile_prefix _
  obtain ⟨r, hr⟩ := hstart
  have hread := read_takeWhile s
  have hlenAll := length_decodeLoop _ hread
  have hlenPrefix := length_decodeLoop _ (read_takeWhile (s.takeWhile isBase64))
  rw [base64UrlDecode_takeWhile, base64UrlDecode_takeWhile, hself]
  rw [hself] at hlenPrefix
  rw [List.length_map] at hlenAll hlenPrefix
  have hle : (s.takeWhile isBase64).length ≤ (s.takeWhile isRead).length := by
    rw [← hr, List.length_append]
    omega
  rw [← bytes_of_sextets_eq_iff hle]
  constructor
  · intro heq
    rw [← hlenAll, ← hlenPrefix, heq]
  · intro heq
    rw [← hr, List.map_append] at hread ⊢
    apply decodeLoop_append hread
    rw [← List.map_append, hr, List.length_map, List.length_map, heq]

/-- One byte from the upper half of the table is read as an `A`. -/
theorem base64UrlDecode_high_byte :
    base64UrlDecode [81, 200] = [64] ∧ base64UrlDecode ([81, 200].takeWhile isBase64) = [] ∧
      base64UrlDecode [81, 200] ≠ base64UrlDecode ([81, 200].takeWhile isBase64) := by
  decide +kernel

end SwiftChat.Token
