import SwiftChat.Base.Checked
import SwiftChat.Base.Hex
import Mathlib.Data.List.TakeWhile

/-! Signed tokens, as far as the services rely on them. -/
namespace SwiftChat
open Base

/-- Creation and verification of tokens with one secret. `read` gives the user and the end of a
token that is signed with the secret and names a user; the end is an `int`. Times are in seconds.
User ids are texts, and what is said of `create` and `read` holds of the common helper. -/
structure Jwt where
  create : (userId : Bytes) → (iat expireHours : Int) → Bytes
  read : (token : Bytes) → Option (Bytes × Int)
  create_printable : ∀ u iat hours, ∀ b ∈ create u iat hours, 32 < b
  read_nil : read [] = none
  read_named : ∀ token u exp, read token = some (u, exp) → u ≠ []
  read_create : ∀ u iat hours, u ≠ [] →
    read (create u iat hours) = some (u, wrap 32 (iat + hours * 3600))

namespace Jwt
variable {jwt : Jwt} {u w token : Bytes} {iat hours now exp : Int}

/-- The user id of a token that is accepted at this time. -/
def verify (jwt : Jwt) (token : Bytes) (now : Int) : Option Bytes :=
  (jwt.read token).bind fun r => if now ≤ r.2 then some r.1 else none

theorem verify_iff :
    jwt.verify token now = some u ↔ ∃ exp, jwt.read token = some (u, exp) ∧ now ≤ exp := by
  unfold verify
  constructor
  · intro h
    obtain ⟨⟨v, exp⟩, hread, h⟩ := Option.bind_eq_some_iff.mp h
    split at h
    · rename_i hnow
      obtain rfl := Option.some.inj h
      exact ⟨exp, hread, hnow⟩
    · cases h
  · rintro ⟨exp, hread, hnow⟩
    rw [hread, Option.bind_some, if_pos hnow]

theorem verify_nil : jwt.verify [] now = none := by
  rw [verify, jwt.read_nil, Option.bind_none]

theorem verify_ne_nil (h : jwt.verify token now = some u) : u ≠ [] := by
  obtain ⟨exp, hread, _⟩ := verify_iff.mp h
  exact jwt.read_named token u exp hread

/-- A token is accepted for its user alone, up to its end as it is read. -/
theorem verify_create_iff (hu : u ≠ []) :
    jwt.verify (jwt.create u iat hours) now = some w ↔
      u = w ∧ now ≤ wrap 32 (iat + hours * 3600) := by
  rw [verify_iff]
  constructor
  · rintro ⟨exp, hread, hnow⟩
    rw [jwt.read_create u iat hours hu] at hread
    obtain ⟨rfl, rfl⟩ := Prod.mk.inj (Option.some.inj hread)
    exact ⟨rfl, hnow⟩
  · rintro ⟨rfl, hnow⟩
    exact ⟨_, jwt.read_create u iat hours hu, hnow⟩

theorem create_ne_nil (hu : u ≠ []) : jwt.create u iat hours ≠ [] := by
  intro hnil
  have hread := jwt.read_create u iat hours hu
  rw [hnil, jwt.read_nil] at hread
  cases hread

/-! A scheme without signatures, to run the services on. -/

/-- A sign, the number in ones, and a dot. -/
def writeInt (z : Int) : Bytes :=
  (if 0 ≤ z then 43 else 45) :: (List.replicate z.natAbs 49 ++ [46])

def readInt : Bytes → Option (Int × Bytes)
  | [] => none
  | sign :: rest =>
    let n := (rest.takeWhile (· = 49)).length
    some (if sign = 43 then (n : Int) else -(n : Int), rest.drop (n + 1))

theorem readInt_writeInt (z : Int) (rest : Bytes) :
    readInt (writeInt z ++ rest) = some (z, rest) := by
  have hones : (List.replicate z.natAbs (49 : UInt8) ++ 46 :: rest).takeWhile (· = 49) =
      List.replicate z.natAbs 49 := by
    rw [List.takeWhile_append_of_pos (by
      intro b hb
      simp [List.eq_of_mem_replicate hb])]
    simp
  have hdrop : (List.replicate z.natAbs (49 : UInt8) ++ 46 :: rest).drop (z.natAbs + 1) = rest := by
    rw [show 46 :: rest = [46] ++ rest from rfl, ← List.append_assoc, List.drop_left' (by simp)]
  simp only [readInt, writeInt, List.cons_append, List.append_assoc, List.nil_append, hones,
    List.length_replicate, hdrop]
  by_cases hz : 0 ≤ z
  · simp only [hz, if_true]
    rw [Int.natAbs_of_nonneg hz]
  · have hsign : ¬ (45 : UInt8) = 43 := by decide
    have hneg : -(z.natAbs : Int) = z := by omega
    simp only [hz, if_false, hsign, hneg]

/-- The bytes behind pairs of hexadecimal digits. -/
def unhex : Bytes → Bytes
  | a :: b :: rest => UInt8.ofNat (16 * hexDigitVal a + hexDigitVal b) :: unhex rest
  | _ => []

theorem unhex_flatMap_byteHex (s : Bytes) : unhex (s.flatMap byteHex) = s := by
  induction s with
  | nil => rfl
  | cons b s ih =>
    have hb := b.toNat_lt
    have hhigh := (hexDigit_spec (n := b.toNat / 16) (by omega)).2
    have hlow := (hexDigit_spec (n := b.toNat % 16) (by omega)).2
    have hbyte : 16 * (b.toNat / 16) + b.toNat % 16 = b.toNat := by omega
    rw [List.flatMap_cons, byteHex, List.cons_append, List.cons_append, List.nil_append, unhex, ih,
      hhigh, hlow, hbyte, UInt8.ofNat_toNat]

def plainCreate (u : Bytes) (iat hours : Int) : Bytes :=
  writeInt iat ++ (writeInt hours ++ u.flatMap byteHex)

def plainRead (token : Bytes) : Option (Bytes × Int) :=
  match readInt token with
  | none => none
  | some (iat, rest) =>
    match readInt rest with
    | none => none
    | some (hours, digits) =>
      let u := unhex digits
      if u ≠ [] ∧ token = plainCreate u iat hours then some (u, wrap 32 (iat + hours * 3600))
      else none

theorem plainCreate_printable (u : Bytes) (iat hours : Int) : ∀ b ∈ plainCreate u iat hours, 32 < b := by
  have hnumber : ∀ z : Int, ∀ b ∈ writeInt z, 32 < b := by
    intro z b hb
    rcases List.mem_cons.mp hb with rfl | hb
    · split <;> decide
    rcases List.mem_append.mp hb with hb | hb
    · rw [List.eq_of_mem_replicate hb]
      decide
    · rw [List.mem_singleton.mp hb]
      decide
  have hdigit : ∀ n < 16, 32 < hexDigit n := by decide
  intro b hb
  rcases List.mem_append.mp hb with hb | hb
  · exact hnumber iat b hb
  rcases List.mem_append.mp hb with hb | hb
  · exact hnumber hours b hb
  · obtain ⟨c, _, hb⟩ := List.mem_flatMap.mp hb
    have hc := c.toNat_lt
    rcases List.mem_pair.mp hb with rfl | rfl
    · exact hdigit _ (by omega)
    · exact hdigit _ (by omega)

theorem plainRead_named (token u : Bytes) (exp : Int) (h : plainRead token = some (u, exp)) :
    u ≠ [] := by
  unfold plainRead at h
  split at h
  · cases h
  · split at h
    · cases h
    · dsimp only at h
      split at h
      · rename_i hok
        obtain ⟨rfl, _⟩ := Prod.mk.inj (Option.some.inj h)
        exact hok.1
      · cases h

theorem plainRead_create (u : Bytes) (iat hours : Int) (hu : u ≠ []) :
    plainRead (plainCreate u iat hours) = some (u, wrap 32 (iat + hours * 3600)) := by
  simp only [plainRead, plainCreate, readInt_writeInt, unhex_flatMap_byteHex]
  exact if_pos ⟨hu, trivial⟩

def plain : Jwt where
  create := plainCreate
  read := plainRead
  create_printable := plainCreate_printable
  read_nil := rfl
  read_named := plainRead_named
  read_create := plainRead_create

end Jwt
end SwiftChat
