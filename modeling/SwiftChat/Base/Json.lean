import SwiftChat.Base.Bytes
import Mathlib.Algebra.Group.Int.Defs
import Mathlib.Algebra.Group.Nat.Defs

/-! Flat JSON objects as records are stored in them: named fields, read with a default. -/
namespace Base

inductive JsonValue where
  | number (n : Int)
  | string (s : Bytes)
  | strings (ss : List Bytes)
deriving DecidableEq

abbrev JsonObject := List (String × JsonValue)

/-- A number that a signed type of `w` bits holds. -/
def Fits (w : Nat) (n : Int) : Prop := -2 ^ w ≤ n * 2 ∧ n * 2 < 2 ^ w

/-- A number converted to a signed type of `w` bits. -/
def wrap (w : Nat) (n : Int) : Int := n.bmod (2 ^ w)

instance (w : Nat) (n : Int) : Decidable (Fits w n) := inferInstanceAs (Decidable (_ ∧ _))

theorem wrap_of_fits {w : Nat} {n : Int} (h : Fits w n) : wrap w n = n := by
  obtain ⟨hlo, hhi⟩ := h
  apply Int.bmod_eq_of_le_mul_two
  · simpa using hlo
  · simpa using hhi

theorem wrap_eq_iff {w : Nat} {n : Int} (hw : 0 < w) : wrap w n = n ↔ Fits w n := by
  constructor
  · intro h
    have hpos : 0 < 2 ^ w := Nat.two_pow_pos w
    have heven : 2 ^ w = 2 * 2 ^ (w - 1) := by
      rw [← Nat.pow_succ']
      congr 1
      omega
    have hlo : -((2 ^ w / 2 : Nat) : Int) ≤ wrap w n := Int.le_bmod hpos
    have hhi : wrap w n < ((2 ^ w + 1) / 2 : Nat) := Int.bmod_lt hpos
    rw [h] at hlo hhi
    have hcast : (2 : Int) ^ w = ((2 ^ w : Nat) : Int) := by simp
    constructor
    · rw [hcast]
      omega
    · rw [hcast]
      omega
  · exact wrap_of_fits

@[simp] theorem wrap_wrap {w : Nat} {n : Int} : wrap w (wrap w n) = wrap w n := Int.bmod_bmod

namespace JsonObject

def field (j : JsonObject) (key : String) : Option JsonValue :=
  (j.find? (fun f => f.1 = key)).map Prod.snd

/-- Reading a text field; a field of another kind is an error. -/
def stringValue (j : JsonObject) (key : String) (default : Bytes) : Option Bytes :=
  match j.field key with
  | none => some default
  | some (.string s) => some s
  | some _ => none

/-- Reading a number field into the type of the default, a signed type of `w` bits. -/
def intValue (w : Nat) (j : JsonObject) (key : String) (default : Int) : Option Int :=
  match j.field key with
  | none => some default
  | some (.number n) => some (wrap w n)
  | some _ => none

/-- The texts of an array field; anything else counts as no texts. -/
def stringsValue (j : JsonObject) (key : String) : List Bytes :=
  match j.field key with
  | some (.strings ss) => ss
  | _ => []

end JsonObject
end Base
