import Mathlib.Logic.Function.Basic

/-! Records that are written in one form and read back from it, perhaps not unchanged. -/
namespace Base
variable {α V : Type}

/-- `kept x` is what comes back of a record `x`. -/
structure Codec (α V : Type) where
  encode : α → V
  decode : V → Option α
  kept : α → α
  decode_encode : ∀ x, decode (encode x) = some (kept x)

namespace Codec
variable {c : Codec α V} {f : α → α} {x : α}

def RoundTrips (c : Codec α V) (x : α) : Prop := c.decode (c.encode x) = some x

/-- Reading a record, changing it and writing it back; what cannot be read stays. -/
def rewrite (c : Codec α V) (f : α → α) (v : V) : V :=
  match c.decode v with
  | none => v
  | some x => c.encode (f x)

/-- A rewritten record is read as the change of the one that was written. -/
def Rewrites (c : Codec α V) (f : α → α) (x : α) : Prop :=
  c.decode (c.rewrite f (c.encode x)) = some (f x)

theorem roundTrips_iff : c.RoundTrips x ↔ c.kept x = x := by
  rw [RoundTrips, decode_encode, Option.some.injEq]

theorem rewrite_encode : c.rewrite f (c.encode x) = c.encode (f (c.kept x)) := by
  simp only [rewrite, decode_encode]

/-- The change is made to what is read, and its result is read again. -/
theorem rewrites_iff_kept (c : Codec α V) (f : α → α) (x : α) :
    c.Rewrites f x ↔ c.kept (f (c.kept x)) = f x := by
  rw [Rewrites, rewrite_encode, decode_encode, Option.some.injEq]

/-- For a change that sees nothing of what is lost, it matters only whether the new record comes
back. -/
theorem rewrites_iff (hf : c.kept (f (c.kept x)) = c.kept (f x)) :
    c.Rewrites f x ↔ c.kept (f x) = f x := by
  rw [rewrites_iff_kept, hf]

end Codec
end Base
