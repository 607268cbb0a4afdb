namespace Monkey

/-! Places in a named source.

Offsets count UTF-8 bytes from the start of the source.
-/

structure Position where
  offset : Nat
  file : String
deriving DecidableEq

/-- A stretch of one source, from the first byte to the one after the last. -/
structure Span where
  start : Position
  stop : Position
deriving DecidableEq

namespace Position

/-- The greatest offset that a position can hold. -/
def lastOffset : Nat := 4294967295

/-- What lies outside `0` to `lastOffset` on either side is kept as `lastOffset`. -/
def clamp (offset : Int) : Nat :=
  if 0 ≤ offset ∧ offset ≤ lastOffset then offset.toNat else lastOffset

theorem clamp_natCast (offset : Nat) : clamp offset = min offset lastOffset := by
  unfold clamp
  split <;> omega

theorem clamp_natCast_of_le {offset : Nat} (small : offset ≤ lastOffset) :
    clamp offset = offset := by
  rw [clamp_natCast]
  omega

end Position

namespace Span

def between (file : String) (start stop : Int) : Span :=
  ⟨⟨Position.clamp start, file⟩, ⟨Position.clamp stop, file⟩⟩

end Span

end Monkey
