namespace Monkey.Text

/-! Sets of characters, listed as ranges of code points. -/

/-- Whether a character lies in one of the ranges.  Both ends belong to a range. -/
def within (ranges : List (Nat × Nat)) (c : Char) : Bool :=
  ranges.any fun (first, last) => first ≤ c.toNat && c.toNat ≤ last

end Monkey.Text
