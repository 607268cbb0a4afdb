namespace Monkey

/-! How tightly an operator binds its operands. -/

/-- Binding powers, the weakest first. -/
inductive Power where
  | lowest
  | equality
  | comparison
  | sum
  | product
  | unary
  | call
deriving DecidableEq

namespace Power

def rank : Power → Nat
  | .lowest => 0
  | .equality => 1
  | .comparison => 2
  | .sum => 3
  | .product => 4
  | .unary => 5
  | .call => 6

instance : LT Power := ⟨fun left right => left.rank < right.rank⟩

instance : LE Power := ⟨fun left right => left.rank ≤ right.rank⟩

instance : Ord Power := ⟨fun left right => compare left.rank right.rank⟩

theorem lt_iff {left right : Power} : left < right ↔ left.rank < right.rank := Iff.rfl

theorem le_iff {left right : Power} : left ≤ right ↔ left.rank ≤ right.rank := Iff.rfl

instance (left right : Power) : Decidable (left < right) :=
  inferInstanceAs (Decidable (left.rank < right.rank))

instance (left right : Power) : Decidable (left ≤ right) :=
  inferInstanceAs (Decidable (left.rank ≤ right.rank))

end Power

end Monkey
