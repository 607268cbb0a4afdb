import Monkey.Token.Basic

namespace Monkey

/-! The value of an integer token. -/

/-- The number that decimal digits stand for. -/
def decimal (digits : List Char) : Nat :=
  digits.foldl (fun value digit => 10 * value + (digit.toNat - '0'.toNat)) 0

/-- The greatest value of an integer. -/
def greatestInteger : Nat := Nat.pow 2 63 - 1

/-- The value of a token made of digits, if it is an integer of the language. -/
def Token.integer? (token : Token) : Option Int :=
  let value := decimal token.text.toList
  if value ≤ greatestInteger then some value else none

end Monkey
