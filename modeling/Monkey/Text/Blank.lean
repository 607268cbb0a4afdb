import Monkey.Text.Ranges

namespace Monkey.Text

/-! White space, and cutting it off the end of a text. -/

/-- The characters with the Unicode property `White_Space`. -/
def blanks : List (Nat × Nat) :=
  [(0x9, 0xd), (0x20, 0x20), (0x85, 0x85), (0xa0, 0xa0), (0x1680, 0x1680), (0x2000, 0x200a),
    (0x2028, 0x2029), (0x202f, 0x202f), (0x205f, 0x205f), (0x3000, 0x3000)]

def isBlank (c : Char) : Bool :=
  within blanks c

/-- Drops the white space that ends a text. -/
def trimEnd (characters : List Char) : List Char :=
  (characters.reverse.dropWhile isBlank).reverse

/-- What is cut off is the end of the text. -/
theorem trimEnd_append (characters : List Char) :
    trimEnd characters ++ (characters.reverse.takeWhile isBlank).reverse = characters := by
  rw [trimEnd, ← List.reverse_append, List.takeWhile_append_dropWhile, List.reverse_reverse]

end Monkey.Text
