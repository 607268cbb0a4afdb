import Monkey.Token.Kind

namespace Monkey

/-! The lexical grammar, on characters.

A word is a run of letters and underscores, a number a run of digits, and each
runs as far as it can.  `==` and `!=` are one lexeme each; any other character
is a lexeme by itself.  Letters and digits are those of ASCII.
-/

/-- The characters that may stand between lexemes. -/
def isGap (c : Char) : Bool :=
  c = ' ' ∨ c = '\t' ∨ c = '\r' ∨ c = '\n'

def isWordCharacter (c : Char) : Bool :=
  c.isAlpha || c = '_'

/-- A lexeme at the start of some text, with the text after it. -/
structure Lexeme where
  kind : Kind
  characters : List Char
  rest : List Char

namespace Lexeme

/-- Reads the lexeme that starts with `first`. -/
def read (first : Char) (rest : List Char) : Lexeme :=
  if isWordCharacter first then
    let word := first :: rest.takeWhile isWordCharacter
    ⟨Kind.ofWord (String.ofList word), word, rest.dropWhile isWordCharacter⟩
  else if first.isDigit then
    ⟨.integer, first :: rest.takeWhile Char.isDigit, rest.dropWhile Char.isDigit⟩
  else
    match first, rest with
    | '=', '=' :: rest => ⟨.equals, ['=', '='], rest⟩
    | '!', '=' :: rest => ⟨.notEquals, ['!', '='], rest⟩
    | first, rest => ⟨Kind.ofSymbol first, [first], rest⟩

/-- Reading splits the text in two and drops nothing. -/
theorem read_append (first : Char) (rest : List Char) :
    (read first rest).characters ++ (read first rest).rest = first :: rest := by
  unfold read
  split
  · simp
  · split
    · simp
    · split <;> simp

theorem read_characters_ne_nil (first : Char) (rest : List Char) :
    (read first rest).characters ≠ [] := by
  unfold read
  split
  · simp
  · split
    · simp
    · split <;> simp

/-- A lexeme is never empty, so what follows it is shorter. -/
theorem read_rest_length (first : Char) (rest : List Char) :
    (read first rest).rest.length < (first :: rest).length := by
  have whole := congrArg List.length (read_append first rest)
  have nonempty := List.length_pos_iff.2 (read_characters_ne_nil first rest)
  rw [List.length_append] at whole
  omega

end Lexeme

end Monkey
