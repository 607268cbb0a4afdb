import Monkey.Source.Bytes
import Monkey.Token.Basic
import Monkey.Token.Lexeme

namespace Monkey

/-! From source text to tokens.

`nextToken` reads one token from text whose byte offset in the source is known,
and `scan` reads them all.  A `Lexer` is a cursor that can be read token by token
or character by character and moved by hand.  A cursor moved past the end or into
the middle of a character has nothing to read: every reading function is `none`
there.
-/

/-- A token, with the offset and the text that follow it. -/
structure Scanned where
  token : Token
  offset : Nat
  rest : List Char

/-- The first token of some text, or `none` if only gaps are left. -/
def nextToken (file : String) (offset : Nat) (characters : List Char) : Option Scanned :=
  match characters.dropWhile isGap with
  | [] => none
  | first :: rest =>
      let lexeme := Lexeme.read first rest
      let start := offset + byteLength (characters.takeWhile isGap)
      let stop := start + byteLength lexeme.characters
      some ⟨⟨lexeme.kind, String.ofList lexeme.characters, .between file start stop⟩,
        stop, lexeme.rest⟩

theorem nextToken_rest_length {file : String} {offset : Nat} {characters : List Char}
    {scanned : Scanned} (found : nextToken file offset characters = some scanned) :
    scanned.rest.length < characters.length := by
  have shorter := (List.dropWhile_sublist (l := characters) isGap).length_le
  unfold nextToken at found
  split at found
  · simp at found
  · rename_i first rest begins
    rw [begins] at shorter
    simp only [Option.some.injEq] at found
    rw [← found]
    exact Nat.lt_of_lt_of_le (Lexeme.read_rest_length first rest) shorter

/-- The tokens of some text, without the end of input. -/
def scan (file : String) (offset : Nat) (characters : List Char) : List Token :=
  match _found : nextToken file offset characters with
  | none => []
  | some scanned => scanned.token :: scan file scanned.offset scanned.rest
termination_by characters.length
decreasing_by exact nextToken_rest_length _found

structure Lexer where
  source : String
  file : String
  offset : Nat

namespace Lexer

/-- The name of a source that is given none. -/
def defaultFile : String := "shell"

def ofSource (source : String) (file : Option String) : Lexer :=
  ⟨source, file.getD defaultFile, 0⟩

/-- Moves the cursor on, with no regard to where it ends up. -/
def advance (lexer : Lexer) (count : Nat) : Lexer :=
  { lexer with offset := lexer.offset + count }

def atEnd (lexer : Lexer) : Bool :=
  lexer.source.utf8ByteSize ≤ lexer.offset

/-- The text from the cursor on. -/
def ahead (lexer : Lexer) : Option (List Char) :=
  dropBytes lexer.offset lexer.source.toList

/-- The character under the cursor; there is none at the end. -/
def character (lexer : Lexer) : Option (Option Char) :=
  lexer.ahead.map (·[0]?)

/-- The character after the one under the cursor. -/
def nextCharacter (lexer : Lexer) : Option (Option Char) :=
  lexer.ahead.map (·[1]?)

def finish (lexer : Lexer) : Token :=
  .endOfInput lexer.file lexer.source.utf8ByteSize

/-- Reads a token and moves past it.  At the end of the source that is the end of
input, as often as it is asked for. -/
def token (lexer : Lexer) : Option (Token × Lexer) := do
  let characters ← lexer.ahead
  match nextToken lexer.file lexer.offset characters with
  | none => some (lexer.finish, { lexer with offset := lexer.source.utf8ByteSize })
  | some scanned => some (scanned.token, { lexer with offset := scanned.offset })

/-- Reads a token that is not the end of input. -/
def next (lexer : Lexer) : Option (Option Token × Lexer) :=
  lexer.token.map fun (token, after) =>
    (if token.kind = .endOfInput then none else some token, after)

/-- The tokens still ahead, without the end of input. -/
def tokens (lexer : Lexer) : Option (List Token) :=
  lexer.ahead.map (scan lexer.file lexer.offset)

end Lexer

/-- All tokens of a source, the end of input last. -/
def tokenize (source : String) (file : Option String) : List Token :=
  let lexer := Lexer.ofSource source file
  scan lexer.file 0 source.toList ++ [lexer.finish]

end Monkey
