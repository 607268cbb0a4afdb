import Monkey.Diagnostic.Basic
import Monkey.Parser.Table
import Monkey.Token.Lexer

namespace Monkey

/-! Where a parse stands.

A parser holds the tokens it has not consumed, of which it looks at the first two.
After the last one comes the end of input, again and again.
-/

/-- How many expressions and blocks may be open at once. -/
def nestingLimit : Nat := 128

structure Parser where
  /-- The tokens from the current one on, without the end of input. -/
  pending : List Token
  /-- The end of input. -/
  finish : Token
  /-- The number of steps taken, those that stayed on the end of input included. -/
  consumed : Nat
  /-- The number of expressions and blocks that are open. -/
  depth : Nat
  /-- What was found wrong so far, the first thing first. -/
  diagnostics : Array Diagnostic
  table : Table

namespace Parser

def ofTokens (tokens : List Token) (finish : Token) : Parser :=
  ⟨tokens, finish, 0, 0, #[], .standard⟩

/-- Parses from the cursor of a lexer on, if there is something to read. -/
def ofLexer (lexer : Lexer) : Option Parser :=
  lexer.tokens.map (ofTokens · lexer.finish)

def ofSource (source : String) (file : Option String) : Parser :=
  let lexer := Lexer.ofSource source file
  ofTokens (scan lexer.file 0 source.toList) lexer.finish

/-- A lexer that has not been moved can always be read. -/
theorem ofLexer_ofSource (source : String) (file : Option String) :
    ofLexer (Lexer.ofSource source file) = some (ofSource source file) := by
  simp [ofLexer, ofSource, Lexer.tokens, Lexer.ahead, Lexer.ofSource]

def current (parser : Parser) : Token :=
  parser.pending[0]?.getD parser.finish

def peek (parser : Parser) : Token :=
  parser.pending[1]?.getD parser.finish

def atEnd (parser : Parser) : Bool :=
  parser.current.kind = .endOfInput

/-- The power with which the current token continues an expression. -/
def power (parser : Parser) : Power :=
  parser.table.power parser.current.kind

/-- The place of the current token. -/
def position (parser : Parser) : Position :=
  parser.current.span.start

/-- Consumes tokens.  The end of input is never used up. -/
def advance (parser : Parser) (count : Nat) : Parser :=
  { parser with
    pending := parser.pending.drop count
    consumed := parser.consumed + count }

/-- After one step the parser looks at what it looked ahead to. -/
@[simp] theorem current_advance_one (parser : Parser) :
    (parser.advance 1).current = parser.peek := by
  simp [current, peek, advance]

@[simp] theorem advance_advance (parser : Parser) (first second : Nat) :
    (parser.advance first).advance second = parser.advance (first + second) := by
  simp [advance, Nat.add_assoc]

def record (parser : Parser) (diagnostic : Diagnostic) : Parser :=
  { parser with diagnostics := parser.diagnostics.push diagnostic }

/-- Closes an expression or a block.  If none is open, nothing changes. -/
def leave (parser : Parser) : Parser :=
  { parser with depth := parser.depth - 1 }

def setTable (parser : Parser) (table : Table) : Parser :=
  { parser with table }

/-- Drops the rest of a statement, and the semicolon that ends it. -/
def synchronize (parser : Parser) : Parser :=
  let dropped := parser.pending.takeWhile fun token => !parser.table.isBoundary token.kind
  let stopped := parser.advance dropped.length
  if stopped.current.kind = .semicolon then stopped.advance 1 else stopped

/-- Goes on after a statement that failed and that began when `start` tokens were
consumed.  If it got nowhere, the token it stopped at is dropped; a lone semicolon
is all there is of its statement. -/
def resume (parser : Parser) (start : Nat) : Parser :=
  if parser.consumed = start then
    if parser.current.kind = .semicolon then parser.advance 1
    else (parser.advance 1).synchronize
  else parser.synchronize

end Parser

end Monkey
