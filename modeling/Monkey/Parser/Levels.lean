import Monkey.Parser.Statement

namespace Monkey

/-! Parsing at any depth.

Expressions and blocks are the only routines that reach themselves, and both open a
level.  So they are defined by recursion on how many levels may still be opened.
-/

namespace Routine

/-- Reads expressions and blocks of which at most `count` may be open at once. -/
def levels : (count : Nat) → Nested
  | 0 =>
    { expression := fun _ => fail (.nestedTooDeep nestingLimit)
      block := fail (.nestedTooDeep nestingLimit) }
  | count + 1 =>
    { expression := fun power => nested (expressionBody (levels count) power)
      block := nested (blockBody (levels count)) }

/-- Runs a routine with all the levels that are left. -/
def withLevels {α : Type} (routine : Nested → Routine α) : Routine α := fun parser =>
  routine (levels (nestingLimit - parser.depth)) parser

/-- Reads an expression as far as its operators bind tighter than `power`. -/
def expression (power : Power) : Routine Expr :=
  withLevels (·.expression power)

def block : Routine Block :=
  withLevels (·.block)

def statement : Routine Statement :=
  withLevels statementBody

/-- Reads a statement, or records why there is none and skips the rest of it. -/
def statementOrSkip : Routine (Option Statement) :=
  withLevels fun inner => recovering (statementBody inner)

/-- Reads statements to the end of the input.  This never fails: what is wrong is
recorded. -/
def program : Routine Program :=
  withLevels programBody

end Routine

def parse (source : String) (file : Option String) : Outcome Program :=
  Routine.program (.ofSource source file)

end Monkey
