import Monkey.Diagnostic.Basic
import Monkey.Tree.Basic

namespace Monkey

/-! Trees whose tokens stand elsewhere.

Every position is changed in one way, and nothing else.
-/

namespace Position

/-- The position once so many bytes stand before it. -/
def shift (count : Nat) (position : Position) : Position :=
  ⟨clamp (position.offset + count : Nat), position.file⟩

end Position

def Span.relocate (move : Position → Position) (span : Span) : Span :=
  ⟨move span.start, move span.stop⟩

theorem Span.relocate_between (file : String) (start stop count : Nat) :
    (Span.between file start stop).relocate (·.shift count) =
      .between file (start + count : Nat) (stop + count : Nat) := by
  have clamped : ∀ offset : Nat,
      Position.clamp ((Position.clamp (offset : Nat) + count : Nat) : Int) =
      Position.clamp ((offset + count : Nat) : Int) := by
    intro offset
    simp only [Position.clamp_natCast]
    omega
  simp only [relocate, between, Position.shift, clamped]

def Token.relocate (move : Position → Position) (token : Token) : Token :=
  { token with span := token.span.relocate move }

@[simp] theorem Token.relocate_kind (move : Position → Position) (token : Token) :
    (token.relocate move).kind = token.kind := rfl

def Identifier.relocate (move : Position → Position) (name : Identifier) : Identifier :=
  { name with token := name.token.relocate move }

def Diagnostic.relocate (move : Position → Position) (diagnostic : Diagnostic) : Diagnostic :=
  { diagnostic with position := move diagnostic.position }

mutual

def Expr.relocate (move : Position → Position) : Expr → Expr
  | .identifier name => .identifier (name.relocate move)
  | .integer token value => .integer (token.relocate move) value
  | .boolean token value => .boolean (token.relocate move) value
  | .unary token operator operand =>
      .unary (token.relocate move) operator (operand.relocate move)
  | .binary token left operator right =>
      .binary (token.relocate move) (left.relocate move) operator (right.relocate move)
  | .conditional token condition consequence alternative =>
      .conditional (token.relocate move) (condition.relocate move) (consequence.relocate move)
        (relocateAlternative move alternative)
  | .function token parameters body =>
      .function (token.relocate move) (parameters.map (·.relocate move)) (body.relocate move)
  | .call token callee arguments =>
      .call (token.relocate move) (callee.relocate move) (relocateArguments move arguments)
termination_by structural tree => tree

def Statement.relocate (move : Position → Position) : Statement → Statement
  | .binding token name value =>
      .binding (token.relocate move) (name.relocate move) (value.relocate move)
  | .result token value => .result (token.relocate move) (value.relocate move)
  | .expression token value => .expression (token.relocate move) (value.relocate move)
termination_by structural tree => tree

def Block.relocate (move : Position → Position) : Block → Block
  | .mk token statements => .mk (token.relocate move) (relocateStatements move statements)
termination_by structural tree => tree

def relocateAlternative (move : Position → Position) : Option Block → Option Block
  | none => none
  | some block => some (block.relocate move)
termination_by structural tree => tree

def relocateArguments (move : Position → Position) : List Expr → List Expr
  | [] => []
  | argument :: arguments => argument.relocate move :: relocateArguments move arguments
termination_by structural tree => tree

def relocateStatements (move : Position → Position) : List Statement → List Statement
  | [] => []
  | statement :: statements => statement.relocate move :: relocateStatements move statements
termination_by structural tree => tree

end

theorem relocateArguments_eq_map (move : Position → Position) (arguments : List Expr) :
    relocateArguments move arguments = arguments.map (·.relocate move) := by
  induction arguments with
  | nil => rfl
  | cons argument arguments ih => exact congrArg (argument.relocate move :: ·) ih

theorem relocateStatements_eq_map (move : Position → Position) (statements : List Statement) :
    relocateStatements move statements = statements.map (·.relocate move) := by
  induction statements with
  | nil => rfl
  | cons statement statements ih => exact congrArg (statement.relocate move :: ·) ih

def Program.relocate (move : Position → Position) (program : Program) : Program :=
  ⟨program.statements.map (·.relocate move)⟩

end Monkey
