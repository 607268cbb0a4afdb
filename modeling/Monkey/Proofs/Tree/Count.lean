import Mathlib.Algebra.GroupWithZero.Nat
import Monkey.Tree.Basic

namespace Monkey

/-! How many statements a tree has, those inside its blocks included. -/

mutual

def Expr.statementCount : Expr → Nat
  | .identifier _ => 0
  | .integer .. => 0
  | .boolean .. => 0
  | .unary _ _ operand => operand.statementCount
  | .binary _ left _ right => left.statementCount + right.statementCount
  | .conditional _ condition consequence alternative =>
      condition.statementCount + consequence.statementCount + alternativeCount alternative
  | .function _ _ body => body.statementCount
  | .call _ callee arguments => callee.statementCount + argumentsCount arguments
termination_by structural tree => tree

def Statement.statementCount : Statement → Nat
  | .binding _ _ value => value.statementCount + 1
  | .result _ value => value.statementCount + 1
  | .expression _ value => value.statementCount + 1
termination_by structural tree => tree

def Block.statementCount : Block → Nat
  | .mk _ statements => statementsCount statements
termination_by structural tree => tree

def alternativeCount : Option Block → Nat
  | none => 0
  | some block => block.statementCount
termination_by structural tree => tree

def argumentsCount : List Expr → Nat
  | [] => 0
  | argument :: arguments => argument.statementCount + argumentsCount arguments
termination_by structural tree => tree

def statementsCount : List Statement → Nat
  | [] => 0
  | statement :: statements => statement.statementCount + statementsCount statements
termination_by structural tree => tree

end

theorem argumentsCount_eq_sum (arguments : List Expr) :
    argumentsCount arguments = (arguments.map (·.statementCount)).sum := by
  induction arguments with
  | nil => rfl
  | cons argument arguments ih => exact congrArg (argument.statementCount + ·) ih

theorem statementsCount_eq_sum (statements : List Statement) :
    statementsCount statements = (statements.map (·.statementCount)).sum := by
  induction statements with
  | nil => rfl
  | cons statement statements ih => exact congrArg (statement.statementCount + ·) ih

def Program.statementCount (program : Program) : Nat :=
  statementsCount program.statements

end Monkey
