import Monkey.Token.Basic

namespace Monkey

/-! Syntax trees.

Every node keeps the token it was made from.  What a node says (a value, an
operator) is held beside the token, so that a tree can also be put together by
hand.
-/

/-- A bare name: in an expression, after `let`, or as a parameter. -/
structure Identifier where
  token : Token
  value : String
deriving DecidableEq

mutual

inductive Expr where
  | identifier (name : Identifier)
  | integer (token : Token) (value : Int)
  | boolean (token : Token) (value : Bool)
  | unary (token : Token) (operator : String) (operand : Expr)
  /-- The token is the operator's. -/
  | binary (token : Token) (left : Expr) (operator : String) (right : Expr)
  | conditional (token : Token) (condition : Expr) (consequence : Block)
      (alternative : Option Block)
  | function (token : Token) (parameters : List Identifier) (body : Block)
  /-- The token is the opening parenthesis. -/
  | call (token : Token) (callee : Expr) (arguments : List Expr)

inductive Statement where
  | binding (token : Token) (name : Identifier) (value : Expr)
  | result (token : Token) (value : Expr)
  /-- The token is the first of the statement. -/
  | expression (token : Token) (value : Expr)

/-- Statements in braces.  The token is the opening brace. -/
inductive Block where
  | mk (token : Token) (statements : List Statement)

end

/-- The root of a tree: statements in source order. -/
structure Program where
  statements : List Statement

namespace Expr

def token : Expr → Token
  | .identifier name => name.token
  | .integer token _ => token
  | .boolean token _ => token
  | .unary token _ _ => token
  | .binary token _ _ _ => token
  | .conditional token _ _ _ => token
  | .function token _ _ => token
  | .call token _ _ => token

end Expr

namespace Statement

def token : Statement → Token
  | .binding token _ _ => token
  | .result token _ => token
  | .expression token _ => token

end Statement

namespace Block

def token : Block → Token
  | .mk token _ => token

def statements : Block → List Statement
  | .mk _ statements => statements

end Block

namespace Program

/-- The text of the token that the program starts with, empty for an empty
program. -/
def leadingText (program : Program) : String :=
  match program.statements with
  | [] => ""
  | statement :: _ => statement.token.text

end Program

end Monkey
