import Monkey.Tree.Basic

namespace Monkey

/-! Trees as text.

Operators are written with parentheses around each of them, so that grouping is
explicit.  Literals and keywords are written as they stood in the source.
Statements follow one another with nothing in between.
-/

mutual

def Expr.text : Expr → String
  | .identifier name => name.value
  | .integer token _ => token.text
  | .boolean token _ => token.text
  | .unary _ operator operand => "(" ++ operator ++ operand.text ++ ")"
  | .binary _ left operator right =>
      "(" ++ left.text ++ " " ++ operator ++ " " ++ right.text ++ ")"
  | .conditional _ condition consequence alternative =>
      "if" ++ condition.text ++ " " ++ consequence.text ++ alternativeText alternative
  | .function token parameters body =>
      token.text ++ "(" ++ String.intercalate ", " (parameters.map Identifier.value) ++ ") " ++
        body.text
  | .call _ callee arguments =>
      callee.text ++ "(" ++ String.intercalate ", " (argumentTexts arguments) ++ ")"

def Statement.text : Statement → String
  | .binding token name value =>
      token.text ++ " " ++ name.value ++ " = " ++ value.text ++ ";"
  | .result token value => token.text ++ " " ++ value.text ++ ";"
  | .expression _ value => value.text

def Block.text : Block → String
  | .mk _ statements => statementsText statements

def alternativeText : Option Block → String
  | none => ""
  | some block => "else " ++ block.text

def argumentTexts : List Expr → List String
  | [] => []
  | argument :: arguments => argument.text :: argumentTexts arguments

def statementsText : List Statement → String
  | [] => ""
  | statement :: statements => statement.text ++ statementsText statements

end

namespace Program

def text (program : Program) : String :=
  statementsText program.statements

end Program

end Monkey
