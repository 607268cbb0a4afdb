import Monkey.Source.Span
import Monkey.Text.Quoted
import Monkey.Token.Kind

namespace Monkey

/-! What can be wrong with a source, and how it is put into words. -/

inductive Cause where
  | expectedToken (expected found : Kind)
  /-- No expression starts with this token. -/
  | noExpression (kind : Kind) (text : String)
  | integerOutOfRange (text : String)
  | nestedTooDeep (limit : Nat)
deriving DecidableEq

/-- Advice that goes with a message. -/
inductive Tip where
  | none
  | suggestion (text : String)
deriving DecidableEq

namespace Tip

def text : Tip → String
  | .none => ""
  | .suggestion text => text

end Tip

namespace Cause

def name : Cause → String
  | .expectedToken .. => "ExpectedToken"
  | .noExpression .. => "NoPrefixHandler"
  | .integerOutOfRange .. => "NumberParseError"
  | .nestedTooDeep .. => "NestingTooDeep"

/-- Text from the source is quoted. -/
def message : Cause → String
  | .expectedToken expected found =>
      "expected token kind " ++ expected.name ++ " but found " ++ found.name
  | .noExpression kind text =>
      "no prefix parse function for " ++ kind.name ++ " (" ++ Text.quoted text ++ ") found"
  | .integerOutOfRange text => "could not parse " ++ Text.quoted text ++ " as an integer"
  | .nestedTooDeep limit => "expression nested deeper than " ++ toString limit ++ " levels"

/-- Text from the source is given as it is. -/
def tip : Cause → Tip
  | .expectedToken .semicolon _ => .suggestion "did you miss a semicolon?"
  | .expectedToken expected _ => .suggestion ("missing " ++ expected.name ++ " token")
  | .noExpression .endOfInput _ => .suggestion "unexpected end of input"
  | .noExpression _ text => .suggestion ("`" ++ text ++ "` cannot start an expression")
  | .integerOutOfRange _ => .suggestion "integers must fit in a signed 64-bit value"
  | .nestedTooDeep _ => .suggestion "split the expression with `let` bindings"

end Cause

/-- A cause, and the place of the token at which it was found. -/
structure Diagnostic where
  cause : Cause
  position : Position
deriving DecidableEq

namespace Diagnostic

/-- The message, with its tip in parentheses. -/
def headline (diagnostic : Diagnostic) : String :=
  match diagnostic.cause.tip with
  | .none => "Error: " ++ diagnostic.cause.message
  | .suggestion tip => "Error: " ++ diagnostic.cause.message ++ " (" ++ tip ++ ")"

end Diagnostic

end Monkey
