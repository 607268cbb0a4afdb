namespace Monkey

/-! The kinds of token.

Identifiers, integers and illegal characters differ in their text; every other
kind but the end of input has one spelling.
-/

inductive Kind where
  | endOfInput
  | illegal
  | identifier
  | integer
  | assignment
  | equals
  | not
  | notEquals
  | less
  | greater
  | plus
  | dash
  | slash
  | star
  | comma
  | semicolon
  | openParen
  | closeParen
  | openCurly
  | closeCurly
  | functionKeyword
  | letKeyword
  | ifKeyword
  | elseKeyword
  | returnKeyword
  | trueKeyword
  | falseKeyword
deriving DecidableEq

namespace Kind

/-- The name that messages and token listings use. -/
def name : Kind → String
  | .endOfInput => "EOF"
  | .illegal => "Illegal"
  | .identifier => "Identifier"
  | .integer => "Int"
  | .assignment => "Assignment"
  | .equals => "Equals"
  | .not => "Not"
  | .notEquals => "NotEquals"
  | .less => "Less"
  | .greater => "Greater"
  | .plus => "Plus"
  | .dash => "Dash"
  | .slash => "Slash"
  | .star => "Star"
  | .comma => "Comma"
  | .semicolon => "Semicolon"
  | .openParen => "OpenParen"
  | .closeParen => "CloseParen"
  | .openCurly => "OpenCurly"
  | .closeCurly => "CloseCurly"
  | .functionKeyword => "Fn"
  | .letKeyword => "Let"
  | .ifKeyword => "If"
  | .elseKeyword => "Else"
  | .returnKeyword => "Return"
  | .trueKeyword => "True"
  | .falseKeyword => "False"

def all : List Kind :=
  [.endOfInput, .illegal, .identifier, .integer, .assignment, .equals, .not, .notEquals,
    .less, .greater, .plus, .dash, .slash, .star, .comma, .semicolon, .openParen,
    .closeParen, .openCurly, .closeCurly, .functionKeyword, .letKeyword, .ifKeyword,
    .elseKeyword, .returnKeyword, .trueKeyword, .falseKeyword]

def ofName? (name : String) : Option Kind :=
  all.find? (·.name = name)

/-- The reserved words with their kinds, in alphabetical order. -/
def reserved : List (String × Kind) :=
  [("else", .elseKeyword), ("false", .falseKeyword), ("fn", .functionKeyword),
    ("if", .ifKeyword), ("let", .letKeyword), ("return", .returnKeyword),
    ("true", .trueKeyword)]

/-- A word names a keyword only if it is a reserved word exactly. -/
def ofWord (word : String) : Kind :=
  (reserved.lookup word).getD .identifier

/-- One character that stands for itself; a character with no use in the language
is illegal. -/
def ofSymbol : Char → Kind
  | '=' => .assignment
  | '!' => .not
  | '+' => .plus
  | '-' => .dash
  | '*' => .star
  | '/' => .slash
  | '<' => .less
  | '>' => .greater
  | ',' => .comma
  | ';' => .semicolon
  | '(' => .openParen
  | ')' => .closeParen
  | '{' => .openCurly
  | '}' => .closeCurly
  | _ => .illegal

end Kind

end Monkey
