import Monkey.Parser.Power
import Monkey.Token.Kind

namespace Monkey

/-! Which construct a token can begin or continue.

An expression is read by the form registered for its first token and is then
continued by the forms of the operators after it, as long as they bind tightly
enough.  A statement is read by the form of its first token, if that has one.
-/

/-- What an expression can start with. -/
inductive PrefixForm where
  /-- A single token: a name, an integer or a truth value. -/
  | atom
  /-- An operator before its operand. -/
  | unary
  /-- An expression in parentheses. -/
  | group
  | conditional
  | function
deriving DecidableEq

/-- What an expression can go on with. -/
inductive InfixForm where
  /-- An operator between its operands. -/
  | binary
  /-- A list of arguments. -/
  | call
deriving DecidableEq

inductive StatementForm where
  | binding
  | result
  | expression
deriving DecidableEq

structure InfixRule where
  power : Power
  form : InfixForm

/-- The forms registered for each kind of token. -/
structure Table where
  prefixForm : Kind → Option PrefixForm
  infixRule : Kind → Option InfixRule
  statementForm : Kind → Option StatementForm

namespace Table

/-- The language's own forms. -/
def standard : Table where
  prefixForm
    | .integer | .identifier | .trueKeyword | .falseKeyword => some .atom
    | .not | .dash => some .unary
    | .openParen => some .group
    | .ifKeyword => some .conditional
    | .functionKeyword => some .function
    | _ => none
  infixRule
    | .equals | .notEquals => some ⟨.equality, .binary⟩
    | .less | .greater => some ⟨.comparison, .binary⟩
    | .plus | .dash => some ⟨.sum, .binary⟩
    | .star | .slash => some ⟨.product, .binary⟩
    | .openParen => some ⟨.call, .call⟩
    | _ => none
  statementForm
    | .letKeyword => some .binding
    | .returnKeyword => some .result
    | _ => none

def setPrefixForm (table : Table) (kind : Kind) (form : PrefixForm) : Table :=
  { table with prefixForm := fun other =>
      if other = kind then some form else table.prefixForm other }

def setInfixRule (table : Table) (kind : Kind) (rule : InfixRule) : Table :=
  { table with infixRule := fun other =>
      if other = kind then some rule else table.infixRule other }

def setStatementForm (table : Table) (kind : Kind) (form : StatementForm) : Table :=
  { table with statementForm := fun other =>
      if other = kind then some form else table.statementForm other }

/-- The power with which a token continues an expression, the lowest if it cannot. -/
def power (table : Table) (kind : Kind) : Power :=
  match table.infixRule kind with
  | none => .lowest
  | some rule => rule.power

/-- Whether a statement that failed ends before a token of this kind, or with it if
it is a semicolon. -/
def isBoundary (table : Table) (kind : Kind) : Bool :=
  kind = .semicolon || kind = .closeCurly || kind = .endOfInput ||
    (table.statementForm kind).isSome

end Table

end Monkey
