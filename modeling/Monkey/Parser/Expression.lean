import Monkey.Parser.Routine
import Monkey.Token.Integer
import Monkey.Tree.Basic

namespace Monkey

/-! Reading expressions.

The routines here call for expressions and blocks inside what they read.  How those
are read is a parameter, so that each routine is defined by itself and for any depth.
-/

/-- How to read what stands one level further in. -/
structure Nested where
  expression : Power → Routine Expr
  block : Routine Block

namespace Routine

variable {α : Type}

/-- One or more items with commas between them. -/
def separated (item : Routine α) : Routine (List α) :=
  iterate (fun items => do
    let items := items.push (← item)
    if ← skip .comma then return .again items else return .done items.toList) #[]

/-- Items with commas between them, up to a closing parenthesis.  The opening one
has been consumed. -/
def enclosed (item : Routine α) : Routine (List α) := do
  if ← skip .closeParen then
    return []
  else
    let items ← separated item
    let _ ← expect .closeParen
    return items

def identifier : Routine Identifier := do
  let token ← expect .identifier
  return ⟨token, token.text⟩

/-- Reads one token.  An integer that is too large is reported, and read as zero. -/
def atom : Routine Expr := do
  let token ← advance
  match token.kind with
  | .integer =>
      match token.integer? with
      | some value => return .integer token value
      | none =>
          record ⟨.integerOutOfRange token.text, token.span.start⟩
          return .integer token 0
  | .trueKeyword => return .boolean token true
  | .falseKeyword => return .boolean token false
  | _ => return .identifier ⟨token, token.text⟩

def unary (inner : Nested) : Routine Expr := do
  let token ← advance
  let operand ← inner.expression .unary
  return .unary token token.text operand

/-- Parentheses group, and leave no node. -/
def group (inner : Nested) : Routine Expr := do
  let _ ← advance
  let value ← inner.expression .lowest
  let _ ← expect .closeParen
  return value

def conditional (inner : Nested) : Routine Expr := do
  let token ← advance
  let _ ← expect .openParen
  let condition ← inner.expression .lowest
  let _ ← expect .closeParen
  let consequence ← inner.block
  if ← skip .elseKeyword then
    let alternative ← inner.block
    return .conditional token condition consequence (some alternative)
  else
    return .conditional token condition consequence none

def function (inner : Nested) : Routine Expr := do
  let token ← advance
  let _ ← expect .openParen
  let parameters ← enclosed identifier
  let body ← inner.block
  return .function token parameters body

/-- The operand on the right takes only what binds tighter than the operator, so
that operators of one power group to the left. -/
def binary (inner : Nested) (left : Expr) (power : Power) : Routine Expr := do
  let token ← advance
  let right ← inner.expression power
  return .binary token left token.text right

def call (inner : Nested) (callee : Expr) : Routine Expr := do
  let token ← advance
  let arguments ← enclosed (inner.expression .lowest)
  return .call token callee arguments

end Routine

/-- Reads what the form begins with the current token. -/
def PrefixForm.read (inner : Nested) : PrefixForm → Routine Expr
  | .atom => Routine.atom
  | .unary => Routine.unary inner
  | .group => Routine.group inner
  | .conditional => Routine.conditional inner
  | .function => Routine.function inner

/-- Reads on from an expression on the left. -/
def InfixForm.read (inner : Nested) (left : Expr) (power : Power) : InfixForm → Routine Expr
  | .binary => Routine.binary inner left power
  | .call => Routine.call inner left

namespace Routine

/-- Reads what the current token can begin. -/
def leading (inner : Nested) : Routine Expr := do
  let parser ← state
  match parser.table.prefixForm parser.current.kind with
  | none => fail (.noExpression parser.current.kind parser.current.text)
  | some form => form.read inner

/-- Continues an expression with the current token, if that binds tighter than
`power`. -/
def continued (inner : Nested) (power : Power) (left : Expr) : Routine (Round Expr Expr) := do
  let parser ← state
  match parser.table.infixRule parser.current.kind with
  | none => return .done left
  | some rule =>
      if power < rule.power then
        let extended ← rule.form.read inner left rule.power
        return .again extended
      else
        return .done left

/-- Reads an expression as far as its operators bind tighter than `power`. -/
def expressionBody (inner : Nested) (power : Power) : Routine Expr := do
  let first ← leading inner
  iterate (continued inner power) first

end Routine

end Monkey
