import Monkey.Parser.Expression

namespace Monkey

/-! Reading statements, and going on after those that fail. -/

namespace Routine

/-- Reads the expression that ends a statement, with the semicolon after it, which
may be missing. -/
def ending (inner : Nested) : Routine Expr := do
  let value ← inner.expression .lowest
  let _ ← skip .semicolon
  return value

def binding (inner : Nested) : Routine Statement := do
  let token ← advance
  let name ← identifier
  let _ ← expect .assignment
  let value ← ending inner
  return .binding token name value

def result (inner : Nested) : Routine Statement := do
  let token ← advance
  let value ← ending inner
  return .result token value

def expressionStatement (inner : Nested) : Routine Statement := do
  let parser ← state
  let value ← ending inner
  return .expression parser.current value

end Routine

/-- Reads a statement of the form, which begins with the current token. -/
def StatementForm.read (inner : Nested) : StatementForm → Routine Statement
  | .binding => Routine.binding inner
  | .result => Routine.result inner
  | .expression => Routine.expressionStatement inner

namespace Routine

/-- Reads a statement of the form that the current token begins, and an expression
if it begins none. -/
def statementBody (inner : Nested) : Routine Statement := do
  let parser ← state
  match parser.table.statementForm parser.current.kind with
  | some form => form.read inner
  | none => expressionStatement inner

/-- Reads a statement.  If that fails, records why and skips the rest of it. -/
def recovering (statement : Routine Statement) : Routine (Option Statement) := fun parser =>
  match statement parser with
  | .ok value after => .ok (some value) after
  | .failed diagnostic after =>
      .ok none ((after.record diagnostic).resume parser.consumed)
  | .endless => .endless

/-- Reads statements up to a token of a kind that ends them.  Those that fail are
left out. -/
def statementsUntil (ends : Kind → Bool) (statement : Routine Statement) :
    Routine (List Statement) :=
  iterate (fun statements => do
    let parser ← state
    if ends parser.current.kind then
      return .done statements.toList
    else
      match ← recovering statement with
      | some value => return .again (statements.push value)
      | none => return .again statements) #[]

/-- Reads statements in braces. -/
def blockBody (inner : Nested) : Routine Block := do
  let token ← expect .openCurly
  let statements ←
    statementsUntil (fun kind => kind = .closeCurly || kind = .endOfInput) (statementBody inner)
  let _ ← expect .closeCurly
  return .mk token statements

/-- Reads statements to the end of the input. -/
def programBody (inner : Nested) : Routine Program := do
  let statements ← statementsUntil (· = .endOfInput) (statementBody inner)
  return ⟨statements⟩

end Routine

end Monkey
