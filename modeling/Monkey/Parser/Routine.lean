import Monkey.Parser.State

namespace Monkey

/-! Steps of a parse, and how they are put together.

A routine is run on a parser and succeeds with a value or fails with a diagnostic;
either way there is a parser after it.  It may also turn out to have no end.
-/

inductive Outcome (α : Type) where
  | ok (value : α) (after : Parser)
  /-- The diagnostic is handed back and not recorded. -/
  | failed (diagnostic : Diagnostic) (after : Parser)
  /-- The routine would go on for ever. -/
  | endless

namespace Outcome

/-- Changes the parser that an outcome leaves. -/
def mapAfter {α : Type} (change : Parser → Parser) : Outcome α → Outcome α
  | .ok value after => .ok value (change after)
  | .failed diagnostic after => .failed diagnostic (change after)
  | .endless => .endless

end Outcome

def Routine (α : Type) : Type := Parser → Outcome α

/-- What a round of a loop decides. -/
inductive Round (α β : Type) where
  /-- Another round follows. -/
  | again (value : α)
  | done (result : β)

namespace Routine

variable {α β : Type}

def bind (routine : Routine α) (next : α → Routine β) : Routine β := fun parser =>
  match routine parser with
  | .ok value after => next value after
  | .failed diagnostic after => .failed diagnostic after
  | .endless => .endless

instance : Monad Routine where
  pure value := fun parser => .ok value parser
  bind := bind

@[simp] theorem pure_apply (value : α) (parser : Parser) :
    (pure value : Routine α) parser = .ok value parser := rfl

theorem bind_apply (routine : Routine α) (next : α → Routine β) (parser : Parser) :
    (routine >>= next) parser =
      match routine parser with
      | .ok value after => next value after
      | .failed diagnostic after => .failed diagnostic after
      | .endless => .endless := rfl

/-- The parser as it is. -/
def state : Routine Parser := fun parser => .ok parser parser

/-- Fails at the current token. -/
def fail (cause : Cause) : Routine α := fun parser =>
  .failed ⟨cause, parser.position⟩ parser

def record (diagnostic : Diagnostic) : Routine Unit := fun parser =>
  .ok () (parser.record diagnostic)

/-- Consumes the current token, whatever it is. -/
def advance : Routine Token := fun parser => .ok parser.current (parser.advance 1)

/-- Consumes the current token, which must be of this kind. -/
def expect (kind : Kind) : Routine Token := fun parser =>
  if parser.current.kind = kind then advance parser
  else fail (.expectedToken kind parser.current.kind) parser

/-- Consumes the current token if it is of this kind, and says whether it was. -/
def skip (kind : Kind) : Routine Bool := fun parser =>
  if parser.current.kind = kind then .ok true (parser.advance 1) else .ok false parser

/-- Opens an expression or a block, unless as many as may be are open. -/
def enter : Routine Unit := fun parser =>
  if nestingLimit ≤ parser.depth then fail (.nestedTooDeep nestingLimit) parser
  else .ok () { parser with depth := parser.depth + 1 }

def leave : Routine Unit := fun parser => .ok () parser.leave

/-- Runs a routine one level further in.  The level is closed whether the routine
succeeds or fails. -/
def nested (routine : Routine α) : Routine α := fun parser =>
  match enter parser with
  | .ok () inside => (routine inside).mapAfter Parser.leave
  | .failed diagnostic after => .failed diagnostic after
  | .endless => .endless

/-- Repeats rounds until one is done.  A round that consumes no token and yet asks
for another would ask again for ever, since every round sees the same tokens: such
a loop is endless. -/
def iterate (round : α → Routine (Round α β)) (value : α) (parser : Parser) : Outcome β :=
  match round value parser with
  | .ok (.done result) after => .ok result after
  | .ok (.again next) after =>
      if _consumed : after.pending.length < parser.pending.length then
        iterate round next after
      else .endless
  | .failed diagnostic after => .failed diagnostic after
  | .endless => .endless
termination_by parser.pending.length

end Routine

end Monkey
