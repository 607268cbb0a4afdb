import Monkey.Proofs.Parser.Moves
import Monkey.Proofs.Parser.Termination

namespace Monkey

/-! What can be asked of a parser, in any order.

Calls read something of the language.  They come to an end unless an expression can both begin
and go on at the end of input.  The other operations change a parser by hand.  Whatever is done,
the parser is only moved, and other forms are registered.
-/

/-- What a parser can be asked to read. -/
inductive Call where
  | expression (power : Power)
  /-- What a form begins, whatever the current token is. -/
  | prefixForm (form : PrefixForm)
  /-- What a form makes of an expression, whatever the current token is. -/
  | infixForm (form : InfixForm) (left : Expr) (power : Power)
  | block
  | statement
  | statementForm (form : StatementForm)
  | statementOrSkip
  | program

namespace Call

def Result : Call → Type
  | .expression _ => Expr
  | .prefixForm _ => Expr
  | .infixForm .. => Expr
  | .block => Block
  | .statement => Statement
  | .statementForm _ => Statement
  | .statementOrSkip => Option Statement
  | .program => Program

def body (inner : Nested) : (call : Call) → Routine call.Result
  | .expression power => inner.expression power
  | .prefixForm form => form.read inner
  | .infixForm form left power => form.read inner left power
  | .block => inner.block
  | .statement => Routine.statementBody inner
  | .statementForm form => form.read inner
  | .statementOrSkip => Routine.recovering (Routine.statementBody inner)
  | .program => Routine.programBody inner

def run (call : Call) : Routine call.Result :=
  Routine.withLevels fun inner => call.body inner

theorem run_statementOrSkip : Call.statementOrSkip.run = Routine.statementOrSkip := rfl

theorem run_program : Call.program.run = Routine.program := rfl

def recipe {inner : Nested} (recipes : inner.Recipes) : (call : Call) → Recipe (call.body inner)
  | .expression power => recipes.expression power
  | .prefixForm form => Routine.prefixRecipe recipes form
  | .infixForm form _ _ => Routine.infixRecipe recipes form
  | .block => recipes.block
  | .statement => Routine.statementBodyRecipe recipes
  | .statementForm form => Routine.statementRecipe recipes form
  | .statementOrSkip => .recovering (Routine.statementBodyRecipe recipes)
  | .program => Routine.programBodyRecipe recipes

/-- What the call does to the parser on the way. -/
def moves (call : Call) (parser : Parser) : List Move :=
  (call.recipe (Routine.levelsRecipes (nestingLimit - parser.depth))).moves parser

theorem leads {call : Call} {parser after : Parser}
    (left : (call.run parser).after? = some after) :
    after = parser.replay (call.moves parser) :=
  (call.recipe _).leads left

end Call

namespace Call

open Routine Outcome

variable {parser : Parser}

/-- Whatever forms are registered, a parser comes to an end with everything it is asked to read,
unless an expression can both begin and go on at the end of input. -/
theorem run_ends_of_sound (call : Call) (sound : parser.Sound) :
    (call.run parser).Meets parser .ends := by
  have finite := levels_finite (nestingLimit - parser.depth)
  cases call with
  | expression power => exact (finite.expression power _ sound).ends id
  | prefixForm form => exact (prefixForm_steps form finite sound).ends id
  | infixForm form left power => exact (infixForm_begins form finite sound).ends id
  | block => exact finite.block _ sound
  | statement => exact (statementBody_steps finite sound).ends id
  | statementForm form => exact (statementForm_steps form finite sound).ends id
  | statementOrSkip => exact (recovering_succeeds finite sound).ends id
  | program => exact programBody_ends finite sound

/-- A parser of the language itself comes to an end with everything it is asked to read. -/
theorem run_ends (call : Call) (standard : parser.Standard) :
    (call.run parser).Meets parser .ends :=
  call.run_ends_of_sound standard.sound

end Call

/-- One thing done to a parser. -/
inductive Operation where
  | call (call : Call)
  | advance
  | expect (kind : Kind)
  | skip (kind : Kind)
  | record (diagnostic : Diagnostic)
  | enter
  | leave
  | setPrefixForm (kind : Kind) (form : PrefixForm)
  | setInfixRule (kind : Kind) (rule : InfixRule)
  | setStatementForm (kind : Kind) (form : StatementForm)

/-- The parser after an operation, which may have failed; there is none if it has no end. -/
def Operation.apply (parser : Parser) : Operation → Option Parser
  | .call asked => (asked.run parser).after?
  | .advance => (Routine.advance parser).after?
  | .expect kind => (Routine.expect kind parser).after?
  | .skip kind => (Routine.skip kind parser).after?
  | .record diagnostic => (Routine.record diagnostic parser).after?
  | .enter => (Routine.enter parser).after?
  | .leave => (Routine.leave parser).after?
  | .setPrefixForm kind form => some (parser.setTable (parser.table.setPrefixForm kind form))
  | .setInfixRule kind rule => some (parser.setTable (parser.table.setInfixRule kind rule))
  | .setStatementForm kind form =>
      some (parser.setTable (parser.table.setStatementForm kind form))

/-- The parser after a sequence of operations. -/
def Parser.perform (parser : Parser) (operations : List Operation) : Option Parser :=
  operations.foldlM Operation.apply parser

/-- All that an operation does is to move the parser and to change what is registered. -/
theorem Operation.moves {operation : Operation} {parser after : Parser}
    (performed : operation.apply parser = some after) :
    ∃ moves table, after = (parser.replay moves).setTable table := by
  have moved : ∀ moves, after = parser.replay moves →
      ∃ moves table, after = (parser.replay moves).setTable table := by
    rintro moves rfl
    exact ⟨moves, (parser.replay moves).table, rfl⟩
  cases operation with
  | call asked => exact moved _ (Call.leads performed)
  | advance => exact moved _ (Recipe.advance.leads performed)
  | expect kind => exact moved _ (Recipe.expect.leads performed)
  | skip kind => exact moved _ (Recipe.skip.leads performed)
  | record diagnostic => exact moved [.record diagnostic] (Option.some.inj performed).symm
  | enter =>
      have entered : (Routine.enter parser).after? = some after := performed
      unfold Routine.enter at entered
      split at entered
      · exact moved [] (Option.some.inj entered).symm
      · exact moved [.enter] (Option.some.inj entered).symm
  | leave => exact moved [.leave] (Option.some.inj performed).symm
  | setPrefixForm kind form => exact ⟨[], _, (Option.some.inj performed).symm⟩
  | setInfixRule kind rule => exact ⟨[], _, (Option.some.inj performed).symm⟩
  | setStatementForm kind form => exact ⟨[], _, (Option.some.inj performed).symm⟩

theorem Parser.moves_of_perform {operations : List Operation} {parser after : Parser}
    (performed : parser.perform operations = some after) :
    ∃ moves table, after = (parser.replay moves).setTable table := by
  induction operations generalizing parser with
  | nil =>
      cases performed
      exact ⟨[], _, rfl⟩
  | cons operation operations ih =>
      obtain ⟨middle, first, rest⟩ := Option.bind_eq_some_iff.1 performed
      obtain ⟨moves, table, rfl⟩ := Operation.moves first
      obtain ⟨others, last, rfl⟩ := ih rest
      exact ⟨moves ++ others, last, by rw [replay_setTable, replay_append]; rfl⟩

end Monkey
