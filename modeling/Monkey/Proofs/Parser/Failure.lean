import Monkey.Proofs.Parser.Reporting
import Monkey.Proofs.Parser.Session

namespace Monkey

/-! Where a parser stands when it fails.

Whatever forms are registered, a routine that fails leaves the parser at the token that it could
not go on with, however deep inside it the failure began and whatever was recorded and skipped
before.
-/

/-- What goes over from the parts of a routine to the whole holds of everything that a parser can
be asked to read. -/
theorem Routine.Congruence.call {relation : {α : Type} → Routine α → Routine α → Prop}
    {inner other : Nested} (whole : Congruence relation) (relates : inner.Relates relation other)
    (call : Call) : relation (call.body inner) (call.body other) := by
  cases call with
  | expression power => exact relates.expression power
  | prefixForm form => exact whole.prefixForm relates form
  | infixForm form left power => exact whole.infixForm relates form
  | block => exact relates.block
  | statement => exact whole.statementBody relates
  | statementForm form => exact whole.statementForm relates form
  | statementOrSkip => exact whole.recovering (whole.statementBody relates)
  | program => exact whole.programBody relates

/-- A call that fails hands back what stopped it at the token where it stopped. -/
theorem Call.stopsAt_of_failed {call : Call} {parser after : Parser} {diagnostic : Diagnostic}
    (failed : call.run parser = .failed diagnostic after) :
    diagnostic.StopsAt after.table after.current := by
  have truthful := Routine.Truthful.compositional
  have met : (call.run parser).Meets parser (.truthful parser) :=
    truthful.call (truthful.levels _) call parser
  rw [failed] at met
  cases met with
  | failed kept =>
      rw [Parser.current_beyond]
      exact kept.2

/-- The diagnostic of a call that fails stands at the token where the parser stopped.  It names
the kind and the text of that token, it says of that token what is true, and it is never about
the size of an integer. -/
theorem failed_at_current {call : Call} {parser after : Parser} {diagnostic : Diagnostic}
    (failed : call.run parser = .failed diagnostic after) :
    diagnostic.position = after.current.span.start ∧
    (∀ expected found, diagnostic.cause = .expectedToken expected found →
      found = after.current.kind ∧ found ≠ expected) ∧
    (∀ kind text, diagnostic.cause = .noExpression kind text →
      kind = after.current.kind ∧ text = after.current.text ∧
        after.table.prefixForm kind = none) ∧
    (∀ limit, diagnostic.cause = .nestedTooDeep limit → limit = 128) ∧
    ∀ text, diagnostic.cause ≠ .integerOutOfRange text := by
  obtain ⟨place, stops⟩ := Call.stopsAt_of_failed failed
  refine ⟨place, ?_⟩
  generalize diagnostic.cause = cause at stops ⊢
  cases stops with
  | unexpected other =>
      refine ⟨?_, nofun, nofun, nofun⟩
      rintro _ _ ⟨⟩
      exact ⟨rfl, other⟩
  | unregistered none =>
      refine ⟨nofun, ?_, nofun, nofun⟩
      rintro _ _ ⟨⟩
      exact ⟨rfl, rfl, none⟩
  | tooDeep =>
      refine ⟨nofun, nofun, ?_, nofun⟩
      rintro _ ⟨⟩
      rfl

/-- Here an expression in the first block fails, and is skipped.  Then there is no second block,
although a semicolon has become an operator. -/
theorem failed_at_current_alternative :
    ∃ parser diagnostic after,
      (Parser.ofSource "if (a) { ) } else ; b" none).perform
        [.setInfixRule .semicolon ⟨.sum, .binary⟩] = some parser ∧
      Call.statement.run parser = .failed diagnostic after ∧
      diagnostic.cause = .expectedToken .openCurly .semicolon ∧
      after.current.kind = .semicolon ∧ diagnostic.position = after.current.span.start := by
  have fails : (match Call.statement.run ((Parser.ofSource "if (a) { ) } else ; b" none).setTable
        (Table.standard.setInfixRule .semicolon ⟨.sum, .binary⟩)) with
      | .failed diagnostic _ => decide (diagnostic.cause = .expectedToken .openCurly .semicolon)
      | _ => false) = true := by
    decide +kernel
  cases run : Call.statement.run ((Parser.ofSource "if (a) { ) } else ; b" none).setTable
      (Table.standard.setInfixRule .semicolon ⟨.sum, .binary⟩)) with
  | failed diagnostic after =>
      rw [run] at fails
      have cause := of_decide_eq_true fails
      obtain ⟨place, expected, _⟩ := failed_at_current run
      exact ⟨_, diagnostic, after, rfl, run, cause, (expected _ _ cause).1.symm, place⟩
  | ok | endless =>
      rw [run] at fails
      cases fails

end Monkey
