import Monkey.Proofs.Parser.Consumption

namespace Monkey

/-! Parsers with other forms than those of the language.

Any form may be registered for any kind of token, with any power, at any time.  Whether a parse
comes to an end then depends on the forms of the end of input alone, since every other token is
consumed by what is read at it.
-/

namespace Parser

variable {start parser : Parser} {operations : List Operation}

/-- Wherever a parser is moved and whatever is registered, the tokens that are left are among
those that it was made with. -/
theorem Standard.sound_of_perform (standard : start.Standard)
    (performed : start.perform operations = some parser)
    (once : parser.table.prefixForm .endOfInput = none ∨
      parser.table.infixRule .endOfInput = none) : parser.Sound := by
  obtain ⟨moves, table, rfl⟩ := moves_of_perform performed
  refine ⟨?_, ?_, once⟩
  · rw [← standard.finish]
    exact congrArg Token.kind replay_finish
  · intro token member
    have left : token ∈ (start.replay moves).pending := member
    rw [replay_pending] at left
    exact standard.pending token (List.mem_of_mem_drop left)

end Parser

/-- Whatever was registered and wherever a parser has come, it comes to an end with everything it
is asked to read, unless an expression can both begin and go on at the end of input.  A program is
then read by no more calls than there are tokens left, and up to the end of input. -/
theorem reading_ends {lexer : Lexer} {start parser : Parser} {operations : List Operation}
    (made : Parser.ofLexer lexer = some start) (performed : start.perform operations = some parser)
    (once : parser.table.prefixForm .endOfInput = none ∨
      parser.table.infixRule .endOfInput = none) :
    (∀ call : Call, call.run parser ≠ .endless) ∧
    ∃ results after, Routine.program parser = .ok ⟨results.filterMap id⟩ after ∧
      parser.Calls results after ∧
      results.length ≤ parser.pending.countP (·.kind ≠ .endOfInput) ∧
      after.current.kind = .endOfInput := by
  have sound := (Parser.ofLexer_standard made).sound_of_perform performed once
  refine ⟨fun call => (call.run_ends_of_sound sound).ne_endless, ?_⟩
  obtain ⟨results, after, run, calls⟩ := Routine.program_calls sound
  rw [sound.countP_pending]
  exact ⟨results, after, run, calls, calls.length_le sound, calls.atEnd⟩

/-- Here a semicolon is an operator, and the end of input its operand. -/
theorem reading_ends_registered :
    ∃ parser,
      (Parser.ofSource "a;" none).perform
        [.setPrefixForm .endOfInput .atom, .setInfixRule .semicolon ⟨.sum, .binary⟩] =
          some parser ∧
      (∀ call : Call, call.run parser ≠ .endless) ∧
      ∃ (results : List (Option Statement)) (after : Parser),
        Routine.program parser = .ok ⟨results.filterMap id⟩ after ∧ results.length ≤ 2 := by
  have performed : (Parser.ofSource "a;" none).perform
      [.setPrefixForm .endOfInput .atom, .setInfixRule .semicolon ⟨.sum, .binary⟩] =
        some ((Parser.ofSource "a;" none).setTable
          ((Table.standard.setPrefixForm .endOfInput .atom).setInfixRule .semicolon
            ⟨.sum, .binary⟩)) := rfl
  obtain ⟨ends, results, after, run, _, few, _⟩ :=
    reading_ends (Parser.ofLexer_ofSource "a;" none) performed (.inr rfl)
  refine ⟨_, performed, ends, results, after, run, Nat.le_trans few ?_⟩
  decide +kernel

/-- An expression that can begin and go on at the end of input goes on for ever. -/
example : ((Parser.ofSource "" none).perform [.setPrefixForm .endOfInput .atom,
    .setInfixRule .endOfInput ⟨.sum, .binary⟩, .call .statement]).isNone = true := by
  decide +kernel

end Monkey
