import Monkey.Proofs.Parser.Progress
import Monkey.Proofs.Parser.Session

namespace Monkey

/-! How far a parser goes.

Every statement takes at least one token, read or skipped, and no step is taken at the end
of input.  So a program is read by no more calls than there are tokens, and its steps are
as many as the tokens are.
-/

namespace Parser

variable {parser after : Parser} {moves past : List Move} {count : Nat} {found : List Diagnostic}

/-- If as many steps were taken as tokens were there, none was taken at the end of input. -/
theorem Standard.not_finished_of_part (standard : parser.Standard)
    (leads : parser.beyond count found = parser.replay moves)
    (inside : count ≤ parser.pending.length) (part : past ++ [.advance] <+: moves) :
    (parser.replay past).current.kind ≠ .endOfInput := by
  have steps : count = moves.count .advance := by
    have consumed := congrArg Parser.consumed leads
    rw [replay_consumed, beyond_consumed] at consumed
    exact Nat.add_left_cancel consumed
  have earlier := part.count_le Move.advance
  rw [List.count_append, List.count_singleton_self, ← steps] at earlier
  rw [current_replay]
  exact standard.kind_ne_endOfInput (Nat.lt_of_lt_of_le earlier inside)

theorem atEnd_eq_true_iff : parser.atEnd = true ↔ parser.current.kind = .endOfInput :=
  decide_eq_true_iff

theorem atEnd_eq_false_iff : parser.atEnd = false ↔ parser.current.kind ≠ .endOfInput :=
  decide_eq_false_iff_not

/-- One call after another reads or skips a statement, until the end of input is reached. -/
inductive Calls : Parser → List (Option Statement) → Parser → Prop
  | finished {parser : Parser} (finished : parser.atEnd = true) : Calls parser [] parser
  | again {parser next after : Parser} {result : Option Statement}
      {results : List (Option Statement)} (unfinished : parser.atEnd = false)
      (call : Routine.statementOrSkip parser = .ok result next)
      (rest : Calls next results after) : Calls parser (result :: results) after

end Parser

namespace Routine

variable {parser : Parser}

theorem statementOrSkip_certain (standard : parser.Standard)
    (present : parser.current.kind ≠ .endOfInput) :
    ∃ result count found, statementOrSkip parser = .ok result (parser.beyond count found) ∧
      0 < count ∧ count ≤ parser.pending.length := by
  have met := recovering_certain standard present
    (statementBody_proper (levels_proper (nestingLimit - parser.depth)) standard)
  obtain ⟨result, count, found, run, inside, nonempty⟩ := met.succeeds (fun _ _ _ => id) id
  refine ⟨result, count, found, run, ?_, inside⟩
  rcases Nat.eq_zero_or_pos count with rfl | positive
  · exact absurd Parser.taken_zero nonempty
  · exact positive

/-- Whatever forms are registered, a statement that is read or skipped takes at least one
token. -/
theorem statementOrSkip_shortens (sound : parser.Sound)
    (present : parser.current.kind ≠ .endOfInput) :
    ∃ result count found, statementOrSkip parser = .ok result (parser.beyond count found) ∧
      (parser.beyond count found).pending.length < parser.pending.length := by
  have met := recovering_succeeds (levels_finite (nestingLimit - parser.depth)) sound
  obtain ⟨result, count, found, run, kept⟩ := met.succeeds (fun _ _ _ => id) id
  have positive : 0 < count := kept
  have unfinished := List.length_pos_iff.2 (mt sound.finished_iff.1 present)
  refine ⟨result, count, found, run, ?_⟩
  rw [Parser.beyond_pending, List.length_drop]
  omega

theorem statementsRound_recovered {ends : Kind → Bool} {statement : Routine Statement}
    {statements : Array Statement} {result : Option Statement} {after : Parser}
    (unfinished : ¬ ends parser.current.kind = true)
    (recovered : recovering statement parser = .ok result after) :
    statementsRound ends statement statements parser =
      .ok (.again (result.elim statements statements.push)) after := by
  rw [statementsRound, if_neg unfinished, bind_eq recovered]
  cases result <;> rfl

/-- Each round of the loop over statements is one call. -/
theorem statements_calls (sound : parser.Sound) (statements : Array Statement) :
    ∃ results after,
      iterate (statementsRound (· = .endOfInput)
        (statementBody (levels (nestingLimit - parser.depth)))) statements parser =
          .ok (statements.toList ++ results.filterMap id) after ∧
      parser.Calls results after := by
  induction length : parser.pending.length using Nat.strongRecOn generalizing statements parser with
  | ind left ih =>
      cases finished : parser.atEnd with
      | true =>
          refine ⟨[], parser, iterate_done ?_, .finished finished⟩
          rw [statementsRound, if_pos (decide_eq_true (Parser.atEnd_eq_true_iff.1 finished))]
          simp
      | false =>
          have present := Parser.atEnd_eq_false_iff.1 finished
          have unfinished : ¬ decide (parser.current.kind = .endOfInput) = true := by
            simpa using present
          obtain ⟨result, count, found, call, shorter⟩ := statementOrSkip_shortens sound present
          obtain ⟨results, after, rest, calls⟩ :=
            ih _ (length ▸ shorter) sound.beyond (result.elim statements statements.push) rfl
          rw [Parser.beyond_depth] at rest
          refine ⟨result :: results, after, ?_, .again finished call calls⟩
          rw [iterate_again (statementsRound_recovered unfinished call) shorter, rest]
          cases result <;> simp

/-- A program is read by one call after another. -/
theorem program_calls (sound : parser.Sound) :
    ∃ results after, program parser = .ok ⟨results.filterMap id⟩ after ∧
      parser.Calls results after := by
  obtain ⟨results, after, run, calls⟩ := statements_calls sound #[]
  refine ⟨results, after, ?_, calls⟩
  rw [← statementsUntil_eq] at run
  rw [program, withLevels, programBody, bind_eq run]
  rfl

end Routine

namespace Parser.Calls

variable {parser after : Parser} {results : List (Option Statement)}

theorem atEnd (calls : parser.Calls results after) : after.current.kind = .endOfInput := by
  induction calls with
  | finished finished => exact atEnd_eq_true_iff.1 finished
  | again unfinished call rest ih => exact ih

/-- Each call takes a token, whatever forms are registered. -/
theorem length_le (calls : parser.Calls results after) (sound : parser.Sound) :
    results.length ≤ parser.pending.length := by
  induction calls with
  | finished finished => exact Nat.zero_le _
  | again unfinished call rest ih =>
      obtain ⟨result, count, found, run, shorter⟩ :=
        Routine.statementOrSkip_shortens sound (atEnd_eq_false_iff.1 unfinished)
      rw [run] at call
      cases call
      exact Nat.lt_of_le_of_lt (ih sound.beyond) shorter

/-- All calls together take every token once. -/
theorem consumed (calls : parser.Calls results after) (standard : parser.Standard) :
    after.consumed = parser.consumed + parser.pending.length := by
  induction calls with
  | @finished parser finished =>
      rw [standard.sound.finished_iff.2 (atEnd_eq_true_iff.1 finished)]
      rfl
  | again unfinished call rest ih =>
      obtain ⟨result, count, found, run, positive, inside⟩ :=
        Routine.statementOrSkip_certain standard (atEnd_eq_false_iff.1 unfinished)
      rw [run] at call
      cases call
      rw [ih standard.beyond, beyond_consumed, beyond_pending, List.length_drop]
      omega

end Parser.Calls

theorem Parser.Sound.countP_pending {parser : Parser} (sound : parser.Sound) :
    parser.pending.countP (·.kind ≠ .endOfInput) = parser.pending.length :=
  List.countP_eq_length.2 fun token member => decide_eq_true (sound.pending token member)

/-- All tokens but the last one of a source are there to be consumed. -/
theorem Parser.length_pending_ofSource (source : String) (file : Option String) :
    (ofSource source file).pending.length =
      (tokenize source file).countP (·.kind ≠ .endOfInput) := by
  have standard := ofSource_standard source file
  rw [tokenize_eq, List.countP_append, standard.sound.countP_pending, List.countP_singleton]
  simp [standard.finish]

/-- A parser of the language that is not at the end of input takes at least one token with each
statement, read or skipped, and takes no step at the end of input.  So a program is read by no
more calls than there are tokens, and when it is read, as many steps were taken as there are
tokens. -/
theorem statements_consume :
    (∀ parser : Parser, parser.Standard → parser.current.kind ≠ .endOfInput →
      ∃ result after tokens, Routine.statementOrSkip parser = .ok result after ∧
        parser.pending = tokens ++ after.pending ∧ tokens ≠ [] ∧
        (∀ token ∈ tokens, token.kind ≠ .endOfInput) ∧
        after.consumed = parser.consumed + tokens.length ∧
        ∀ past, past ++ [.advance] <+: Call.statementOrSkip.moves parser →
          (parser.replay past).current.kind ≠ .endOfInput) ∧
    (∀ source file, ∃ results after,
      parse source file = .ok ⟨results.filterMap id⟩ after ∧
      (Parser.ofSource source file).Calls results after ∧
      results.length ≤ (tokenize source file).countP (·.kind ≠ .endOfInput) ∧
      after.current.kind = .endOfInput ∧
      after.consumed = (tokenize source file).countP (·.kind ≠ .endOfInput)) := by
  constructor
  · intro parser standard present
    obtain ⟨result, count, found, run, positive, inside⟩ :=
      Routine.statementOrSkip_certain standard present
    have left : (Call.statementOrSkip.run parser).after? = some (parser.beyond count found) := by
      rw [Call.run_statementOrSkip, run]
      rfl
    refine ⟨result, parser.beyond count found, parser.taken count, run, ?_, ?_, ?_, ?_, ?_⟩
    · exact (List.take_append_drop count parser.pending).symm
    · exact Parser.taken_ne_nil positive (mt standard.sound.finished_iff.1 present)
    · exact fun token member => standard.pending token (List.mem_of_mem_take member)
    · rw [Parser.beyond_consumed, Parser.taken, List.length_take_of_le inside]
    · exact fun past part => standard.not_finished_of_part (Call.leads left) inside part
  · intro source file
    have standard := Parser.ofSource_standard source file
    obtain ⟨results, after, run, calls⟩ := Routine.program_calls standard.sound
    rw [← Parser.length_pending_ofSource]
    exact ⟨results, after, run, calls, calls.length_le standard.sound, calls.atEnd,
      (calls.consumed standard).trans (Nat.zero_add _)⟩

theorem statements_consume_malformed :
    (Parser.ofSource ") x" none).current.kind ≠ .endOfInput ∧
    ∃ result after tokens,
      Routine.statementOrSkip (Parser.ofSource ") x" none) = .ok result after ∧
      (Parser.ofSource ") x" none).pending = tokens ++ after.pending ∧ tokens ≠ [] := by
  have present : (Parser.ofSource ") x" none).current.kind ≠ .endOfInput := by decide +kernel
  obtain ⟨result, after, tokens, run, taken, nonempty, _⟩ :=
    statements_consume.1 _ (Parser.ofSource_standard ") x" none) present
  exact ⟨present, result, after, tokens, run, taken, nonempty⟩

end Monkey
