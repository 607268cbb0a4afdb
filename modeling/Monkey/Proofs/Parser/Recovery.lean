import Monkey.Proofs.Parser.Moves
import Monkey.Proofs.Parser.Progress

namespace Monkey

/-! What is skipped after a statement that failed.

The parse goes on after a semicolon or before something that it must not lose: the end of a block
or of the input, or a keyword that begins a statement.  Nothing of that kind is skipped on the
way, unless the statement failed at it before anything was consumed.
-/

theorem Table.standard_isBoundary_iff {kind : Kind} :
    standard.isBoundary kind = true ↔
      kind ∈ [.semicolon, .closeCurly, .endOfInput, .letKeyword, .returnKeyword] := by
  cases kind <;> decide

namespace Parser

variable {parser : Parser} {stop index : Nat}

/-- Among the tokens that are dropped only the last can be a boundary, and then it is a
semicolon. -/
theorem last_of_lt_landing (inside : index < parser.landing)
    (boundary : parser.table.isBoundary (parser.token index).kind = true) :
    (parser.token index).kind = .semicolon ∧ index + 1 = parser.landing := by
  have reached : ¬ index < parser.untilBoundary := by
    intro before
    rw [isBoundary_of_lt_untilBoundary before] at boundary
    cases boundary
  unfold landing at inside ⊢
  split at inside
  · rename_i semicolon
    obtain rfl : index = parser.untilBoundary := by omega
    rw [if_pos semicolon]
    exact ⟨semicolon, rfl⟩
  · exact absurd inside reached

namespace Standard

/-- What is dropped ends with a semicolon, or something follows that is kept. -/
theorem landing_lands (standard : parser.Standard) :
    (0 < parser.landing ∧ (parser.token (parser.landing - 1)).kind = .semicolon) ∨
      (parser.token parser.landing).kind ∈
        [.closeCurly, .endOfInput, .letKeyword, .returnKeyword] := by
  unfold landing
  split
  · rename_i semicolon
    exact .inl ⟨Nat.succ_pos _, semicolon⟩
  · rename_i other
    have boundary := standard.isBoundary_untilBoundary
    rw [standard.table, Table.standard_isBoundary_iff] at boundary
    exact .inr ((List.mem_cons.1 boundary).resolve_left other)

theorem resumed_lands (standard : parser.Standard) :
    (parser.token (parser.resumed stop - 1)).kind = .semicolon ∨
      (parser.token (parser.resumed stop)).kind ∈
        [.closeCurly, .endOfInput, .letKeyword, .returnKeyword] := by
  unfold resumed
  split
  · rename_i lone
    exact .inl lone.2
  · have lands := (standard.beyond : (parser.beyond (max 1 stop) []).Standard).landing_lands
    rw [token_beyond, token_beyond] at lands
    rcases lands with ⟨positive, semicolon⟩ | kept
    · left
      rwa [Nat.add_sub_assoc positive]
    · exact .inr kept

end Standard

/-- A token that is dropped and yet is a boundary is a semicolon, and the last one dropped, or it
is the token at which the statement failed at once. -/
theorem boundary_of_lt_resumed (reached : stop ≤ index) (dropped : index < parser.resumed stop)
    (boundary : parser.table.isBoundary (parser.token index).kind = true) :
    ((parser.token index).kind = .semicolon ∧ index + 1 = parser.resumed stop) ∨
      (index = 0 ∧ stop = 0 ∧ (parser.token index).kind ≠ .semicolon) := by
  unfold resumed at dropped ⊢
  split at dropped
  · rename_i lone
    obtain rfl : index = 0 := by omega
    rw [if_pos lone]
    exact .inl ⟨lone.2, rfl⟩
  · rename_i several
    rw [if_neg several]
    by_cases first : index < max 1 stop
    · obtain ⟨rfl, rfl⟩ : index = 0 ∧ stop = 0 := by omega
      exact .inr ⟨rfl, rfl, fun semicolon => several ⟨rfl, semicolon⟩⟩
    · obtain ⟨later, rfl⟩ := Nat.exists_eq_add_of_le (Nat.le_of_not_lt first)
      have inside : later < (parser.beyond (max 1 stop) []).landing := by omega
      have same : parser.token (max 1 stop + later) = (parser.beyond (max 1 stop) []).token later :=
        (token_beyond later).symm
      rw [same] at boundary ⊢
      obtain ⟨semicolon, last⟩ := last_of_lt_landing inside boundary
      exact .inl ⟨semicolon, by omega⟩

end Parser

namespace Routine

variable {parser after : Parser} {count : Nat}

/-- A statement that begins with a keyword takes at least the keyword, however it ends. -/
theorem keyword_consumed {form : StatementForm} (keyword : form ≠ .expression)
    (left : (form.read (levels count) parser).after? = some after) :
    parser.consumed < after.consumed := by
  rw [(statementRecipe (levelsRecipes count) form).leads left, Parser.replay_consumed]
  apply Nat.lt_add_of_pos_right
  apply List.count_pos_iff.2
  cases form with
  | binding => exact List.mem_cons_self
  | result => exact List.mem_cons_self
  | expression => exact absurd rfl keyword

/-- Where a statement fails without taking a token there is no keyword. -/
theorem no_keyword_of_failed {diagnostic : Diagnostic} {found : List Diagnostic}
    (standard : parser.Standard)
    (failed : statementBody (levels count) parser = .failed diagnostic (parser.beyond 0 found)) :
    Table.standard.statementForm parser.current.kind = none := by
  cases registered : Table.standard.statementForm parser.current.kind with
  | none => rfl
  | some form =>
      rw [statementBody_apply, standard.table, registered] at failed
      have keyword : form ≠ .expression := by
        rintro rfl
        exact absurd (Table.standard_statementForm_iff.1 registered) (List.not_mem_nil)
      have moved := keyword_consumed keyword (congrArg Outcome.after? failed)
      exact absurd moved (Nat.lt_irrefl _)

end Routine

namespace Parser.Standard

variable {parser : Parser} {stop index : Nat}

/-- What is skipped begins no other statement and ends nothing, but for a semicolon at the end of
it and for a brace at which the statement failed at once. -/
theorem skipped (standard : parser.Standard) (present : parser.current.kind ≠ .endOfInput)
    (plain : stop = 0 → Table.standard.statementForm parser.current.kind = none)
    (reached : stop ≤ index) (dropped : index < parser.resumed stop) :
    (parser.token index).kind ∉ [.letKeyword, .returnKeyword, .endOfInput] ∧
      ((parser.token index).kind = .semicolon → index + 1 = parser.resumed stop) ∧
      ((parser.token index).kind = .closeCurly → index = stop ∧ stop = 0) := by
  by_cases boundary : parser.table.isBoundary (parser.token index).kind = true
  · rcases boundary_of_lt_resumed reached dropped boundary with
      ⟨semicolon, last⟩ | ⟨rfl, rfl, other⟩
    · rw [semicolon]
      exact ⟨by decide, fun _ => last, nofun⟩
    · rw [token_zero] at other ⊢
      have begins := plain rfl
      refine ⟨?_, fun semicolon => absurd semicolon other, fun _ => ⟨rfl, rfl⟩⟩
      intro keyword
      simp only [List.mem_cons, List.not_mem_nil, or_false] at keyword
      rcases keyword with binding | result | finished
      · rw [binding] at begins
        cases begins
      · rw [result] at begins
        cases begins
      · exact present finished
  · rw [standard.table, Table.standard_isBoundary_iff] at boundary
    simp only [List.mem_cons, List.not_mem_nil, or_false, not_or] at boundary ⊢
    obtain ⟨noSemicolon, noBrace, noEnd, noBinding, noResult⟩ := boundary
    exact ⟨⟨noBinding, noResult, noEnd⟩, fun semicolon => absurd semicolon noSemicolon,
      fun brace => absurd brace noBrace⟩

end Parser.Standard

/-- A parser of the language that is not at the end of input keeps a statement exactly if it can
be read, and then stands where that left it.  Otherwise the failure is recorded last, and the
parse goes on, at least one token further, after a semicolon or before a token that it must not
lose; and nothing of that kind is among the tokens that it skips. -/
theorem statement_kept_or_skipped {parser : Parser} (standard : parser.Standard)
    (present : parser.current.kind ≠ .endOfInput) :
    (∃ statement after, Routine.statement parser = .ok statement after ∧
      Routine.statementOrSkip parser = .ok (some statement) after) ∨
    ∃ diagnostic stop found next,
      Routine.statement parser = .failed diagnostic (parser.beyond stop found) ∧
      Routine.statementOrSkip parser = .ok none (parser.beyond next (found ++ [diagnostic])) ∧
      0 < next ∧ stop ≤ next ∧ next ≤ parser.pending.length ∧
      ((parser.token (next - 1)).kind = .semicolon ∨
        (parser.token next).kind ∈ [.closeCurly, .endOfInput, .letKeyword, .returnKeyword]) ∧
      ∀ index, stop ≤ index → index < next →
        (parser.token index).kind ∉ [.letKeyword, .returnKeyword, .endOfInput] ∧
        ((parser.token index).kind = .semicolon → index + 1 = next) ∧
        ((parser.token index).kind = .closeCurly → index = stop ∧ stop = 0) := by
  have met := Routine.statementBody_proper
    (Routine.levels_proper (nestingLimit - parser.depth)) standard
  cases run : Routine.statement parser with
  | ok statement after =>
      refine .inl ⟨statement, after, rfl, ?_⟩
      show Routine.recovering _ _ = _
      rw [Routine.recovering, show Routine.statementBody _ parser = _ from run]
  | failed diagnostic after =>
      rw [show Routine.statementBody _ parser = _ from run] at met
      cases met with
      | @failed _ stop found kept =>
          have plain : stop = 0 → Table.standard.statementForm parser.current.kind = none := by
            rintro rfl
            exact Routine.no_keyword_of_failed standard run
          exact .inr ⟨diagnostic, stop, found, parser.resumed stop, rfl,
            Routine.recovering_failed run, Parser.resumed_pos, Parser.le_resumed,
            standard.resumed_le present kept.1, standard.resumed_lands,
            fun index reached dropped => standard.skipped present plain reached dropped⟩
  | endless =>
      rw [show Routine.statementBody _ parser = _ from run] at met
      cases met with
      | endless impossible => exact impossible.elim

/-- After what went wrong in the first block there is no second one, and two names are skipped up
to a keyword. -/
theorem statement_kept_or_skipped_alternative :
    (Parser.ofSource "if (a) { ) } else b c let d" none).current.kind ≠ .endOfInput ∧
    ∃ diagnostic found next,
      Routine.statementOrSkip (.ofSource "if (a) { ) } else b c let d" none) =
        .ok none ((Parser.ofSource "if (a) { ) } else b c let d" none).beyond next
          (found ++ [diagnostic])) ∧
      found.length = 1 ∧ next = 10 := by
  have present : (Parser.ofSource "if (a) { ) } else b c let d" none).current.kind ≠
      .endOfInput := by decide +kernel
  have skips : (match Routine.statementOrSkip (.ofSource "if (a) { ) } else b c let d" none) with
      | .ok none after => decide (after.consumed = 10 ∧ after.diagnostics.size = 2)
      | _ => false) = true := by
    decide +kernel
  rcases statement_kept_or_skipped (Parser.ofSource_standard _ none) present with
    ⟨statement, after, _, kept⟩ | ⟨diagnostic, stop, found, next, _, skipped, _⟩
  · rw [kept] at skips
    cases skips
  · rw [skipped] at skips
    obtain ⟨consumed, recorded⟩ := of_decide_eq_true skips
    refine ⟨present, diagnostic, found, next, skipped, ?_, ?_⟩
    · rw [← Array.length_toList, Parser.beyond_diagnostics] at recorded
      simpa [Parser.ofSource, Parser.ofTokens] using recorded
    · simpa [Parser.ofSource, Parser.ofTokens] using consumed

end Monkey
