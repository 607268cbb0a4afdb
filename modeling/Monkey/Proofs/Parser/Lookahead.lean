import Monkey.Proofs.Parser.Compositional
import Monkey.Proofs.Parser.Echo
import Monkey.Proofs.Parser.Failure
import Monkey.Proofs.Parser.Progress

namespace Monkey

/-! No routine looks further than the token after those that it consumes.

So two parsers that see the same tokens as far as that do the same, whatever they consumed
before and whatever comes later.
-/

namespace Parser

variable {parser other : Parser} {count more : Nat} {found : List Diagnostic}

/-- Both parsers see the same tokens, so many of them, and have as many levels open. -/
structure Agrees (parser other : Parser) (count : Nat) : Prop where
  table : other.table = parser.table
  depth : other.depth = parser.depth
  tokens : ∀ index < count, other.token index = parser.token index

namespace Agrees

theorem mono (agrees : parser.Agrees other more) (fewer : count ≤ more) :
    parser.Agrees other count :=
  ⟨agrees.table, agrees.depth, fun index inside =>
    agrees.tokens index (Nat.lt_of_lt_of_le inside fewer)⟩

theorem current (agrees : parser.Agrees other (count + 1)) : other.current = parser.current :=
  agrees.tokens 0 (Nat.succ_pos count)

theorem position (agrees : parser.Agrees other (count + 1)) :
    other.position = parser.position := by
  rw [Parser.position, Parser.position, agrees.current]

theorem beyond {whole : Nat} (agrees : parser.Agrees other whole) (fits : count + more ≤ whole) :
    (parser.beyond count found).Agrees (other.beyond count found) more := by
  refine ⟨agrees.table, agrees.depth, ?_⟩
  intro index inside
  rw [token_beyond, token_beyond]
  exact agrees.tokens _ (Nat.lt_of_lt_of_le (Nat.add_lt_add_left inside count) fits)

theorem inside (agrees : parser.Agrees other count) :
    ({ parser with depth := parser.depth + 1 } : Parser).Agrees
      { other with depth := other.depth + 1 } count :=
  ⟨agrees.table, congrArg (· + 1) agrees.depth, agrees.tokens⟩

theorem shorter (agrees : parser.Agrees other (count + 1)) (standard : parser.Standard)
    (otherStandard : other.Standard) (consumed : parser.taken more ≠ []) :
    (other.beyond more found).pending.length < other.pending.length := by
  have present := standard.present_of_taken consumed
  have positive := List.length_pos_iff.2 consumed
  rw [taken, List.length_take] at positive
  rw [← agrees.current] at present
  have nonempty : 0 < other.pending.length := otherStandard.lt_length present
  simp only [beyond_pending, List.length_drop]
  omega

theorem sight : Sight Agrees where
  mono := mono
  beyond seen := seen.beyond (Nat.le_refl _)
  inside := inside
  depth := depth
  current := current
  shorter seen standard otherStandard consumed := by
    have first := seen.mono (show 0 + 1 ≤ _ from pos_of_taken consumed)
    exact first.shorter standard otherStandard consumed

end Agrees

/-- Two parsers that see boundaries at the same places come to the same one first. -/
theorem untilBoundary_eq (standard : parser.Standard) (otherStandard : other.Standard)
    (same : ∀ index ≤ parser.untilBoundary, other.table.isBoundary (other.token index).kind =
      parser.table.isBoundary (parser.token index).kind) :
    other.untilBoundary = parser.untilBoundary := by
  have here := standard.isBoundary_untilBoundary
  have there := otherStandard.isBoundary_untilBoundary
  rcases Nat.lt_trichotomy other.untilBoundary parser.untilBoundary with before | equal | after
  · rw [same _ (Nat.le_of_lt before), isBoundary_of_lt_untilBoundary before] at there
    cases there
  · exact equal
  · rw [← same _ (Nat.le_refl _), isBoundary_of_lt_untilBoundary after] at here
    cases here

theorem Agrees.untilBoundary (agrees : parser.Agrees other (parser.untilBoundary + 1))
    (standard : parser.Standard) (otherStandard : other.Standard) :
    other.untilBoundary = parser.untilBoundary := by
  apply untilBoundary_eq standard otherStandard
  intro index below
  rw [agrees.table, agrees.tokens index (Nat.lt_succ_of_le below)]

theorem Agrees.landing (agrees : parser.Agrees other (parser.untilBoundary + 1))
    (standard : parser.Standard) (otherStandard : other.Standard) :
    other.landing = parser.landing := by
  unfold Parser.landing
  rw [agrees.untilBoundary standard otherStandard, agrees.tokens _ (Nat.lt_succ_self _)]

/-- How many tokens decide where the parse goes on after a statement that failed. -/
def surveyed (parser : Parser) (count : Nat) : Nat :=
  if count = 0 ∧ parser.current.kind = .semicolon then 1
  else max 1 count + (parser.beyond (max 1 count) []).untilBoundary + 1

theorem lt_surveyed : count < parser.surveyed count := by
  unfold surveyed
  split <;> omega

theorem surveyed_le : parser.surveyed count ≤ parser.resumed count + 1 := by
  have near : (parser.beyond (max 1 count) []).untilBoundary ≤
      (parser.beyond (max 1 count) []).landing := untilBoundary_le_landing
  unfold surveyed resumed
  split <;> omega

theorem Agrees.resumed (agrees : parser.Agrees other (parser.surveyed count))
    (standard : parser.Standard) (otherStandard : other.Standard) :
    other.resumed count = parser.resumed count := by
  have first : other.current = parser.current :=
    agrees.tokens 0 (Nat.lt_of_le_of_lt (Nat.zero_le count) lt_surveyed)
  unfold surveyed at agrees
  unfold Parser.resumed
  rw [first]
  split
  · rfl
  · rename_i goesOn
    rw [if_neg goesOn, Nat.add_assoc] at agrees
    have landing :=
      Agrees.landing (agrees.beyond (Nat.le_refl _)) standard.beyond otherStandard.beyond
    exact congrArg (max 1 count + ·) landing

end Parser

namespace Contract

/-- What an outcome says about the same routine run from another parser, if the tokens
consumed are the same for both, and the one after them. -/
def mirrored {α : Type} (parser other : Parser) (outcome : Outcome α) : Contract α where
  ok value count found :=
    parser.Agrees other (count + 1) → outcome = .ok value (other.beyond count found)
  failed diagnostic count found :=
    parser.Agrees other (count + 1) → outcome = .failed diagnostic (other.beyond count found)
  endless := True

end Contract

/-- What the routine does is decided by the tokens that it consumes and the one after them. -/
def Routine.Local {α : Type} (routine : Routine α) : Prop :=
  ∀ parser other : Parser, parser.Standard → other.Standard →
    (routine parser).Meets parser (.mirrored parser other (routine other))

namespace Routine.Local

variable {α β : Type} {routine : Routine α}

theorem pure {value : α} : (Pure.pure value : Routine α).Local :=
  Echoes.pure

theorem fail {cause : Cause} : (Routine.fail cause : Routine α).Local :=
  Echoes.fail Parser.Agrees.sight

theorem advance : Routine.advance.Local :=
  Echoes.advance Parser.Agrees.sight

theorem expect {kind : Kind} : (Routine.expect kind).Local :=
  Echoes.expect Parser.Agrees.sight

theorem atom : Routine.atom.Local :=
  Echoes.atom Parser.Agrees.sight

theorem skip {kind : Kind} : (Routine.skip kind).Local := by
  intro parser other standard otherStandard
  apply Outcome.Meets.skip
  · intro present agrees
    rw [Routine.skip, agrees.current, if_pos present, Parser.advance_eq_beyond]
  · intro absent agrees
    rw [Routine.skip, agrees.current, if_neg absent, Parser.beyond_zero]

theorem bind {next : α → Routine β} (first : routine.Local) (later : ∀ value, (next value).Local) :
    (routine >>= next).Local :=
  Echoes.bind Parser.Agrees.sight (Nat.le_refl 1) first later

theorem nested (inside : routine.Local) : (Routine.nested routine).Local :=
  Echoes.nested Parser.Agrees.sight inside

theorem iterate {round : α → Routine (Round α β)} (step : ∀ value, (round value).Local)
    (start : α) : Routine.Local (Routine.iterate round start) :=
  Echoes.iterate Parser.Agrees.sight (Nat.le_refl 1) step start

theorem choose {choice : Table → Token → Routine α}
    (each : ∀ table token, (choice table token).Local) : (Routine.choose choice).Local := by
  intro parser other standard otherStandard
  apply (each parser.table parser.current parser other standard otherStandard).mono
  · intro value count found same agrees
    rw [Routine.choose, agrees.table, agrees.current, same agrees]
  · intro diagnostic count found same agrees
    rw [Routine.choose, agrees.table, agrees.current, same agrees]
  · intro _
    trivial

theorem recovering {statement : Routine Statement} (reads : statement.Local) :
    (Routine.recovering statement).Local := by
  intro parser other standard otherStandard
  apply (reads parser other standard otherStandard).recovering
  · intro value count found same agrees
    rw [Routine.recovering, same agrees]
  · intro diagnostic count found same agrees
    have surveyed := agrees.mono Parser.surveyed_le
    have resumed := surveyed.resumed standard otherStandard
    rw [recovering_failed (same (surveyed.mono Parser.lt_surveyed)), resumed]
  · intro _
    trivial

theorem leading {inner : Nested} (forms : ∀ form : PrefixForm, (form.read inner).Local) :
    (Routine.leading inner).Local := by
  rw [leading_eq]
  apply choose
  intro table token
  cases table.prefixForm token.kind with
  | none => exact fail
  | some form => exact forms form

/-- Every routine is decided by its own tokens and the one after them. -/
theorem compositional : Compositional Routine.Local where
  pure _ := pure
  advance := advance
  expect _ := expect
  skip _ := skip
  atom := atom
  refused := fail
  bind := bind
  choose := choose
  leading := leading
  nested := nested
  recovering := recovering
  iterate := iterate

end Routine.Local

/-- The outcome of a run that came to an end. -/
def Outcome.ofResult {α : Type} : (result : Except Diagnostic α) → (after : Parser) → Outcome α
  | .ok value, after => .ok value after
  | .error diagnostic, after => .failed diagnostic after

theorem Outcome.Meets.exists_result {α : Type} {parser : Parser} {outcome : Outcome α}
    (met : outcome.Meets parser .ends) :
    ∃ result count found, outcome = .ofResult result (parser.beyond count found) := by
  cases met with
  | @ok value count found _ => exact ⟨.ok value, count, found, rfl⟩
  | @failed diagnostic count found _ => exact ⟨.error diagnostic, count, found, rfl⟩
  | endless impossible => exact impossible.elim

theorem Call.run_of_agrees {call : Call} {parser other : Parser} {count : Nat}
    {result : Except Diagnostic call.Result} {found : List Diagnostic} (standard : parser.Standard)
    (otherStandard : other.Standard) (agrees : parser.Agrees other (count + 1))
    (run : call.run parser = .ofResult result (parser.beyond count found)) :
    call.run other = .ofResult result (other.beyond count found) := by
  have isLocal := Routine.Local.compositional.call
    (Routine.Local.compositional.levels (nestingLimit - parser.depth)) call
  have met := isLocal parser other standard otherStandard
  have levelsLeft : call.run other = call.body (Routine.levels (nestingLimit - parser.depth)) other := by
    rw [← agrees.depth]
    rfl
  rw [← levelsLeft, show call.body _ parser = _ from run] at met
  cases result with
  | ok value => exact met.of_ok agrees
  | error diagnostic => exact met.of_failed agrees

/-- Whatever a parser is asked to read, the tokens that it consumes and the one after them decide
what comes of it.  Any other parser that sees these tokens and has as many levels open consumes as
many of them, with the same value or failure, and records the same diagnostics. -/
theorem run_eq_of_same_tokens {call : Call} {parser : Parser} (standard : parser.Standard) :
    ∃ result count found, call.run parser = .ofResult result (parser.beyond count found) ∧
      ∀ other : Parser, other.Standard → other.depth = parser.depth →
        (∀ index < count + 1, other.token index = parser.token index) →
        call.run other = .ofResult result (other.beyond count found) := by
  obtain ⟨result, count, found, run⟩ := (call.run_ends standard).exists_result
  refine ⟨result, count, found, run, ?_⟩
  intro other otherStandard depths tokens
  have tables := otherStandard.table.trans standard.table.symm
  exact Call.run_of_agrees standard otherStandard ⟨tables, depths, tokens⟩ run

/-- What is left of a malformed statement is skipped alike, whatever follows the next token. -/
theorem run_eq_of_same_tokens_malformed :
    ∃ (parser other : Parser) (found : List Diagnostic),
      parser = { Parser.ofSource "let 1 2; x" none with depth := 3 } ∧
      other = { Parser.ofSource "let 1 2; x(" none with depth := 3 } ∧
      parser.Standard ∧ other.Standard ∧ (∀ index < 5, other.token index = parser.token index) ∧
      found.length = 1 ∧
      Call.statementOrSkip.run parser = .ok none (parser.beyond 4 found) ∧
      Call.statementOrSkip.run other = .ok none (other.beyond 4 found) := by
  have standard : ∀ source,
      ({ Parser.ofSource source none with depth := 3 } : Parser).Standard := fun source =>
    have fresh := Parser.ofSource_standard source none
    ⟨fresh.table, fresh.finish, fresh.pending⟩
  have tokens : ∀ index < 5,
      ({ Parser.ofSource "let 1 2; x(" none with depth := 3 } : Parser).token index =
        ({ Parser.ofSource "let 1 2; x" none with depth := 3 } : Parser).token index := by
    decide +kernel
  have skips : (match Call.statementOrSkip.run
        { Parser.ofSource "let 1 2; x" none with depth := 3 } with
      | .ok none after => decide (after.consumed = 4 ∧ after.diagnostics.size = 1)
      | _ => false) = true := by
    decide +kernel
  obtain ⟨result, count, found, run, same⟩ :=
    @run_eq_of_same_tokens .statementOrSkip _ (standard "let 1 2; x")
  rw [run] at skips
  rcases result with _ | _ | _
  · cases skips
  · obtain ⟨consumed, recorded⟩ := of_decide_eq_true skips
    obtain rfl : count = 4 := by simpa [Parser.ofSource, Parser.ofTokens] using consumed
    refine ⟨_, _, found, rfl, rfl, standard _, standard _, tokens, ?_, run,
      same _ (standard _) rfl tokens⟩
    rw [← Array.length_toList, Parser.beyond_diagnostics] at recorded
    simpa [Parser.ofSource, Parser.ofTokens] using recorded
  · cases skips

end Monkey
