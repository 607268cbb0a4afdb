import Monkey.Proofs.Parser.Boundary
import Monkey.Proofs.Parser.Running
import Monkey.Proofs.Tree.Relocation

namespace Monkey

/-! Where tokens stand does not matter for how they are read.

If every position is changed in one way, so are the positions in what is read and in what is
found wrong.  Nothing depends on what was consumed and recorded before, either.
-/

/-- How positions change, and what was consumed and recorded before. -/
structure Relocation where
  move : Position → Position
  consumed : Nat
  found : List Diagnostic

namespace Parser

variable {parser : Parser} {relocation : Relocation}

def relocate (relocation : Relocation) (parser : Parser) : Parser :=
  { parser with
    pending := parser.pending.map (·.relocate relocation.move)
    finish := parser.finish.relocate relocation.move
    consumed := relocation.consumed + parser.consumed
    diagnostics :=
      (relocation.found ++ parser.diagnostics.toList.map (·.relocate relocation.move)).toArray }

@[simp] theorem relocate_table : (parser.relocate relocation).table = parser.table := rfl

@[simp] theorem relocate_depth : (parser.relocate relocation).depth = parser.depth := rfl

@[simp] theorem relocate_consumed :
    (parser.relocate relocation).consumed = relocation.consumed + parser.consumed := rfl

@[simp] theorem relocate_pending :
    (parser.relocate relocation).pending = parser.pending.map (·.relocate relocation.move) := rfl

@[simp] theorem relocate_current :
    (parser.relocate relocation).current = parser.current.relocate relocation.move := by
  simp [current, relocate, Option.getD_map]

theorem relocate_position :
    (parser.relocate relocation).position = relocation.move parser.position := by
  rw [position, relocate_current]
  rfl

theorem relocate_beyond (count : Nat) (found : List Diagnostic) :
    (parser.relocate relocation).beyond count (found.map (·.relocate relocation.move)) =
      (parser.beyond count found).relocate relocation := by
  simp [relocate, beyond, List.map_drop, Nat.add_assoc]

theorem relocate_advance (count : Nat) :
    (parser.relocate relocation).advance count = (parser.advance count).relocate relocation := by
  rw [advance_eq_beyond, advance_eq_beyond]
  exact relocate_beyond count []

theorem relocate_record (diagnostic : Diagnostic) :
    (parser.relocate relocation).record (diagnostic.relocate relocation.move) =
      (parser.record diagnostic).relocate relocation := by
  rw [record_eq_beyond, record_eq_beyond]
  exact relocate_beyond 0 [diagnostic]

theorem relocate_synchronize :
    (parser.relocate relocation).synchronize = parser.synchronize.relocate relocation := by
  have dropped : ((parser.pending.map (·.relocate relocation.move)).takeWhile fun token =>
      !parser.table.isBoundary token.kind).length =
      (parser.pending.takeWhile fun token => !parser.table.isBoundary token.kind).length := by
    rw [List.takeWhile_map, List.length_map]
    rfl
  unfold synchronize
  simp only [relocate_pending, relocate_table, dropped, relocate_advance, relocate_current,
    Token.relocate_kind]
  split <;> rfl

theorem relocate_resume (start : Nat) :
    (parser.relocate relocation).resume (relocation.consumed + start) =
      (parser.resume start).relocate relocation := by
  unfold resume
  simp only [relocate_consumed, Nat.add_left_cancel_iff, relocate_current, Token.relocate_kind,
    relocate_advance, relocate_synchronize]
  split
  · split <;> rfl
  · rfl

end Parser

def Outcome.relocate {α β : Type} (relocation : Relocation) (carry : α → β) :
    Outcome α → Outcome β
  | .ok value after => .ok (carry value) (after.relocate relocation)
  | .failed diagnostic after =>
      .failed (diagnostic.relocate relocation.move) (after.relocate relocation)
  | .endless => .endless

def Round.map {α β γ δ : Type} (next : α → γ) (result : β → δ) : Round α β → Round γ δ
  | .again value => .again (next value)
  | .done value => .done (result value)

/-- The second routine does where the tokens stand elsewhere what the first one does. -/
def Routine.Carries {α β : Type} (relocation : Relocation) (carry : α → β) (routine : Routine α)
    (moved : Routine β) : Prop :=
  ∀ parser, moved (parser.relocate relocation) = (routine parser).relocate relocation carry

namespace Routine.Carries

variable {α β γ δ : Type} {relocation : Relocation} {carry : α → β} {routine : Routine α}
  {moved : Routine β}

theorem pure {value : α} {result : β} (same : carry value = result) :
    Carries relocation carry (Pure.pure value) (Pure.pure result) := by
  intro parser
  subst same
  rfl

theorem fail {cause : Cause} :
    Carries relocation carry (Routine.fail cause) (Routine.fail cause) := by
  intro parser
  rw [Routine.fail, Routine.fail, Parser.relocate_position]
  rfl

theorem advance :
    Carries relocation (·.relocate relocation.move) Routine.advance Routine.advance := by
  intro parser
  rw [Routine.advance, Routine.advance, Parser.relocate_current, Parser.relocate_advance]
  rfl

theorem expect {kind : Kind} :
    Carries relocation (·.relocate relocation.move) (Routine.expect kind)
      (Routine.expect kind) := by
  intro parser
  rw [Routine.expect, Routine.expect, Parser.relocate_current, Token.relocate_kind]
  split
  · exact advance parser
  · exact fail parser

theorem skip {kind : Kind} :
    Carries relocation id (Routine.skip kind) (Routine.skip kind) := by
  intro parser
  rw [Routine.skip, Routine.skip, Parser.relocate_current, Token.relocate_kind,
    Parser.relocate_advance]
  split <;> rfl

theorem bind {next : α → Routine γ} {movedNext : β → Routine δ} {after : γ → δ}
    (first : Carries relocation carry routine moved)
    (later : ∀ value, Carries relocation after (next value) (movedNext (carry value))) :
    Carries relocation after (routine >>= next) (moved >>= movedNext) := by
  intro parser
  rw [bind_apply, bind_apply, first parser]
  cases routine parser with
  | ok value rest => exact later value rest
  | failed diagnostic rest => rfl
  | endless => rfl

theorem choose {choice : Table → Token → Routine α} {movedChoice : Table → Token → Routine β}
    (each : ∀ table token, Carries relocation carry (choice table token)
      (movedChoice table (token.relocate relocation.move))) :
    Carries relocation carry (Routine.choose choice) (Routine.choose movedChoice) := by
  intro parser
  rw [Routine.choose, Routine.choose, Parser.relocate_current]
  exact each parser.table parser.current parser

theorem nested (inside : Carries relocation carry routine moved) :
    Carries relocation carry (Routine.nested routine) (Routine.nested moved) := by
  intro parser
  unfold Routine.nested enter
  rw [Parser.relocate_depth]
  by_cases full : nestingLimit ≤ parser.depth
  · rw [if_pos full, if_pos full, Routine.fail, Routine.fail, Parser.relocate_position]
    rfl
  · rw [if_neg full, if_neg full]
    dsimp only
    have run := inside { parser with depth := parser.depth + 1 }
    rw [show ({ parser.relocate relocation with depth := parser.depth + 1 } : Parser) =
      ({ parser with depth := parser.depth + 1 } : Parser).relocate relocation from rfl, run]
    cases routine { parser with depth := parser.depth + 1 } <;> rfl

theorem iterate {round : α → Routine (Round α γ)} {movedRound : β → Routine (Round β δ)}
    {result : γ → δ} {start : α} {movedStart : β}
    (step : ∀ value, Carries relocation (Round.map carry result) (round value)
      (movedRound (carry value)))
    (begins : carry start = movedStart) :
    Carries relocation result (Routine.iterate round start)
      (Routine.iterate movedRound movedStart) := by
  intro parser
  subst begins
  generalize length : parser.pending.length = left
  -- Both loops take the same rounds, and each round leaves less to read.
  induction left using Nat.strongRecOn generalizing start parser with
  | ind left ih =>
      have run := step start parser
      cases outcome : round start parser with
      | ok decision after =>
          rw [outcome] at run
          cases decision with
          | done value =>
              rw [iterate_done outcome, iterate_done run]
              rfl
          | again value =>
              by_cases shorter : after.pending.length < parser.pending.length
              · have movedShorter : (after.relocate relocation).pending.length <
                    (parser.relocate relocation).pending.length := by
                  simpa using shorter
                rw [iterate_again outcome shorter, iterate_again run movedShorter]
                exact ih _ (length ▸ shorter) after rfl
              · rw [Routine.iterate, Routine.iterate, outcome, run]
                simp [shorter, Outcome.relocate, Round.map]
      | failed diagnostic after =>
          rw [outcome] at run
          rw [iterate_failed outcome, iterate_failed run]
          rfl
      | endless =>
          rw [outcome] at run
          rw [Routine.iterate, Routine.iterate, outcome, run]
          rfl

theorem recovering {statement movedStatement : Routine Statement}
    (reads : Carries relocation (·.relocate relocation.move) statement movedStatement) :
    Carries relocation (Option.map (·.relocate relocation.move)) (Routine.recovering statement)
      (Routine.recovering movedStatement) := by
  intro parser
  rw [Routine.recovering, Routine.recovering, reads parser]
  cases statement parser with
  | ok value after => rfl
  | failed diagnostic after =>
      simp only [Outcome.relocate, Parser.relocate_record, Parser.relocate_consumed,
        Parser.relocate_resume]
      rfl
  | endless => rfl

end Routine.Carries

structure Nested.Carries (relocation : Relocation) (inner : Nested) : Prop where
  expression : ∀ power, Routine.Carries relocation (·.relocate relocation.move)
    (inner.expression power) (inner.expression power)
  block : Routine.Carries relocation (·.relocate relocation.move) inner.block inner.block

namespace Routine

variable {α : Type} {relocation : Relocation} {inner : Nested}

theorem identifier_carries :
    Carries relocation (·.relocate relocation.move) identifier identifier :=
  Carries.expect.bind fun _ => .pure rfl

theorem separated_carries {carry : α → α} {item : Routine α}
    (carries : Carries relocation carry item item) :
    Carries relocation (List.map carry) (separated item) (separated item) := by
  have step : ∀ items, Carries relocation (Round.map (Array.map carry) (List.map carry))
      (separatedRound item items) (separatedRound item (items.map carry)) := by
    intro items
    apply carries.bind
    intro value
    apply Carries.skip.bind
    intro skipped
    cases skipped with
    | true => exact .pure (by simp [Round.map])
    | false => exact .pure (by simp [Round.map])
  exact .iterate step (by simp)

theorem enclosed_carries {carry : α → α} {item : Routine α}
    (carries : Carries relocation carry item item) :
    Carries relocation (List.map carry) (enclosed item) (enclosed item) := by
  apply Carries.skip.bind
  intro skipped
  cases skipped with
  | true => exact .pure rfl
  | false =>
      apply (separated_carries carries).bind
      intro items
      exact Carries.expect.bind fun _ => .pure rfl

theorem atom_carries : Carries relocation (·.relocate relocation.move) atom atom := by
  intro parser
  have read : ∀ token : Token, Expr.ofToken (token.relocate relocation.move) =
      (Expr.ofToken token).relocate relocation.move := by
    intro token
    unfold Expr.ofToken
    rw [Token.relocate_kind]
    split <;> rfl
  have recorded : ∀ token : Token, (token.relocate relocation.move).excess =
      token.excess.map (·.relocate relocation.move) := by
    intro token
    unfold Token.excess
    rw [Token.relocate_kind,
      show (token.relocate relocation.move).integer? = token.integer? from rfl]
    split <;> rfl
  rw [atom_apply, atom_apply, Parser.relocate_current, read, recorded, Parser.relocate_beyond]
  rfl

theorem unary_carries (carries : inner.Carries relocation) :
    Carries relocation (·.relocate relocation.move) (unary inner) (unary inner) :=
  Carries.advance.bind fun _ => (carries.expression _).bind fun _ => .pure rfl

theorem group_carries (carries : inner.Carries relocation) :
    Carries relocation (·.relocate relocation.move) (group inner) (group inner) :=
  Carries.advance.bind fun _ => (carries.expression _).bind fun _ =>
    Carries.expect.bind fun _ => .pure rfl

theorem conditional_carries (carries : inner.Carries relocation) :
    Carries relocation (·.relocate relocation.move) (conditional inner) (conditional inner) := by
  apply Carries.advance.bind
  intro token
  apply Carries.expect.bind
  intro opening
  apply (carries.expression _).bind
  intro condition
  apply Carries.expect.bind
  intro closing
  apply carries.block.bind
  intro consequence
  apply Carries.skip.bind
  intro skipped
  cases skipped with
  | true => exact carries.block.bind fun _ => .pure rfl
  | false => exact .pure rfl

theorem function_carries (carries : inner.Carries relocation) :
    Carries relocation (·.relocate relocation.move) (function inner) (function inner) :=
  Carries.advance.bind fun _ => Carries.expect.bind fun _ =>
    (enclosed_carries identifier_carries).bind fun _ => carries.block.bind fun _ => .pure rfl

theorem binary_carries {left : Expr} {power : Power} (carries : inner.Carries relocation) :
    Carries relocation (·.relocate relocation.move) (binary inner left power)
      (binary inner (left.relocate relocation.move) power) :=
  Carries.advance.bind fun _ => (carries.expression _).bind fun _ => .pure rfl

theorem call_carries {callee : Expr} (carries : inner.Carries relocation) :
    Carries relocation (·.relocate relocation.move) (call inner callee)
      (call inner (callee.relocate relocation.move)) := by
  apply Carries.advance.bind
  intro token
  apply (enclosed_carries (carries.expression _)).bind
  intro arguments
  apply Carries.pure
  show Expr.call _ _ (relocateArguments relocation.move arguments) = _
  rw [relocateArguments_eq_map]

theorem leading_carries (carries : inner.Carries relocation) :
    Carries relocation (·.relocate relocation.move) (leading inner) (leading inner) := by
  rw [leading_eq]
  apply Carries.choose
  intro table token
  rw [Token.relocate_kind]
  cases table.prefixForm token.kind with
  | none => exact .fail
  | some form =>
      cases form with
      | atom => exact atom_carries
      | unary => exact unary_carries carries
      | group => exact group_carries carries
      | conditional => exact conditional_carries carries
      | function => exact function_carries carries

theorem continued_carries {power : Power} {left : Expr} (carries : inner.Carries relocation) :
    Carries relocation (Round.map (·.relocate relocation.move) (·.relocate relocation.move))
      (continued inner power left) (continued inner power (left.relocate relocation.move)) := by
  rw [continued_eq, continued_eq]
  apply Carries.choose
  intro table token
  rw [Token.relocate_kind]
  cases table.infixRule token.kind with
  | none => exact .pure rfl
  | some rule =>
      have extended : Carries relocation (·.relocate relocation.move)
          (rule.form.read inner left rule.power)
          (rule.form.read inner (left.relocate relocation.move) rule.power) := by
        cases rule.form with
        | binary => exact binary_carries carries
        | call => exact call_carries carries
      dsimp only
      split
      · exact extended.bind fun _ => .pure rfl
      · exact .pure rfl

theorem expressionBody_carries {power : Power} (carries : inner.Carries relocation) :
    Carries relocation (·.relocate relocation.move) (expressionBody inner power)
      (expressionBody inner power) :=
  (leading_carries carries).bind fun _ => .iterate (fun _ => continued_carries carries) rfl

theorem ending_carries (carries : inner.Carries relocation) :
    Carries relocation (·.relocate relocation.move) (ending inner) (ending inner) :=
  (carries.expression _).bind fun _ => Carries.skip.bind fun _ => .pure rfl

theorem expressionStatement_carries (carries : inner.Carries relocation) :
    Carries relocation (·.relocate relocation.move) (expressionStatement inner)
      (expressionStatement inner) := by
  rw [expressionStatement_eq]
  exact Carries.choose fun _ _ => (ending_carries carries).bind fun _ => .pure rfl

theorem statementBody_carries (carries : inner.Carries relocation) :
    Carries relocation (·.relocate relocation.move) (statementBody inner)
      (statementBody inner) := by
  rw [statementBody_eq]
  apply Carries.choose
  intro table token
  rw [Token.relocate_kind]
  cases table.statementForm token.kind with
  | none => exact expressionStatement_carries carries
  | some form =>
      cases form with
      | binding =>
          exact Carries.advance.bind fun _ => identifier_carries.bind fun _ =>
            Carries.expect.bind fun _ => (ending_carries carries).bind fun _ => .pure rfl
      | result =>
          exact Carries.advance.bind fun _ => (ending_carries carries).bind fun _ => .pure rfl
      | expression => exact expressionStatement_carries carries

theorem statements_carries {ends : Kind → Bool} {statement : Routine Statement}
    (carries : Carries relocation (·.relocate relocation.move) statement statement)
    (before : Array Statement) :
    Carries relocation
      (fun statements => before.toList ++ statements.map (·.relocate relocation.move))
      (iterate (statementsRound ends statement) #[])
      (iterate (statementsRound ends statement) before) := by
  have step : ∀ statements, Carries relocation
      (Round.map (before ++ ·.map (·.relocate relocation.move))
        (before.toList ++ ·.map (·.relocate relocation.move)))
      (statementsRound ends statement statements)
      (statementsRound ends statement
        (before ++ statements.map (·.relocate relocation.move))) := by
    intro statements
    rw [statementsRound_eq, statementsRound_eq]
    apply Carries.choose
    intro table token
    rw [Token.relocate_kind]
    split
    · exact .pure (by simp [Round.map])
    · apply carries.recovering.bind
      intro result
      cases result with
      | none => exact .pure rfl
      | some value => exact .pure (by simp [Round.map])
  exact .iterate step (by simp)

theorem blockBody_carries (carries : inner.Carries relocation) :
    Carries relocation (·.relocate relocation.move) (blockBody inner) (blockBody inner) := by
  apply Carries.expect.bind
  intro token
  rw [statementsUntil_eq]
  apply (statements_carries (statementBody_carries carries) #[]).bind
  intro statements
  apply Carries.expect.bind
  intro closing
  apply Carries.pure
  show Block.mk _ (relocateStatements relocation.move statements) = _
  rw [relocateStatements_eq_map]
  rfl

theorem programBody_carries (carries : inner.Carries relocation) :
    Carries relocation (·.relocate relocation.move) (programBody inner) (programBody inner) := by
  unfold programBody
  rw [statementsUntil_eq]
  exact (statements_carries (statementBody_carries carries) #[]).bind fun _ => .pure rfl

/-- However many levels are left, what stands further in is read alike. -/
theorem levels_carries (count : Nat) : (levels count).Carries relocation := by
  induction count with
  | zero => exact ⟨fun _ => .fail, .fail⟩
  | succ count ih =>
      exact ⟨fun _ => (expressionBody_carries ih).nested, (blockBody_carries ih).nested⟩

theorem program_carries : Carries relocation (·.relocate relocation.move) program program :=
  fun parser => programBody_carries (levels_carries (nestingLimit - parser.depth)) parser

theorem block_carries : Carries relocation (·.relocate relocation.move) block block :=
  fun parser => (levels_carries (nestingLimit - parser.depth)).block parser

theorem Carries.of_ok {α β : Type} {carry : α → β} {routine : Routine α} {moved : Routine β}
    {parser : Parser} {value : α} {count : Nat} {found : List Diagnostic}
    (carries : Carries relocation carry routine moved)
    (run : routine parser = .ok value (parser.beyond count found)) :
    moved (parser.relocate relocation) = .ok (carry value)
      ((parser.relocate relocation).beyond count (found.map (·.relocate relocation.move))) := by
  rw [carries parser, run, Parser.relocate_beyond]
  rfl

end Routine

end Monkey
