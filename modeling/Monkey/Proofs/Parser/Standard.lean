import Monkey.Parser.Levels
import Monkey.Proofs.Parser.Contract
import Monkey.Proofs.Token.Scanning

namespace Monkey

/-! Parsers of the language itself.

Such a parser uses the language's own forms, and only the end of input looks like the
end of input.  Consuming tokens keeps it so.
-/

namespace Parser

structure Standard (parser : Parser) : Prop where
  table : parser.table = .standard
  finish : parser.finish.kind = .endOfInput
  pending : ∀ token ∈ parser.pending, token.kind ≠ .endOfInput

namespace Standard

variable {parser : Parser} {count : Nat} {found : List Diagnostic}

theorem beyond (standard : parser.Standard) : (parser.beyond count found).Standard where
  table := standard.table
  finish := standard.finish
  pending token member := standard.pending token (List.mem_of_mem_drop member)

theorem inside (standard : parser.Standard) :
    ({ parser with depth := parser.depth + 1 } : Parser).Standard :=
  ⟨standard.table, standard.finish, standard.pending⟩

/-- A token that is not the end of input is there to be consumed. -/
theorem lt_length (standard : parser.Standard)
    (present : (parser.token count).kind ≠ .endOfInput) : count < parser.pending.length := by
  by_cases inside : count < parser.pending.length
  · exact inside
  · refine absurd ?_ present
    simp [token, List.getElem?_eq_none (Nat.le_of_not_lt inside), standard.finish]

theorem kind_ne_endOfInput (standard : parser.Standard) (inside : count < parser.pending.length) :
    (parser.token count).kind ≠ .endOfInput := by
  simpa [token, inside] using standard.pending _ (List.getElem_mem inside)

/-- Nothing is consumed at the end of input. -/
theorem present_of_taken (standard : parser.Standard) (consumed : parser.taken count ≠ []) :
    parser.current.kind ≠ .endOfInput := by
  have positive := List.length_pos_iff.2 consumed
  rw [taken, List.length_take] at positive
  exact standard.kind_ne_endOfInput (Nat.lt_of_lt_of_le positive (Nat.min_le_right _ _))

theorem pending_eq (standard : parser.Standard)
    (present : parser.current.kind ≠ .endOfInput) :
    parser.pending = parser.current :: parser.pending.drop 1 := by
  have nonempty : 0 < parser.pending.length := standard.lt_length present
  cases pending : parser.pending with
  | nil => simp [pending] at nonempty
  | cons token rest => simp [current, pending]

theorem taken_one (standard : parser.Standard)
    (present : parser.current.kind ≠ .endOfInput) : parser.taken 1 = [parser.current] := by
  rw [taken, standard.pending_eq present]
  rfl

theorem taken_of_finished (standard : parser.Standard)
    (finished : (parser.token count).kind = .endOfInput) : parser.taken count = parser.pending := by
  refine List.take_of_length_le (Nat.le_of_not_lt fun inside => ?_)
  exact standard.kind_ne_endOfInput inside finished

end Standard

theorem ofSource_standard (source : String) (file : Option String) :
    (ofSource source file).Standard where
  table := rfl
  finish := rfl
  pending := scan_kind_ne_endOfInput _ _ _

theorem eq_of_ofLexer {lexer : Lexer} (made : ofLexer lexer = some parser) :
    ∃ rest, lexer.ahead = some rest ∧
      parser = ofTokens (scan lexer.file lexer.offset rest) lexer.finish := by
  obtain ⟨tokens, read, rfl⟩ := Option.map_eq_some_iff.1 made
  obtain ⟨rest, ahead, rfl⟩ := Option.map_eq_some_iff.1 read
  exact ⟨rest, ahead, rfl⟩

theorem ofLexer_standard {lexer : Lexer} (made : ofLexer lexer = some parser) :
    parser.Standard := by
  obtain ⟨rest, _, rfl⟩ := eq_of_ofLexer made
  exact ⟨rfl, rfl, scan_kind_ne_endOfInput _ _ _⟩

theorem tokenize_eq (source : String) (file : Option String) :
    tokenize source file = (ofSource source file).pending ++ [(ofSource source file).finish] := rfl

theorem token_mem_tokenize {source : String} {file : Option String} (index : Nat) :
    (ofSource source file).token index ∈ tokenize source file := by
  rw [tokenize_eq, token]
  cases found : (ofSource source file).pending[index]? with
  | none => simp
  | some token => exact List.mem_append_left _ (List.mem_of_getElem? found)

end Parser

/-- The kinds of token that the language's own forms begin with. -/
def PrefixForm.kinds : PrefixForm → List Kind
  | .atom => [.identifier, .integer, .trueKeyword, .falseKeyword]
  | .unary => [.not, .dash]
  | .group => [.openParen]
  | .conditional => [.ifKeyword]
  | .function => [.functionKeyword]

/-- The kinds of token with which the language's own forms go on. -/
def InfixForm.kinds : InfixForm → List Kind
  | .binary => [.equals, .notEquals, .less, .greater, .plus, .dash, .star, .slash]
  | .call => [.openParen]

def StatementForm.kinds : StatementForm → List Kind
  | .binding => [.letKeyword]
  | .result => [.returnKeyword]
  | .expression => []

namespace Table

theorem standard_prefixForm_iff {kind : Kind} {form : PrefixForm} :
    standard.prefixForm kind = some form ↔ kind ∈ form.kinds := by
  cases kind <;> cases form <;> decide

theorem standard_statementForm_iff {kind : Kind} {form : StatementForm} :
    standard.statementForm kind = some form ↔ kind ∈ form.kinds := by
  cases kind <;> cases form <;> decide

/-- What can begin an expression begins no statement of another form. -/
theorem standard_statementForm_eq_none {kind : Kind} (starts : (standard.prefixForm kind).isSome) :
    standard.statementForm kind = none := by
  cases kind <;> simp_all [standard]

theorem mem_kinds_of_standard_infixRule {kind : Kind} {power : Power} {form : InfixForm}
    (registered : standard.infixRule kind = some ⟨power, form⟩) : kind ∈ form.kinds := by
  cases kind <;> cases form <;> simp [standard, InfixForm.kinds] at registered ⊢

/-- What has a form of its own at the start of an expression is never the end of input,
nor a semicolon. -/
theorem standard_prefixForm_kind {kind : Kind} {form : PrefixForm}
    (registered : standard.prefixForm kind = some form) :
    kind ≠ .endOfInput ∧ kind ≠ .semicolon := by
  cases kind <;> simp_all [standard]

theorem standard_infixRule_kind {kind : Kind} {rule : InfixRule}
    (registered : standard.infixRule kind = some rule) :
    kind ≠ .endOfInput ∧ kind ≠ .semicolon := by
  cases kind <;> simp_all [standard]

theorem standard_statementForm_kind {kind : Kind} {form : StatementForm}
    (registered : standard.statementForm kind = some form) :
    kind ≠ .endOfInput ∧ kind ≠ .semicolon := by
  cases kind <;> simp_all [standard]

end Table

/-- What is recorded at a token: that it is an integer and too large, if it is. -/
def Token.excess (token : Token) : List Diagnostic :=
  if token.kind = .integer ∧ token.integer? = none then
    [⟨.integerOutOfRange token.text, token.span.start⟩]
  else []

/-- The expression that a token makes by itself. -/
def Expr.ofToken (token : Token) : Expr :=
  match token.kind with
  | .integer => .integer token (token.integer?.getD 0)
  | .trueKeyword => .boolean token true
  | .falseKeyword => .boolean token false
  | _ => .identifier ⟨token, token.text⟩

namespace Routine

variable {inner : Nested} {parser : Parser}

theorem atom_apply :
    atom parser = .ok (.ofToken parser.current) (parser.beyond 1 parser.current.excess) := by
  have advanced : advance parser = .ok parser.current (parser.beyond 1 []) := by
    rw [← Parser.advance_eq_beyond]
    rfl
  simp only [atom, bind_apply, advanced]
  cases kind : parser.current.kind
  case integer =>
    cases value : parser.current.integer? with
    | some value => simp [Expr.ofToken, Token.excess, kind, value]
    | none =>
        simp [bind_apply, record, Parser.record_eq_beyond, Expr.ofToken, Token.excess, kind, value]
  all_goals simp [Expr.ofToken, Token.excess, kind]

theorem leading_apply :
    leading inner parser =
      match parser.table.prefixForm parser.current.kind with
      | none => fail (.noExpression parser.current.kind parser.current.text) parser
      | some form => form.read inner parser := by
  cases registered : parser.table.prefixForm parser.current.kind <;>
    simp only [leading, bind_apply, state, registered]

theorem continued_apply {power : Power} {left : Expr} :
    continued inner power left parser =
      match parser.table.infixRule parser.current.kind with
      | none => .ok (.done left) parser
      | some rule =>
          if power < rule.power then
            (rule.form.read inner left rule.power >>= fun extended => pure (.again extended)) parser
          else .ok (.done left) parser := by
  cases registered : parser.table.infixRule parser.current.kind with
  | none => simp only [continued, bind_apply, state, registered, pure_apply]
  | some rule =>
      simp only [continued, bind_apply, state, registered]
      split <;> rfl

theorem statementBody_apply :
    statementBody inner parser =
      match parser.table.statementForm parser.current.kind with
      | some form => form.read inner parser
      | none => expressionStatement inner parser := by
  cases registered : parser.table.statementForm parser.current.kind <;>
    simp only [statementBody, bind_apply, state, registered]

theorem expressionStatement_apply :
    expressionStatement inner parser =
      (ending inner >>= fun value => pure (.expression parser.current value)) parser := rfl

/-- Goes on as the current token asks for. -/
def choose {α : Type} (choice : Table → Token → Routine α) : Routine α := fun parser =>
  choice parser.table parser.current parser

theorem leading_eq :
    leading inner = choose fun table token =>
      match table.prefixForm token.kind with
      | none => fail (.noExpression token.kind token.text)
      | some form => form.read inner := by
  funext parser
  rw [leading_apply, choose]
  cases parser.table.prefixForm parser.current.kind <;> rfl

theorem continued_eq {power : Power} {left : Expr} :
    continued inner power left = choose fun table token =>
      match table.infixRule token.kind with
      | none => pure (.done left)
      | some rule =>
          if power < rule.power then
            rule.form.read inner left rule.power >>= fun extended => pure (.again extended)
          else pure (.done left) := by
  funext parser
  rw [continued_apply, choose]
  cases parser.table.infixRule parser.current.kind with
  | none => rfl
  | some rule =>
      dsimp only
      split <;> rfl

theorem statementBody_eq :
    statementBody inner = choose fun table token =>
      match table.statementForm token.kind with
      | some form => form.read inner
      | none => expressionStatement inner := by
  funext parser
  rw [statementBody_apply, choose]
  cases parser.table.statementForm parser.current.kind <;> rfl

theorem expressionStatement_eq :
    expressionStatement inner = choose fun _ token =>
      ending inner >>= fun value => pure (.expression token value) := rfl

def separatedRound {α : Type} (item : Routine α) (items : Array α) :
    Routine (Round (Array α) (List α)) := do
  let value ← item
  if ← skip .comma then return .again (items.push value)
  else return .done (items.push value).toList

theorem separated_eq {α : Type} {item : Routine α} :
    separated item = iterate (separatedRound item) #[] := rfl

def statementsRound (ends : Kind → Bool) (statement : Routine Statement)
    (statements : Array Statement) : Routine (Round (Array Statement) (List Statement)) :=
  fun parser =>
    if ends parser.current.kind then .ok (.done statements.toList) parser
    else
      (recovering statement >>= fun
        | some value => pure (.again (statements.push value))
        | none => pure (.again statements)) parser

theorem statementsRound_eq {ends : Kind → Bool} {statement : Routine Statement}
    {statements : Array Statement} :
    statementsRound ends statement statements = choose fun _ token =>
      if ends token.kind then pure (.done statements.toList)
      else recovering statement >>= fun
        | some value => pure (.again (statements.push value))
        | none => pure (.again statements) := by
  funext parser
  rw [statementsRound, choose]
  split <;> rfl

theorem statementsUntil_eq {ends : Kind → Bool} {statement : Routine Statement} :
    statementsUntil ends statement = iterate (statementsRound ends statement) #[] := by
  unfold statementsUntil
  congr 1
  funext statements parser
  simp only [bind_apply, state, statementsRound]
  split <;> rfl

end Routine

end Monkey
