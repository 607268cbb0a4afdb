import Monkey.Proofs.Grammar.Levels
import Monkey.Proofs.Parser.Reading

namespace Monkey.Grammar

/-! What the parser reads can be derived. -/

/-- What a routine gives is derived from the tokens it consumed. -/
def derived (symbol : Symbol) (tree : symbol.Tree) (tokens : List Token) : Prop :=
  ∃ nesting, Derives symbol tokens tree nesting

/-- An expression at a power, and after it a token that does not bind tighter. -/
def expressionRead (power : Power) (tree : Expr) (tokens : List Token) (last : Token) : Prop :=
  derived (.expression (.above power)) tree tokens ∧ ¬ power < Table.standard.power last.kind

structure Sound (inner : Nested) : Prop where
  expression : ∀ power < Power.call, ∀ parser : Parser, parser.Standard →
    (inner.expression power parser).Meets parser (.reads (expressionRead power) parser)
  block : ∀ parser : Parser, parser.Standard →
    (inner.block parser).Meets parser
      (.reads (fun tree tokens _ => derived .block tree tokens) parser)

namespace Sound

open Outcome

variable {inner : Nested} {parser : Parser}

theorem value (sound : Sound inner) (standard : parser.Standard) :
    (inner.expression .lowest parser).Meets parser
      (.reads (fun tree tokens _ => derived (.expression .equality) tree tokens) parser) :=
  (sound.expression .lowest (by decide) parser standard).mono_reads fun _ _ _ kept => kept.1

/-- What was read so far at a power is complete as an operand of the next token. -/
def operandRead (power : Power) (tree : Expr) (tokens : List Token) (last : Token) : Prop :=
  ∃ level : Level, derived (.expression level) tree tokens ∧
    (Level.above power).rank ≤ level.rank ∧ Table.standard.power last.kind ≤ level.bound

theorem operandRead_primary {power : Power} {tree : Expr} {tokens : List Token} {last : Token}
    (primary : derived (.expression .primary) tree tokens) :
    operandRead power tree tokens last := by
  refine ⟨.primary, primary, ?_, ?_⟩
  · cases power <;> decide
  · cases Table.standard.power last.kind <;> decide

theorem atom (standard : parser.Standard)
    (registered : Table.standard.prefixForm parser.current.kind = some .atom) :
    (Routine.atom parser).Meets parser
      (.reads (fun tree tokens _ => derived (.expression .primary) tree tokens) parser) := by
  rw [Routine.atom_apply]
  refine .ok fun _ => ?_
  rw [standard.taken_one (Table.standard_prefixForm_kind registered).1]
  cases kind : parser.current.kind <;> simp [Table.standard, kind] at registered
  all_goals simp only [Expr.ofToken, kind]
  · exact ⟨0, .name kind⟩
  · exact ⟨0, .integer kind⟩
  · exact ⟨0, .true kind⟩
  · exact ⟨0, .false kind⟩

theorem unary {power : Power} (loose : power < .call) (sound : Sound inner)
    (standard : parser.Standard)
    (registered : Table.standard.prefixForm parser.current.kind = some .unary) :
    (Routine.unary inner parser).Meets parser (.reads (operandRead power) parser) := by
  have operates : parser.current.kind = .not ∨ parser.current.kind = .dash := by
    simpa [PrefixForm.kinds] using Table.standard_prefixForm_iff.1 registered
  apply Outcome.Meets.bind_reads standard
    (.advance_reads standard (Table.standard_prefixForm_kind registered).1)
  intro operator parser standard
  apply Outcome.Meets.bind_pure_reads (sound.expression .unary (by decide) parser standard)
  rintro operand tokens last ⟨⟨nesting, derivation⟩, follows⟩ _ ⟨rfl, rfl⟩
  refine ⟨.unary, ⟨_, .unary operates derivation⟩, ?_, Nat.le_of_not_lt follows⟩
  cases power <;> simp_all [Level.above, Level.rank, Power.lt_iff, Power.rank]

theorem group (sound : Sound inner) (standard : parser.Standard)
    (opens : parser.current.kind = .openParen) :
    (Routine.group inner parser).Meets parser
      (.reads (fun tree tokens _ => derived (.expression .primary) tree tokens) parser) := by
  apply Outcome.Meets.bind_reads standard (.advance_reads standard (by simp [opens]))
  intro opening parser standard
  apply Outcome.Meets.bind_reads standard (sound.value standard)
  intro value parser standard
  apply Outcome.Meets.bind_pure_reads (.expect_reads standard (by decide))
  rintro closing _ _ ⟨rfl, closes⟩ inside ⟨nesting, derivation⟩ _ ⟨rfl, rfl⟩
  exact ⟨_, .group opens derivation closes⟩

theorem conditional (sound : Sound inner) (standard : parser.Standard)
    (starts : parser.current.kind = .ifKeyword) :
    (Routine.conditional inner parser).Meets parser
      (.reads (fun tree tokens _ => derived (.expression .primary) tree tokens) parser) := by
  apply Outcome.Meets.bind_reads standard (.advance_reads standard (by simp [starts]))
  intro keyword parser standard
  apply Outcome.Meets.bind_reads standard (.expect_reads standard (by decide))
  intro opening parser standard
  apply Outcome.Meets.bind_reads standard (sound.value standard)
  intro condition parser standard
  apply Outcome.Meets.bind_reads standard (.expect_reads standard (by decide))
  intro closing parser standard
  apply Outcome.Meets.bind_reads standard (sound.block parser standard)
  intro consequence parser standard
  apply Outcome.Meets.bind_reads standard (.skip_reads standard (by decide))
  intro otherwise parser standard
  cases otherwise with
  | true =>
      apply Outcome.Meets.bind_pure_reads (sound.block parser standard)
      rintro alternative _ _ ⟨_, other⟩ _ ⟨separator, rfl, separates⟩ _ ⟨_, block⟩ _
        ⟨rfl, closes⟩ _ ⟨_, value⟩ _ ⟨rfl, opens⟩ _ ⟨rfl, rfl⟩
      exact ⟨_, .alternative starts opens value closes block separates other⟩
  | false =>
      apply Outcome.Meets.pure_reads
      rintro _ ⟨rfl, _⟩ tokens ⟨_, block⟩ _ ⟨rfl, closes⟩ _ ⟨_, value⟩ _ ⟨rfl, opens⟩ _ ⟨rfl, rfl⟩
      rw [List.append_nil, List.append_nil]
      exact ⟨_, .conditional starts opens value closes block⟩

theorem function (sound : Sound inner) (standard : parser.Standard)
    (starts : parser.current.kind = .functionKeyword) :
    (Routine.function inner parser).Meets parser
      (.reads (fun tree tokens _ => derived (.expression .primary) tree tokens) parser) := by
  apply Outcome.Meets.bind_reads standard (.advance_reads standard (by simp [starts]))
  intro keyword parser standard
  apply Outcome.Meets.bind_reads standard (.expect_reads standard (by decide))
  intro opening parser standard
  refine .bind_reads standard (Routine.enclosed_reads (fun names tokens => Names tokens names)
    (fun names tokens => Parameters tokens names) standard
    (fun _ standard => (Routine.identifier_reads standard).mono_reads fun _ _ _ kept => kept)
    ?_ ?_ .none fun _ _ => .some) ?_
  · intro _ _ read
    obtain ⟨token, rfl, isName, rfl⟩ := read
    exact .one isName
  · intro _ _ comma names tokens read separates others
    obtain ⟨token, rfl, isName, rfl⟩ := read
    exact .more isName separates others
  · intro parameters parser standard
    apply Outcome.Meets.bind_pure_reads (sound.block parser standard)
    rintro body tokens _ ⟨_, block⟩ _ ⟨inside, closing, rfl, closes, parameters⟩ _ ⟨rfl, opens⟩ _
      ⟨rfl, rfl⟩
    rw [List.append_assoc]
    exact ⟨_, .function starts opens parameters closes block⟩

/-- What was complete as an operand of the current token goes on with what was consumed. -/
def extensionRead (power : Power) (left : Expr) (current : Token) (tree : Expr)
    (tokens : List Token) (last : Token) : Prop :=
  ∀ before, operandRead power left before current → operandRead power tree (before ++ tokens) last

theorem binary {power operatorPower : Power} {left : Expr} (sound : Sound inner)
    (standard : parser.Standard)
    (rule : Table.standard.infixRule parser.current.kind = some ⟨operatorPower, .binary⟩)
    (tighter : power < operatorPower) :
    (Routine.binary inner left operatorPower parser).Meets parser
      (.reads (extensionRead power left parser.current) parser) := by
  obtain ⟨level, operates, next, bound, loose⟩ := Level.of_binary rule
  have same : Table.standard.power parser.current.kind = operatorPower := by
    simp [Table.power, rule]
  apply Outcome.Meets.bind_reads standard
    (.advance_reads standard (Table.standard_infixRule_kind rule).1)
  intro operator after standard
  apply Outcome.Meets.bind_pure_reads
    (sound.expression operatorPower (Nat.lt_trans loose (by decide)) after standard)
  rintro right tokens last ⟨⟨_, derivation⟩, follows⟩ _ ⟨rfl, rfl⟩ before
    ⟨tight, ⟨_, operand⟩, _, complete⟩
  rw [same] at complete
  have operand := operand.loosen (Level.rank_le_of_bound bound loose complete)
  refine ⟨level, ⟨_, .binary next operates operand derivation⟩, ?_, ?_⟩
  · exact Level.above_rank_le (by rwa [bound])
  · rw [bound]
    exact Nat.le_of_not_lt follows

theorem call {power operatorPower : Power} {left : Expr} (sound : Sound inner)
    (standard : parser.Standard)
    (rule : Table.standard.infixRule parser.current.kind = some ⟨operatorPower, .call⟩)
    (tighter : power < operatorPower) :
    (Routine.call inner left parser).Meets parser
      (.reads (extensionRead power left parser.current) parser) := by
  obtain ⟨opens, rfl⟩ := Level.of_call rule
  have same : Table.standard.power parser.current.kind = .call := by
    simp [Table.power, rule]
  apply Outcome.Meets.bind_reads standard (.advance_reads standard (by simp [opens]))
  intro opening after standard
  refine .bind_pure_reads (Routine.enclosed_reads (derived .items) (derived .arguments) standard
    (fun _ standard => sound.value standard) ?_ ?_ ⟨_, .noArguments⟩ ?_) ?_
  · intro tree tokens read
    obtain ⟨_, value⟩ := read
    exact ⟨_, .lastItem value⟩
  · rintro tree tokens comma trees others ⟨_, value⟩ separates ⟨_, rest⟩
    exact ⟨_, .item value separates rest⟩
  · intro trees tokens read
    obtain ⟨_, items⟩ := read
    exact ⟨_, .someArguments items⟩
  · rintro trees _ last ⟨inside, closing, rfl, closes, _, arguments⟩ _ ⟨rfl, rfl⟩ before
      ⟨tight, ⟨_, callee⟩, _, complete⟩
    rw [same] at complete
    have callee := callee.loosen (Level.call_rank_le complete)
    refine ⟨.call, ⟨_, .call callee opens arguments closes⟩, Level.above_rank_le tighter, ?_⟩
    cases Table.standard.power last.kind <;> decide

theorem leading {power : Power} (loose : power < .call) (sound : Sound inner)
    (standard : parser.Standard) :
    (Routine.leading inner parser).Meets parser (.reads (operandRead power) parser) := by
  rw [Routine.leading_apply, standard.table]
  cases registered : Table.standard.prefixForm parser.current.kind with
  | none => exact .fail_reads
  | some form =>
      have primary : ∀ {outcome : Outcome Expr}, outcome.Meets parser
          (.reads (fun tree tokens _ => derived (.expression .primary) tree tokens) parser) →
          outcome.Meets parser (.reads (operandRead power) parser) :=
        fun met => met.mono_reads fun _ _ _ => operandRead_primary
      have starts := Table.standard_prefixForm_iff.1 registered
      cases form with
      | atom => exact primary (atom standard registered)
      | unary => exact unary loose sound standard registered
      | group => exact primary (group sound standard (List.mem_singleton.1 starts))
      | conditional => exact primary (conditional sound standard (List.mem_singleton.1 starts))
      | function => exact primary (function sound standard (List.mem_singleton.1 starts))

/-- A round takes an operator that binds tightly enough, or leaves the expression as it is. -/
def continuedRead (power : Power) (left : Expr) (current : Token) :
    Round Expr Expr → List Token → Token → Prop
  | .again tree, tokens, last => extensionRead power left current tree tokens last
  | .done tree, tokens, last =>
      tree = left ∧ tokens = [] ∧ ¬ power < Table.standard.power last.kind

theorem continued {power : Power} {left : Expr} (sound : Sound inner)
    (standard : parser.Standard) :
    (Routine.continued inner power left parser).Meets parser
      (.reads (continuedRead power left parser.current) parser) := by
  rw [Routine.continued_apply, standard.table]
  cases registered : Table.standard.infixRule parser.current.kind with
  | none =>
      refine .pure_reads ⟨rfl, rfl, ?_⟩
      simp [Table.power, registered, Power.lt_iff, Power.rank]
  | some rule =>
      dsimp only
      split
      · rename_i tighter
        obtain ⟨operatorPower, form⟩ := rule
        have extension : (form.read inner left operatorPower parser).Meets parser
            (.reads (extensionRead power left parser.current) parser) := by
          cases form with
          | binary => exact binary sound standard registered tighter
          | call => exact call sound standard registered tighter
        exact extension.bind_pure_reads fun _ _ _ kept => kept
      · rename_i looser
        refine .pure_reads ⟨rfl, rfl, ?_⟩
        simpa [Table.power, registered] using looser

/-- An operand is continued until no operator binds tightly enough. -/
theorem expressionBody {power : Power} (loose : power < .call) (sound : Sound inner)
    (standard : parser.Standard) :
    (Routine.expressionBody inner power parser).Meets parser
      (.reads (expressionRead power) parser) := by
  apply (leading loose sound standard).bind (fun _ _ _ _ => trivial) (fun _ => trivial)
  intro first count found read
  refine .iterate (fun left more others => Clean (found ++ others) →
    operandRead power left (parser.taken (count + more)) (parser.token (count + more))) ?_
    (fun clean => read (by simpa using clean))
  intro left more others operand
  refine (continued sound standard.beyond.beyond).mono ?_ (fun _ _ _ _ => trivial)
    (fun _ => trivial)
  intro decision further rest kept
  have consumed : parser.taken (count + (more + further)) = parser.taken (count + more) ++
      ((parser.beyond count found).beyond more others).taken further := by
    rw [← Nat.add_assoc, Parser.beyond_beyond, ← Parser.taken_add]
  cases decision with
  | again next =>
      refine ⟨.inr trivial, fun _ => ?_⟩
      intro clean
      rw [← List.append_assoc, Clean.append_iff] at clean
      rw [consumed]
      simpa [Nat.add_assoc] using kept clean.2 _ (by simpa using operand clean.1)
  | done tree =>
      intro clean
      rw [← List.append_assoc, Clean.append_iff] at clean
      obtain ⟨level, ⟨_, derivation⟩, tight, _⟩ := operand clean.1
      obtain ⟨rfl, nothing, ends⟩ := kept clean.2
      rw [consumed, nothing, List.append_nil]
      exact ⟨⟨_, derivation.loosen tight⟩, by simpa [Nat.add_assoc] using ends⟩

end Sound

/-- A construct with a semicolon after it, or without one and not continued by what follows. -/
def terminated (promise : List Token → Prop) (tokens : List Token) (last : Token) : Prop :=
  (∃ body semicolon, tokens = body ++ [semicolon] ∧ semicolon.kind = .semicolon ∧ promise body) ∨
    promise tokens ∧ ¬ continuesStatement last.kind

theorem terminated.prepend {promise whole : List Token → Prop} (before : List Token)
    {tokens : List Token} {last : Token} (ends : terminated promise tokens last)
    (joins : ∀ body, promise body → whole (before ++ body)) :
    terminated whole (before ++ tokens) last := by
  rcases ends with ⟨body, semicolon, rfl, closes, kept⟩ | ⟨kept, separate⟩
  · exact .inl ⟨before ++ body, semicolon, by simp, closes, joins _ kept⟩
  · exact .inr ⟨joins _ kept, separate⟩

def statementRead (tree : Statement) (tokens : List Token) (last : Token) : Prop :=
  terminated (derived .statement tree) tokens last

namespace Sound

open Outcome

variable {inner : Nested} {parser : Parser}

theorem not_continuesStatement {kind : Kind}
    (loose : ¬ Power.lowest < Table.standard.power kind) : ¬ continuesStatement kind := by
  rintro (rfl | rfl) <;> exact loose (by decide)

theorem ending (sound : Sound inner) (standard : parser.Standard) :
    (Routine.ending inner parser).Meets parser
      (.reads (fun tree => terminated (derived (.expression .equality) tree)) parser) := by
  apply Outcome.Meets.bind_reads standard (sound.expression .lowest (by decide) parser standard)
  intro value parser standard
  apply Outcome.Meets.bind_pure_reads (.skip_reads standard (by decide))
  intro skipped tokens last shape body read
  obtain ⟨derivation, follows⟩ := read
  cases skipped with
  | true =>
      obtain ⟨semicolon, rfl, closes⟩ := shape
      exact .inl ⟨body, semicolon, rfl, closes, derivation⟩
  | false =>
      obtain ⟨rfl, rfl, _⟩ := shape
      rw [List.append_nil]
      exact .inr ⟨derivation, not_continuesStatement follows⟩

theorem expressionStatement (sound : Sound inner) (standard : parser.Standard) :
    (Routine.expressionStatement inner parser).Meets parser (.reads statementRead parser) := by
  rw [Routine.expressionStatement_apply]
  apply Outcome.Meets.bind_pure_reads (ending sound standard).with_head
  intro value tokens last read
  obtain ⟨ends, head⟩ := read
  have starts : ∀ body, derived (.expression .equality) value body →
      (∀ first ∈ body.head?, first = parser.current) →
      derived .statement (.expression parser.current value) body := by
    intro body read first
    obtain ⟨_, derivation⟩ := read
    obtain ⟨token, rest, rfl, _⟩ := derivation.starts
    obtain rfl := first token rfl
    exact ⟨_, .expression derivation⟩
  rcases ends with ⟨body, semicolon, rfl, closes, kept⟩ | ⟨kept, separate⟩
  · refine .inl ⟨body, semicolon, rfl, closes, starts body kept ?_⟩
    obtain ⟨_, derivation⟩ := kept
    obtain ⟨token, rest, rfl, _⟩ := derivation.starts
    simpa using head
  · exact .inr ⟨starts tokens kept head, separate⟩

theorem binding (sound : Sound inner) (standard : parser.Standard)
    (starts : parser.current.kind = .letKeyword) :
    (Routine.binding inner parser).Meets parser (.reads statementRead parser) := by
  apply Outcome.Meets.bind_reads standard (.advance_reads standard (by simp [starts]))
  intro keyword parser standard
  apply Outcome.Meets.bind_reads standard (Routine.identifier_reads standard)
  intro name parser standard
  apply Outcome.Meets.bind_reads standard (.expect_reads standard (by decide))
  intro sign parser standard
  apply Outcome.Meets.bind_pure_reads (ending sound standard)
  rintro value tokens last ends _ ⟨rfl, binds⟩ _ ⟨token, rfl, isName, rfl⟩ _ ⟨rfl, rfl⟩
  apply ends.prepend [_, _, _]
  intro body read
  obtain ⟨_, derivation⟩ := read
  exact ⟨_, .binding starts isName binds derivation⟩

theorem result (sound : Sound inner) (standard : parser.Standard)
    (starts : parser.current.kind = .returnKeyword) :
    (Routine.result inner parser).Meets parser (.reads statementRead parser) := by
  apply Outcome.Meets.bind_reads standard (.advance_reads standard (by simp [starts]))
  intro keyword parser standard
  apply Outcome.Meets.bind_pure_reads (ending sound standard)
  intro value tokens last ends _ read
  obtain ⟨rfl, rfl⟩ := read
  apply ends.prepend [_]
  intro body read
  obtain ⟨_, derivation⟩ := read
  exact ⟨_, .result starts derivation⟩

theorem statementBody (sound : Sound inner) (standard : parser.Standard) :
    (Routine.statementBody inner parser).Meets parser (.reads statementRead parser) := by
  rw [Routine.statementBody_apply, standard.table]
  cases registered : Table.standard.statementForm parser.current.kind with
  | none => exact expressionStatement sound standard
  | some form =>
      have starts := Table.standard_statementForm_iff.1 registered
      cases form with
      | binding => exact binding sound standard (List.mem_singleton.1 starts)
      | result => exact result sound standard (List.mem_singleton.1 starts)
      | expression => exact expressionStatement sound standard

theorem recovering {statement : Routine Statement}
    {promise : Statement → List Token → Token → Prop}
    (proper : (statement parser).Meets parser (.proper (fun _ tokens => tokens ≠ []) parser))
    (reads : (statement parser).Meets parser (.reads promise parser)) :
    (Routine.recovering statement parser).Meets parser (.reads (fun result tokens last =>
      ∃ tree, result = some tree ∧ promise tree tokens last) parser) := by
  refine (proper.and reads).recovering ?_ ?_ (fun _ => trivial)
  · intro tree count found kept clean
    exact ⟨tree, rfl, kept.2 clean⟩
  · intro diagnostic count found kept clean
    exact absurd (clean diagnostic (by simp)) kept.1.2.cause

/-- What a round of reading statements does: one more statement, or the end. -/
def statementsRead (ends : Kind → Bool) (statements : Array Statement) :
    Round (Array Statement) (List Statement) → List Token → Token → Prop
  | .again next, tokens, last =>
      ∃ tree, next = statements.push tree ∧ statementRead tree tokens last
  | .done result, tokens, last => result = statements.toList ∧ tokens = [] ∧ ends last.kind = true

theorem statementsRound {ends : Kind → Bool} {statements : Array Statement} (sound : Sound inner)
    (proper : inner.Proper) (standard : parser.Standard) :
    (Routine.statementsRound ends (Routine.statementBody inner) statements parser).Meets parser
      (.reads (statementsRead ends statements) parser) := by
  unfold Routine.statementsRound
  split
  · rename_i finished
    exact .pure_reads ⟨rfl, rfl, finished⟩
  · rename_i goesOn
    apply Outcome.Meets.bind_reads standard
      (recovering (Routine.statementBody_proper proper standard) (statementBody sound standard))
    intro result parser standard
    cases result with
    | none =>
        apply Outcome.Meets.pure_reads
        intro _ read
        obtain ⟨_, impossible, _⟩ := read
        cases impossible
    | some tree =>
        apply Outcome.Meets.pure_reads
        intro tokens read
        obtain ⟨_, same, read⟩ := read
        cases same
        exact ⟨tree, rfl, by rwa [List.append_nil]⟩

theorem derived_cons {tree : Statement} {trees : List Statement} {tokens rest : List Token}
    {last : Token} (read : statementRead tree tokens last) (others : derived .statements trees rest)
    (follows : ∀ next ∈ rest.head?, next = last) :
    derived .statements (tree :: trees) (tokens ++ rest) := by
  obtain ⟨_, others⟩ := others
  rcases read with ⟨body, semicolon, rfl, closes, _, statement⟩ | ⟨⟨_, statement⟩, separate⟩
  · rw [List.append_assoc]
    exact ⟨_, .closed statement closes others⟩
  · refine ⟨_, .unclosed statement ?_ others⟩
    intro next member
    rwa [follows next member]

theorem statementRead_ne_nil {tree : Statement} {tokens : List Token} {last : Token}
    (read : statementRead tree tokens last) : tokens ≠ [] := by
  rcases read with ⟨body, semicolon, rfl, _⟩ | ⟨⟨_, statement⟩, _⟩
  · simp
  · obtain ⟨first, rest, rfl, _⟩ := statement.starts
    simp

theorem statementsUntil {ends : Kind → Bool} (sound : Sound inner) (proper : inner.Proper)
    (standard : parser.Standard) :
    (Routine.statementsUntil ends (Routine.statementBody inner) parser).Meets parser
      (.reads (fun trees tokens last =>
        derived .statements trees tokens ∧ ends last.kind = true) parser) := by
  rw [Routine.statementsUntil_eq]
  -- Whatever statements start at the current token, those read so far can be put before them.
  refine .iterate (fun statements count found => Clean found → ∀ trees rest,
    derived .statements trees rest → (∀ first ∈ rest.head?, first = parser.token count) →
      derived .statements (statements.toList ++ trees) (parser.taken count ++ rest)) ?_
    (fun _ _ _ rest _ => by simpa using rest)
  intro statements count found invariant
  refine (statementsRound sound proper standard.beyond).with_head.mono ?_
    (fun _ _ _ _ => trivial) (fun _ => trivial)
  intro decision more others kept
  cases decision with
  | again next =>
      refine ⟨.inr trivial, fun _ => ?_⟩
      intro clean trees rest derivation follows
      obtain ⟨foundClean, othersClean⟩ := Clean.append_iff.1 clean
      obtain ⟨⟨tree, rfl, read⟩, head⟩ := kept othersClean
      have joined := derived_cons read derivation (by simpa using follows)
      rw [Parser.taken_add found, List.append_assoc, Array.toList_push,
        List.append_assoc]
      apply invariant foundClean _ _ joined
      intro first member
      obtain ⟨token, after, consumed⟩ := List.exists_cons_of_ne_nil (statementRead_ne_nil read)
      rw [consumed] at head member
      obtain rfl : token = first := by simpa using member
      simpa using head token rfl
  | done result =>
      intro clean
      obtain ⟨foundClean, othersClean⟩ := Clean.append_iff.1 clean
      obtain ⟨⟨rfl, nothing, finished⟩, _⟩ := kept othersClean
      have whole := invariant foundClean [] [] ⟨0, .noStatements⟩ (by simp)
      rw [Parser.taken_add found, nothing]
      exact ⟨by simpa using whole, by simpa using finished⟩

theorem blockBody (sound : Sound inner) (proper : inner.Proper) (standard : parser.Standard) :
    (Routine.blockBody inner parser).Meets parser
      (.reads (fun tree tokens _ => derived .block tree tokens) parser) := by
  apply Outcome.Meets.bind_reads standard (.expect_reads standard (by decide))
  intro opening parser standard
  apply Outcome.Meets.bind_reads standard (statementsUntil sound proper standard)
  intro statements parser standard
  apply Outcome.Meets.bind_pure_reads (.expect_reads standard (by decide))
  rintro closing _ _ ⟨rfl, closes⟩ inside ⟨⟨_, body⟩, _⟩ _ ⟨rfl, opens⟩
  exact ⟨_, .block opens body closes⟩

theorem levels (count : Nat) : Sound (Routine.levels count) := by
  induction count with
  | zero => exact ⟨fun _ _ _ _ => .fail_reads, fun _ _ => .fail_reads⟩
  | succ count ih =>
      refine ⟨?_, ?_⟩
      · intro power loose parser standard
        exact .nested_reads standard fun _ standard => expressionBody loose ih standard
      · intro parser standard
        exact .nested_reads standard fun _ standard =>
          blockBody ih (Routine.levels_proper count) standard

theorem programBody (sound : Sound inner) (proper : inner.Proper) (standard : parser.Standard) :
    (Routine.programBody inner parser).Meets parser (.reads (fun program tokens last =>
      derived .statements program.statements tokens ∧ last.kind = .endOfInput) parser) := by
  apply Outcome.Meets.bind_pure_reads (statementsUntil sound proper standard)
  intro statements tokens last read
  obtain ⟨derivation, finished⟩ := read
  exact ⟨derivation, by simpa using finished⟩

end Sound

/-- Every source is parsed, and unless more is wrong with it than the size of integers, its
tokens can be derived, all of them, and the program is what they stand for. -/
theorem parse_derived (source : String) (file : Option String) :
    ∃ program after, parse source file = .ok program after ∧
      ((∀ diagnostic ∈ after.diagnostics, diagnostic.IsOutOfRange) →
        derived .program program (tokenize source file)) := by
  have standard := Parser.ofSource_standard source file
  have met := (parse_certain source file).and
    (Sound.programBody (Sound.levels _) (Routine.levels_proper _) standard)
  generalize parse source file = outcome at met ⊢
  cases met with
  | @ok program count found kept =>
      refine ⟨program, _, rfl, ?_⟩
      intro clean
      obtain ⟨⟨_, derivation⟩, finished⟩ := kept.2 fun diagnostic member =>
        clean diagnostic (Array.mem_def.2 (by simp [member]))
      rw [standard.taken_of_finished finished] at derivation
      rw [Parser.tokenize_eq]
      exact ⟨_, .program derivation standard.finish⟩
  | failed impossible => exact impossible.1.elim
  | endless impossible => exact impossible.1.elim

theorem parse_derived_call : ∃ program, derived .program program (tokenize "f(1) - 2" none) := by
  obtain ⟨program, after, parsed, reads⟩ := parse_derived "f(1) - 2" none
  have silent : (match parse "f(1) - 2" none with
      | .ok _ after => after.diagnostics.isEmpty
      | _ => false) = true := by decide +kernel
  rw [parsed] at silent
  refine ⟨program, reads ?_⟩
  intro diagnostic member
  rw [Array.isEmpty_iff.1 silent] at member
  simp at member

end Monkey.Grammar
