import Monkey.Proofs.Grammar.Completeness
import Monkey.Proofs.Parser.Overflow
import Monkey.Proofs.Token.Spelling
import Monkey.Tree.Rendering

namespace Monkey.Grammar

/-! What can be derived only with more levels than there are is refused.

Everything before the level that is one too many is read as the grammar has it, so that
nothing else is found wrong first.
-/

open Routine

/-- What the parser does on the tokens of a derivation with too few levels. -/
def Refused : Symbol → List Token → Nat → Prop
  | .expression level, tokens, nesting =>
      ∀ (count : Nat) (power : Power) (parser : Parser), parser.Facing count tokens →
        count < nesting → (Level.above power).rank ≤ level.rank → power < .call →
        (expressionBody (levels count) power parser).Meets parser .exceeds
  | .items, tokens, nesting =>
      ∀ (count : Nat) (items : Array Expr) (parser : Parser), parser.Facing count tokens →
        count < nesting →
        (iterate (separatedRound ((levels count).expression .lowest)) items parser).Meets parser
          .exceeds
  | .arguments, tokens, nesting =>
      ∀ (count : Nat) (parser : Parser), parser.Facing count tokens → count < nesting →
        (enclosed ((levels count).expression .lowest) parser).Meets parser .exceeds
  | .block, tokens, nesting =>
      ∀ (count : Nat) (parser : Parser), parser.Facing count tokens → count < nesting →
        ((levels count).block parser).Meets parser .exceeds
  | .statement, tokens, nesting =>
      ∀ (count : Nat) (parser : Parser), parser.Facing count tokens → count < nesting →
        (statementBody (levels count) parser).Meets parser .exceeds
  | .statements, tokens, nesting =>
      ∀ (count : Nat) (ends : Kind → Bool) (statements : Array Statement) (parser : Parser),
        parser.Facing count tokens → count < nesting →
        (∀ kind, ends kind = true → kind = .closeCurly ∨ kind = .endOfInput) →
        ends .endOfInput = true → ends (parser.past tokens).current.kind = true →
        (iterate (statementsRound ends (statementBody (levels count))) statements parser).Meets
          parser .exceeds
  | .program, _, _ => True

namespace Refused

open Outcome

variable {parser after : Parser} {count nesting : Nat} {power : Power} {tokens : List Token}
  {tree : Expr} {inner : Nested}

theorem expressionBody_exceeds (proper : inner.Proper) (standard : parser.Standard)
    (refused : (leading inner parser).Meets parser .exceeds) :
    (expressionBody inner power parser).Meets parser .exceeds :=
  .bind_exceeds standard refused fun _ _ standard =>
    .iterate_mild standard fun _ _ standard => (continued_proper proper standard).mild

theorem continued_exceeds (rule : InfixRule) {left : Expr} (proper : inner.Proper)
    (standard : parser.Standard)
    (registered : Table.standard.infixRule parser.current.kind = some rule)
    (tighter : power < rule.power)
    (refused : (rule.form.read inner left rule.power parser).Meets parser .exceeds) :
    (iterate (continued inner power) left parser).Meets parser .exceeds := by
  refine .iterate_exceeds standard ?_ fun _ _ standard => (continued_proper proper standard).mild
  rw [continued_apply, standard.table, registered]
  dsimp only
  rw [if_pos tighter]
  exact .bind_pure_exceeds standard refused

theorem value {level : Level} (refused : Refused (.expression level) tokens nesting)
    (facing : parser.Facing count tokens) (deep : count < nesting + 1)
    (admitted : (Level.above power).rank ≤ level.rank) (loose : power < .call) :
    ((levels count).expression power parser).Meets parser .exceeds := by
  cases count with
  | zero => exact .tooDeep
  | succ less =>
      exact .nested_exceeds
        (refused less power _ facing.inside (Nat.lt_of_succ_lt_succ deep) admitted loose)

theorem whole (refused : Refused (.expression .equality) tokens nesting)
    (facing : parser.Facing count tokens) (deep : count < nesting + 1) :
    ((levels count).expression .lowest parser).Meets parser .exceeds :=
  refused.value facing deep (by decide) (by decide)

section Expressions

variable {level tight : Level} {operator opening closing keyword token : Token}
  {leftTokens rightTokens conditionTokens otherTokens : List Token} {block : Block}
  {leftTree conditionTree : Expr} {leftNesting rightNesting conditionNesting otherNesting : Nat}

theorem tighter (step : level.next? = some tight)
    (operand : Refused (.expression tight) tokens nesting) :
    Refused (.expression level) tokens nesting := by
  intro count power parser facing deep admitted loose
  refine operand count power parser facing deep ?_ loose
  exact Nat.le_trans admitted (by rw [Level.next?_eq_some_iff.1 step]; exact Nat.le_succ _)

/-- Either the left operand is refused, or it is read and the right one is refused. -/
theorem binary (step : level.next? = some tight) (operates : operator.kind ∈ level.operators)
    (leftAccepted : Accepted (.expression level) leftTokens leftTree leftNesting)
    (left : Refused (.expression level) leftTokens leftNesting)
    (right : Refused (.expression tight) rightTokens rightNesting) :
    Refused (.expression level) (leftTokens ++ operator :: rightTokens)
      (max leftNesting (rightNesting + 1)) := by
  intro count power parser facing deep admitted loose
  by_cases leftDeep : count < leftNesting
  · exact left count power parser facing.left leftDeep admitted loose
  · obtain ⟨registered, rfl, low⟩ := Level.rule_of_operates operates step
    have after := facing.past
    have plain : operator.kind ≠ .integer := by
      intro same
      simp [same, Table.standard] at registered
    rw [leftAccepted count power parser facing.left (by omega) admitted loose
      (by rw [after.current]; exact .of_infixRule registered)]
    refine .of_past leftTokens (continued_exceeds ⟨level.bound, .binary⟩
      (levels_proper count) after.standard (by rw [after.current, registered])
      (Level.lt_bound operates admitted) ?_)
    apply Outcome.Meets.after_exceeds [operator] (advance_eq after plain)
    exact .bind_pure_exceeds after.tail.standard
      (right.value after.tail (by omega) (Nat.le_refl _) (Nat.lt_trans low (by decide)))

theorem unary (operates : operator.kind = .not ∨ operator.kind = .dash)
    (operand : Refused (.expression .unary) tokens nesting) :
    Refused (.expression .unary) (operator :: tokens) (nesting + 1) := by
  intro count power parser facing deep admitted loose
  have registered : Table.standard.prefixForm operator.kind = some .unary :=
    Table.standard_prefixForm_iff.2 (by simpa [PrefixForm.kinds] using operates)
  have plain : operator.kind ≠ .integer := by
    rcases operates with isNot | isDash <;> simp_all
  apply expressionBody_exceeds (levels_proper count) facing.standard
  rw [Accepted.leading_eq .unary facing.standard (by rw [facing.current, registered])]
  apply Outcome.Meets.after_exceeds [operator] (advance_eq facing plain)
  exact .bind_pure_exceeds facing.tail.standard
    (operand.value facing.tail deep (by decide) (by decide))

theorem group (opens : opening.kind = .openParen)
    (inside : Refused (.expression .equality) tokens nesting) :
    Refused (.expression .primary) (opening :: (tokens ++ [closing])) (nesting + 1) := by
  intro count power parser facing deep admitted loose
  apply expressionBody_exceeds (levels_proper count) facing.standard
  rw [Accepted.leading_eq .group facing.standard (by rw [facing.current, opens]; rfl)]
  apply Outcome.Meets.after_exceeds [opening] (advance_eq facing (by simp [opens]))
  exact .bind_exceeds facing.tail.standard (inside.whole facing.tail.left deep)
    fun _ _ standard => .bind_mild standard (.expect_proper standard (by decide))
      fun _ _ _ => .pure_mild

theorem alternative_mild {condition : Expr} {consequence : Block} (proper : inner.Proper)
    (standard : parser.Standard) :
    ((do
      if ← skip .elseKeyword then
        let alternative ← inner.block
        return Expr.conditional keyword condition consequence (some alternative)
      else
        return Expr.conditional keyword condition consequence none : Routine Expr) parser).Meets
      parser .mild := by
  apply Outcome.Meets.bind_mild standard (.skip_proper standard (by decide))
  intro skipped parser standard
  cases skipped with
  | true => exact .bind_mild standard (proper.block _ standard) fun _ _ _ => .pure_mild
  | false => exact .pure_mild

theorem conditional_of_condition (starts : keyword.kind = .ifKeyword)
    (opens : opening.kind = .openParen)
    (refused : Refused (.expression .equality) conditionTokens conditionNesting)
    (facing : parser.Facing count (keyword :: opening :: (conditionTokens ++ otherTokens)))
    (deep : count < conditionNesting + 1) :
    (Routine.conditional (levels count) parser).Meets parser .exceeds := by
  apply Outcome.Meets.after_exceeds [keyword] (advance_eq facing (by simp [starts]))
  apply Outcome.Meets.after_exceeds [opening] (expect_eq facing.tail opens (by decide))
  exact .bind_exceeds facing.tail.tail.standard (refused.whole facing.tail.tail.left deep)
    fun _ _ standard => .bind_mild standard (.expect_proper standard (by decide))
      fun _ _ standard => .bind_mild standard ((levels_proper count).block _ standard)
        fun _ _ standard => alternative_mild (levels_proper count) standard

theorem conditional_of_consequence (starts : keyword.kind = .ifKeyword)
    (opens : opening.kind = .openParen)
    (condition : Accepted (.expression .equality) conditionTokens conditionTree conditionNesting)
    (fits : conditionNesting < count) (closes : closing.kind = .closeParen)
    (refused : Refused .block tokens nesting)
    (facing : parser.Facing count
      (keyword :: opening :: (conditionTokens ++ closing :: (tokens ++ otherTokens))))
    (deep : count < nesting) :
    (Routine.conditional (levels count) parser).Meets parser .exceeds := by
  have after := facing.tail.tail.past
  have boundary :
      Ends (((parser.pass keyword).pass opening).past conditionTokens).current.kind := by
    rw [after.current, closes]
    exact .closeParen
  apply Outcome.Meets.after_exceeds [keyword] (advance_eq facing (by simp [starts]))
  apply Outcome.Meets.after_exceeds [opening] (expect_eq facing.tail opens (by decide))
  apply Outcome.Meets.after_exceeds conditionTokens
    (condition.whole facing.tail.tail.left fits boundary)
  apply Outcome.Meets.after_exceeds [closing] (expect_eq after closes (by decide))
  exact .bind_exceeds after.tail.standard (refused _ _ after.tail.left deep)
    fun _ _ standard => alternative_mild (levels_proper count) standard

theorem conditional_of_alternative (starts : keyword.kind = .ifKeyword)
    (opens : opening.kind = .openParen)
    (condition : Accepted (.expression .equality) conditionTokens conditionTree conditionNesting)
    (conditionFits : conditionNesting < count) (closes : closing.kind = .closeParen)
    (consequence : Accepted .block tokens block nesting) (fits : nesting ≤ count)
    (otherwise : token.kind = .elseKeyword) (refused : Refused .block otherTokens otherNesting)
    (facing : parser.Facing count
      (keyword :: opening :: (conditionTokens ++ closing :: (tokens ++ token :: otherTokens))))
    (deep : count < otherNesting) :
    (Routine.conditional (levels count) parser).Meets parser .exceeds := by
  have after := facing.tail.tail.past
  have separated := after.tail.past
  have boundary :
      Ends (((parser.pass keyword).pass opening).past conditionTokens).current.kind := by
    rw [after.current, closes]
    exact .closeParen
  apply Outcome.Meets.after_exceeds [keyword] (advance_eq facing (by simp [starts]))
  apply Outcome.Meets.after_exceeds [opening] (expect_eq facing.tail opens (by decide))
  apply Outcome.Meets.after_exceeds conditionTokens
    (condition.whole facing.tail.tail.left conditionFits boundary)
  apply Outcome.Meets.after_exceeds [closing] (expect_eq after closes (by decide))
  apply Outcome.Meets.after_exceeds tokens (consequence _ _ after.tail.left fits)
  apply Outcome.Meets.after_exceeds [token] (skip_eq_true separated otherwise (by decide))
  exact .bind_pure_exceeds separated.tail.standard (refused _ _ separated.tail deep)

theorem conditional (starts : keyword.kind = .ifKeyword) (opens : opening.kind = .openParen)
    (conditionAccepted :
      Accepted (.expression .equality) conditionTokens conditionTree conditionNesting)
    (condition : Refused (.expression .equality) conditionTokens conditionNesting)
    (closes : closing.kind = .closeParen) (consequence : Refused .block tokens nesting) :
    Refused (.expression .primary) (keyword :: opening :: (conditionTokens ++ closing :: tokens))
      (max (conditionNesting + 1) nesting) := by
  intro count power parser facing deep admitted loose
  apply expressionBody_exceeds (levels_proper count) facing.standard
  rw [Accepted.leading_eq .conditional facing.standard
    (by rw [facing.current, starts]; rfl)]
  by_cases conditionDeep : count < conditionNesting + 1
  · exact conditional_of_condition starts opens condition facing conditionDeep
  · exact conditional_of_consequence starts opens conditionAccepted (by omega) closes consequence
      (show parser.Facing count (_ :: _ :: (_ ++ _ :: (tokens ++ []))) by simpa using facing)
      (by omega)

theorem alternative (starts : keyword.kind = .ifKeyword) (opens : opening.kind = .openParen)
    (conditionAccepted :
      Accepted (.expression .equality) conditionTokens conditionTree conditionNesting)
    (condition : Refused (.expression .equality) conditionTokens conditionNesting)
    (closes : closing.kind = .closeParen)
    (consequenceAccepted : Accepted .block tokens block nesting)
    (consequence : Refused .block tokens nesting) (otherwise : token.kind = .elseKeyword)
    (alternative : Refused .block otherTokens otherNesting) :
    Refused (.expression .primary)
      (keyword :: opening :: (conditionTokens ++ closing :: (tokens ++ token :: otherTokens)))
      (max (conditionNesting + 1) (max nesting otherNesting)) := by
  intro count power parser facing deep admitted loose
  apply expressionBody_exceeds (levels_proper count) facing.standard
  rw [Accepted.leading_eq .conditional facing.standard
    (by rw [facing.current, starts]; rfl)]
  by_cases conditionDeep : count < conditionNesting + 1
  · exact conditional_of_condition starts opens condition facing conditionDeep
  · by_cases consequenceDeep : count < nesting
    · exact conditional_of_consequence starts opens conditionAccepted (by omega) closes consequence
        facing consequenceDeep
    · exact conditional_of_alternative starts opens conditionAccepted (by omega) closes
        consequenceAccepted (by omega) otherwise alternative facing (by omega)

theorem function {names : List Identifier} (starts : keyword.kind = .functionKeyword)
    (opens : opening.kind = .openParen) (allowed : Parameters conditionTokens names)
    (closes : closing.kind = .closeParen) (body : Refused .block tokens nesting) :
    Refused (.expression .primary) (keyword :: opening :: (conditionTokens ++ closing :: tokens))
      nesting := by
  intro count power parser facing deep admitted loose
  have enclosed : ((parser.pass keyword).pass opening).Facing count
      ((conditionTokens ++ [closing]) ++ tokens) := by
    simpa using facing.tail.tail
  apply expressionBody_exceeds (levels_proper count) facing.standard
  rw [Accepted.leading_eq .function facing.standard (by rw [facing.current, starts]; rfl)]
  apply Outcome.Meets.after_exceeds [keyword] (advance_eq facing (by simp [starts]))
  apply Outcome.Meets.after_exceeds [opening] (expect_eq facing.tail opens (by decide))
  apply Outcome.Meets.after_exceeds (conditionTokens ++ [closing])
    (Accepted.parameters allowed enclosed.left closes)
  exact .bind_pure_exceeds enclosed.past.standard (body _ _ enclosed.past deep)

theorem call (calleeAccepted : Accepted (.expression .call) leftTokens leftTree leftNesting)
    (callee : Refused (.expression .call) leftTokens leftNesting)
    (opens : opening.kind = .openParen) (arguments : Refused .arguments tokens nesting) :
    Refused (.expression .call) (leftTokens ++ opening :: (tokens ++ [closing]))
      (max leftNesting nesting) := by
  intro count power parser facing deep admitted loose
  by_cases leftDeep : count < leftNesting
  · exact callee count power parser facing.left leftDeep admitted loose
  · have after := facing.past
    have registered : Table.standard.infixRule opening.kind = some ⟨.call, .call⟩ := by
      rw [opens]
      rfl
    rw [calleeAccepted count power parser facing.left (by omega) admitted loose
      (by rw [after.current]; exact .of_infixRule registered)]
    refine .of_past leftTokens (continued_exceeds ⟨.call, .call⟩ (levels_proper count)
      after.standard (by rw [after.current, registered]) loose ?_)
    apply Outcome.Meets.after_exceeds [opening] (advance_eq after (by simp [opens]))
    exact .bind_pure_exceeds after.tail.standard (arguments _ _ after.tail.left (by omega))

end Expressions

section Lists

variable {comma : Token} {otherTokens : List Token} {otherNesting : Nat}

theorem lastItem (value : Refused (.expression .equality) tokens nesting) :
    Refused .items tokens (nesting + 1) := by
  intro count items parser facing deep
  refine .iterate_exceeds facing.standard ?_ fun _ _ standard =>
    (separatedRound_proper standard ((levels_proper count).expression _)).mild
  exact .bind_exceeds facing.standard (value.whole facing deep) fun _ _ standard =>
    .bind_mild standard (.skip_proper standard (by decide)) fun skipped _ _ => by
      cases skipped <;> exact .pure_mild

theorem item (valueAccepted : Accepted (.expression .equality) tokens tree nesting)
    (value : Refused (.expression .equality) tokens nesting) (separates : comma.kind = .comma)
    (others : Refused .items otherTokens otherNesting) :
    Refused .items (tokens ++ comma :: otherTokens) (max (nesting + 1) otherNesting) := by
  intro count items parser facing deep
  by_cases valueDeep : count < nesting + 1
  · exact lastItem value count items parser facing.left valueDeep
  · have split : tokens ++ comma :: otherTokens = (tokens ++ [comma]) ++ otherTokens := by simp
    rw [split] at facing
    rw [valueAccepted.item_step facing.left (by omega) separates]
    exact .of_past (tokens ++ [comma]) (others _ _ _ facing.past (by omega))

theorem someArguments (starts : StartsExpression tokens) (items : Refused .items tokens nesting) :
    Refused .arguments tokens nesting := by
  intro count parser facing deep
  rw [enclosed, bind_eq (skip_eq_false (Accepted.not_closes starts facing))]
  simp only [Bool.false_eq_true, if_false]
  rw [separated_eq]
  exact .bind_exceeds facing.standard (items _ #[] _ facing deep) fun _ _ standard =>
    .bind_mild standard (.expect_proper standard (by decide)) fun _ _ _ => .pure_mild

end Lists

section Statements

variable {keyword name sign first opening closing semicolon : Token} {otherTokens : List Token}
  {statement : Statement} {otherNesting : Nat}

theorem ending (value : Refused (.expression .equality) tokens nesting)
    (facing : parser.Facing count tokens) (deep : count < nesting + 1) :
    (Routine.ending (levels count) parser).Meets parser .exceeds :=
  .bind_exceeds facing.standard (value.whole facing deep) fun _ _ standard =>
    .bind_mild standard (.skip_proper standard (by decide)) fun _ _ _ => .pure_mild

theorem binding (starts : keyword.kind = .letKeyword) (isName : name.kind = .identifier)
    (binds : sign.kind = .assignment) (value : Refused (.expression .equality) tokens nesting) :
    Refused .statement (keyword :: name :: sign :: tokens) (nesting + 1) := by
  intro count parser facing deep
  rw [statementBody_apply, facing.standard.table, facing.current, starts]
  apply Outcome.Meets.after_exceeds [keyword] (advance_eq facing (by simp [starts]))
  apply Outcome.Meets.after_exceeds [name] (identifier_eq facing.tail isName)
  apply Outcome.Meets.after_exceeds [sign] (expect_eq facing.tail.tail binds (by decide))
  exact .bind_pure_exceeds facing.tail.tail.tail.standard
    (value.ending facing.tail.tail.tail deep)

theorem result (starts : keyword.kind = .returnKeyword)
    (value : Refused (.expression .equality) tokens nesting) :
    Refused .statement (keyword :: tokens) (nesting + 1) := by
  intro count parser facing deep
  rw [statementBody_apply, facing.standard.table, facing.current, starts]
  apply Outcome.Meets.after_exceeds [keyword] (advance_eq facing (by simp [starts]))
  exact .bind_pure_exceeds facing.tail.standard (value.ending facing.tail deep)

theorem expression (starts : (Table.standard.prefixForm first.kind).isSome)
    (value : Refused (.expression .equality) (first :: tokens) nesting) :
    Refused .statement (first :: tokens) (nesting + 1) := by
  intro count parser facing deep
  have other := Table.standard_statementForm_eq_none starts
  rw [statementBody_apply, facing.standard.table, facing.current, other, expressionStatement_apply]
  exact .bind_pure_exceeds facing.standard (value.ending facing deep)

theorem recovering_exceeds {body : Routine Statement}
    (refused : (body parser).Meets parser .exceeds) :
    (recovering body parser).Meets parser .exceeds :=
  refused.recovering (fun _ _ _ kept => kept) (fun _ _ _ kept => kept) id

theorem firstStatement {ends : Kind → Bool} {statements : Array Statement}
    (refused : Refused .statement tokens nesting) (starts : StartsStatement tokens)
    (facing : parser.Facing count tokens) (deep : count < nesting)
    (few : ∀ kind, ends kind = true → kind = .closeCurly ∨ kind = .endOfInput)
    (finite : ends .endOfInput = true) :
    (iterate (statementsRound ends (statementBody (levels count))) statements parser).Meets
      parser .exceeds := by
  have goesOn := Accepted.not_ends starts facing few
  refine .iterate_exceeds facing.standard ?_ fun _ _ standard =>
    (statementsRound_certain (levels_proper count) finite standard).mild
  unfold statementsRound
  rw [if_neg goesOn]
  apply Outcome.Meets.bind_exceeds facing.standard
    (recovering_exceeds (refused count parser facing deep))
  intro statement parser standard
  cases statement <;> exact .pure_mild

theorem closed (firstAccepted : Accepted .statement tokens statement nesting)
    (first : Refused .statement tokens nesting) (starts : StartsStatement tokens)
    (closes : semicolon.kind = .semicolon) (others : Refused .statements otherTokens otherNesting) :
    Refused .statements (tokens ++ semicolon :: otherTokens) (max nesting otherNesting) := by
  intro count ends statements parser facing deep few finite finished
  by_cases firstDeep : count < nesting
  · exact first.firstStatement starts facing.left firstDeep few finite
  · have split : tokens ++ semicolon :: otherTokens = (tokens ++ [semicolon]) ++ otherTokens := by
      simp
    rw [split, Parser.past_append] at finished
    rw [split] at facing
    rw [firstAccepted.closed_step starts facing.left (by omega) closes few]
    exact .of_past (tokens ++ [semicolon])
      (others _ _ _ _ facing.past (by omega) few finite finished)

theorem unclosed (firstAccepted : Accepted .statement tokens statement nesting)
    (first : Refused .statement tokens nesting) (starts : StartsStatement tokens)
    (continues : otherTokens = [] ∨ StartsStatement otherTokens)
    (separate : ∀ next ∈ otherTokens.head?, ¬ continuesStatement next.kind)
    (others : Refused .statements otherTokens otherNesting) :
    Refused .statements (tokens ++ otherTokens) (max nesting otherNesting) := by
  intro count ends statements parser facing deep few finite finished
  by_cases firstDeep : count < nesting
  · exact first.firstStatement starts facing.left firstDeep few finite
  · rw [firstAccepted.unclosed_step starts facing (by omega) continues separate
      few finished]
    rw [Parser.past_append] at finished
    exact .of_past tokens (others _ _ _ _ facing.past (by omega) few finite finished)

theorem block (opens : opening.kind = .openCurly) (body : Refused .statements tokens nesting)
    (closes : closing.kind = .closeCurly) :
    Refused .block (opening :: (tokens ++ [closing])) (nesting + 1) := by
  intro count parser facing deep
  cases count with
  | zero => exact .tooDeep
  | succ less =>
      have inside := facing.inside
      have boundary := (congrArg Token.kind inside.tail.past.current).trans closes
      refine .nested_exceeds (.after_exceeds [opening] (expect_eq inside opens (by decide)) ?_)
      rw [statementsUntil_eq]
      exact .bind_exceeds inside.tail.standard (body less _ #[] _ inside.tail.left
        (Nat.lt_of_succ_lt_succ deep) (by simp) rfl
        (Bool.or_eq_true_iff.2 (.inl (decide_eq_true boundary))))
        fun _ _ standard => .bind_mild standard (.expect_proper standard (by decide))
          fun _ _ _ => .pure_mild

end Statements

end Refused

theorem Derives.refused {symbol : Symbol} {tokens : List Token} {tree : symbol.Tree}
    {nesting : Nat} (derivation : Derives symbol tokens tree nesting) :
    Refused symbol tokens nesting := by
  induction derivation with
  | tighter step operand ih => exact .tighter step ih
  | binary step operates left right leftIH rightIH =>
      exact .binary step operates left.accepted leftIH rightIH
  | unary operates operand ih => exact .unary operates ih
  | call callee opens arguments closes calleeIH argumentsIH =>
      exact .call callee.accepted calleeIH opens argumentsIH
  | name | integer | true | false =>
      intro count power parser facing deep
      exact absurd deep (Nat.not_lt_zero _)
  | group opens value closes ih => exact .group opens ih
  | conditional starts opens condition closes consequence conditionIH consequenceIH =>
      exact .conditional starts opens condition.accepted conditionIH closes consequenceIH
  | alternative starts opens condition closes consequence otherwise alternative conditionIH
      consequenceIH alternativeIH =>
      exact .alternative starts opens condition.accepted conditionIH closes consequence.accepted
        consequenceIH otherwise alternativeIH
  | function starts opens parameters closes body ih =>
      exact .function starts opens parameters closes ih
  | lastItem value ih => exact .lastItem ih
  | item value separates others valueIH othersIH =>
      exact .item value.accepted valueIH separates othersIH
  | noArguments =>
      intro count parser facing deep
      exact absurd deep (Nat.not_lt_zero _)
  | someArguments items ih => exact .someArguments items.starts ih
  | block opens body closes ih => exact .block opens ih closes
  | binding starts isName binds value ih => exact .binding starts isName binds ih
  | result starts value ih => exact .result starts ih
  | expression value ih =>
      obtain ⟨_, _, same, form⟩ := value.starts
      cases same
      exact .expression form ih
  | noStatements =>
      intro count ends statements parser facing deep
      exact absurd deep (Nat.not_lt_zero _)
  | closed statement closes others statementIH othersIH =>
      exact .closed statement.accepted statementIH statement.starts closes othersIH
  | unclosed statement separate others statementIH othersIH =>
      exact .unclosed statement.accepted statementIH statement.starts others.starts separate
        othersIH
  | program => trivial

/-- A source that can be derived only with more levels than there are is not read through. -/
theorem Derives.parse_exceeds {source : String} {file : Option String} {program : Program}
    {nesting : Nat} (derivation : Derives .program (tokenize source file) program nesting)
    (deep : nestingLimit < nesting) :
    (parse source file).Meets (.ofSource source file) .exceeds := by
  have standard := Parser.ofSource_standard source file
  rw [Parser.tokenize_eq] at derivation
  have facing : (Parser.ofSource source file).Facing nestingLimit
      (Parser.ofSource source file).pending :=
    ⟨standard, Nat.le_of_eq (Nat.zero_add _), List.prefix_refl _⟩
  have refused := derivation.statements_of_program.refused nestingLimit (· = .endOfInput) #[] _
    facing deep (by simp) rfl (by rw [Parser.current_past_pending, standard.finish]; rfl)
  rw [← statementsUntil_eq] at refused
  exact .bind_pure_exceeds standard refused

/-- A source that can be derived is read as what it stands for, and nothing is recorded but
integers that are too large, as long as there are levels enough.  If there are not, that is
the first thing recorded, apart from such integers. -/
theorem parse_of_derives {source : String} {file : Option String} {program : Program}
    {nesting : Nat} (derivation : Derives .program (tokenize source file) program nesting) :
    ∃ result after, parse source file = .ok result after ∧
      (nesting ≤ nestingLimit → result = program ∧
        after.diagnostics.toList = (tokenize source file).flatMap Token.excess ∧
        Clean after.diagnostics.toList) ∧
      (nestingLimit < nesting → Overflows after.diagnostics.toList) := by
  by_cases fits : nesting ≤ nestingLimit
  · obtain ⟨after, parsed, recorded⟩ := derivation.parse_eq fits
    refine ⟨program, after, parsed, fun _ => ⟨rfl, recorded, ?_⟩, fun deep => absurd fits
      (Nat.not_le_of_lt deep)⟩
    rw [recorded]
    exact .excess _
  · have met := (parse_certain source file).and (derivation.parse_exceeds (Nat.lt_of_not_le fits))
    generalize parse source file = outcome at met ⊢
    cases met with
    | @ok result count found kept =>
        refine ⟨result, _, rfl, fun few => absurd few fits, fun _ => ?_⟩
        rw [Parser.beyond_diagnostics]
        exact kept.2
    | failed impossible => exact impossible.1.elim
    | endless impossible => exact impossible.1.elim

/-- A name with so many signs before it. -/
def signs (count : Nat) : List Char :=
  List.replicate count '!' ++ ['a']

theorem signs_lexes (file : String) (count : Nat) :
    Lexes file (signs count) [] fun tokens =>
      ∃ tree, Derives (.expression .unary) tokens tree count := by
  induction count with
  | zero =>
      have isName : IsName "a" := ⟨by decide, List.all_eq_true.1 rfl, by decide⟩
      show Lexes file ("a".toList ++ []) [] _
      apply ((Spells.name isName).lexes (by simp)).mono
      rintro _ ⟨span, rfl⟩
      exact ⟨_, (Derives.name rfl).loosen (by decide)⟩
  | succ count ih =>
      have single : ∀ c ∈ (signs count).head?, c ≠ '=' := by
        cases count <;> simp [signs, List.replicate_succ]
      show Lexes file ("!".toList ++ signs count) [] _
      refine .andThen (Spells.not.lexes single) (ih.mono ?_)
      rintro tokens ⟨tree, operand⟩ _ ⟨span, rfl⟩
      exact ⟨_, .unary (.inl rfl) operand⟩

/-- The statement opens one level, and each sign opens another. -/
theorem signs_derives (file : Option String) (count : Nat) :
    ∃ program, Derives .program (tokenize (String.ofList (signs count)) file) program
      (count + 1) := by
  have lexes := signs_lexes (file.getD Lexer.defaultFile) count
  rw [← String.toList_ofList (l := signs count)] at lexes
  obtain ⟨tokens, whole, tree, unary⟩ := lexes.tokenize_eq
  obtain ⟨_, statements⟩ := unary.alone
  rw [whole]
  exact ⟨_, .program statements rfl⟩

/-- Open at once are the statement, the block, the statement in it, the group and what is added
there.  What the right operand negates is as deep. -/
theorem conditional_derives :
    ∃ program, Derives .program
        (tokenize "if(a)\x7b(99999999999999999999+b)*-c;\x7d" none) program 5 ∧
      program.text = "ifa ((99999999999999999999 + b) * (-c))" := by
  let token (kind : Kind) (text : String) (start finish : Nat) : Token :=
    ⟨kind, text, .between "shell" start finish⟩
  have tokens : tokenize "if(a)\x7b(99999999999999999999+b)*-c;\x7d" none =
      [token .ifKeyword "if" 0 2, token .openParen "(" 2 3, token .identifier "a" 3 4,
        token .closeParen ")" 4 5, token .openCurly "\x7b" 5 6, token .openParen "(" 6 7,
        token .integer "99999999999999999999" 7 27, token .plus "+" 27 28,
        token .identifier "b" 28 29, token .closeParen ")" 29 30, token .star "*" 30 31,
        token .dash "-" 31 32, token .identifier "c" 32 33, token .semicolon ";" 33 34,
        token .closeCurly "\x7d" 34 35, .endOfInput "shell" 35] := by decide +kernel
  have adds : Kind.plus ∈ Level.sum.operators := by decide
  have multiplies : Kind.star ∈ Level.product.operators := by decide
  have sum : Derives (.expression .sum) ([token .integer "99999999999999999999" 7 27] ++
      token .plus "+" 27 28 :: [token .identifier "b" 28 29]) _ _ :=
    .binary rfl adds ((Derives.integer rfl).loosen (by decide))
      ((Derives.name rfl).loosen (by decide))
  have group : Derives (.expression .primary)
      (token .openParen "(" 6 7 :: (_ ++ [token .closeParen ")" 29 30])) _ _ :=
    .group rfl (sum.loosen (by decide)) rfl
  have negation : Derives (.expression .unary)
      (token .dash "-" 31 32 :: [token .identifier "c" 32 33]) _ _ :=
    .unary (.inr rfl) ((Derives.name rfl).loosen (by decide))
  have product : Derives (.expression .product) (_ ++ token .star "*" 30 31 :: _) _ _ :=
    .binary rfl multiplies (group.loosen (by decide)) negation
  have body : Derives .statements (_ ++ token .semicolon ";" 33 34 :: []) _ _ :=
    .closed (.expression (product.loosen (by decide))) rfl .noStatements
  have block : Derives .block
      (token .openCurly "\x7b" 5 6 :: (_ ++ [token .closeCurly "\x7d" 34 35])) _ _ :=
    .block rfl body rfl
  have conditional : Derives (.expression .primary)
      (token .ifKeyword "if" 0 2 :: token .openParen "(" 2 3 ::
        ([token .identifier "a" 3 4] ++ token .closeParen ")" 4 5 :: _)) _ _ :=
    .conditional rfl rfl ((Derives.name rfl).loosen (by decide)) rfl block
  have whole : Derives .program (_ ++ [.endOfInput "shell" 35]) _ _ :=
    .program (.unclosed (.expression (conditional.loosen (by decide))) (by simp) .noStatements) rfl
  rw [tokens]
  refine ⟨_, whole, ?_⟩
  dsimp only [token]
  decide +kernel

/-- A block of a condition, signs that take all the levels there are, and a sign more. -/
theorem parse_of_derives_within_and_beyond :
    (∃ program result after,
      Derives .program (tokenize "if(a)\x7b(99999999999999999999+b)*-c;\x7d" none) program 5 ∧
      program.text = "ifa ((99999999999999999999 + b) * (-c))" ∧
      parse "if(a)\x7b(99999999999999999999+b)*-c;\x7d" none = .ok result after ∧
      result = program ∧ after.diagnostics.toList.map Diagnostic.cause =
        [.integerOutOfRange "99999999999999999999"]) ∧
    (∃ program result after,
      Derives .program (tokenize (String.ofList (signs 127)) none) program nestingLimit ∧
      parse (String.ofList (signs 127)) none = .ok result after ∧ result = program ∧
      Clean after.diagnostics.toList) ∧
    ∃ program result after,
      Derives .program (tokenize (String.ofList (signs 128)) none) program (nestingLimit + 1) ∧
      parse (String.ofList (signs 128)) none = .ok result after ∧
      Overflows after.diagnostics.toList := by
  refine ⟨?_, ?_, ?_⟩
  · obtain ⟨program, derivation, text⟩ := conditional_derives
    obtain ⟨result, after, parsed, fits, _⟩ := parse_of_derives derivation
    obtain ⟨same, recorded, _⟩ := fits (by decide)
    refine ⟨program, result, after, derivation, text, parsed, same, ?_⟩
    rw [recorded]
    decide +kernel
  · obtain ⟨program, derivation⟩ := signs_derives none 127
    obtain ⟨result, after, parsed, fits, _⟩ := parse_of_derives derivation
    obtain ⟨same, _, clean⟩ := fits (Nat.le_refl _)
    exact ⟨program, result, after, derivation, parsed, same, clean⟩
  · obtain ⟨program, derivation⟩ := signs_derives none 128
    obtain ⟨result, after, parsed, _, deep⟩ := parse_of_derives derivation
    exact ⟨program, result, after, derivation, parsed, deep (Nat.lt_succ_self _)⟩

end Monkey.Grammar
