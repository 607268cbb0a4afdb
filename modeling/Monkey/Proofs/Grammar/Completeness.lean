import Monkey.Proofs.Grammar.Levels
import Monkey.Proofs.Parser.Running

namespace Monkey.Grammar

/-! The parser reads whatever can be derived, if there are levels enough.

Reading an expression is left unfinished at the next token, as an operator might go on from
there.  It is the levels of the grammar that say where this cannot be.
-/

open Routine

/-- What the parser does on the tokens of a derivation with levels enough. -/
def Accepted : (symbol : Symbol) → List Token → symbol.Tree → Nat → Prop
  | .expression level, tokens, tree, nesting =>
      ∀ (count : Nat) (power : Power) (parser : Parser), parser.Facing count tokens →
        nesting ≤ count → (Level.above power).rank ≤ level.rank → power < .call →
        level.Completes (parser.past tokens).current.kind →
        expressionBody (levels count) power parser =
          iterate (continued (levels count) power) tree (parser.past tokens)
  | .items, tokens, trees, nesting =>
      ∀ (count : Nat) (items : Array Expr) (parser : Parser), parser.Facing count tokens →
        nesting ≤ count → (parser.past tokens).current.kind = .closeParen →
        iterate (separatedRound ((levels count).expression .lowest)) items parser =
          .ok (items.toList ++ trees) (parser.past tokens)
  | .arguments, tokens, trees, nesting =>
      ∀ (count : Nat) (parser : Parser) (closing : Token),
        parser.Facing count (tokens ++ [closing]) → nesting ≤ count → closing.kind = .closeParen →
        enclosed ((levels count).expression .lowest) parser =
          .ok trees (parser.past (tokens ++ [closing]))
  | .block, tokens, block, nesting =>
      ∀ (count : Nat) (parser : Parser), parser.Facing count tokens → nesting ≤ count →
        (levels count).block parser = .ok block (parser.past tokens)
  | .statement, tokens, tree, nesting =>
      ∀ (count : Nat) (parser : Parser), parser.Facing count tokens → nesting ≤ count →
        Ends (parser.past tokens).current.kind →
        ∀ skipped after, skip .semicolon (parser.past tokens) = .ok skipped after →
          statementBody (levels count) parser = .ok tree after
  | .statements, tokens, trees, nesting =>
      ∀ (count : Nat) (ends : Kind → Bool) (statements : Array Statement) (parser : Parser),
        parser.Facing count tokens → nesting ≤ count →
        (∀ kind, ends kind = true → kind = .closeCurly ∨ kind = .endOfInput) →
        ends (parser.past tokens).current.kind = true →
        iterate (statementsRound ends (statementBody (levels count))) statements parser =
          .ok (statements.toList ++ trees) (parser.past tokens)
  | .program, _, _, _ => True

namespace Accepted

variable {parser after : Parser} {count nesting : Nat} {power : Power} {tokens : List Token}
  {tree : Expr} {inner : Nested}

theorem expressionBody_eq (run : leading inner parser = .ok tree after) :
    expressionBody inner power parser = iterate (continued inner power) tree after :=
  bind_eq run

theorem leading_eq (form : PrefixForm) (standard : parser.Standard)
    (registered : Table.standard.prefixForm parser.current.kind = some form) :
    leading inner parser = form.read inner parser := by
  rw [leading_apply, standard.table, registered]

/-- An operator that binds tightly enough makes the left operand part of what it reads. -/
theorem continued_again (rule : InfixRule) {left : Expr} (standard : parser.Standard)
    (registered : Table.standard.infixRule parser.current.kind = some rule)
    (tighter : power < rule.power)
    (run : rule.form.read inner left rule.power parser = .ok tree after)
    (shorter : after.pending.length < parser.pending.length) :
    iterate (continued inner power) left parser = iterate (continued inner power) tree after := by
  refine iterate_again ?_ shorter
  rw [continued_apply, standard.table, registered]
  dsimp only
  rw [if_pos tighter, bind_eq run]
  rfl

theorem continued_stops (standard : parser.Standard)
    (stops : ¬ power < Table.standard.power parser.current.kind) :
    iterate (continued inner power) tree parser = .ok tree parser := by
  apply iterate_done
  rw [continued_apply, standard.table]
  cases registered : Table.standard.infixRule parser.current.kind with
  | none => rfl
  | some rule =>
      dsimp only
      rw [if_neg]
      simpa [Table.power, registered] using stops

theorem value {level : Level} (accepted : Accepted (.expression level) tokens tree nesting)
    (facing : parser.Facing count tokens) (fits : nesting < count)
    (admitted : (Level.above power).rank ≤ level.rank) (loose : power < .call)
    (completes : level.Completes (parser.past tokens).current.kind)
    (stops : ¬ power < Table.standard.power (parser.past tokens).current.kind) :
    (levels count).expression power parser = .ok tree (parser.past tokens) := by
  obtain ⟨less, rfl⟩ : ∃ less, count = less + 1 := ⟨count - 1, by omega⟩
  apply nested_eq facing.depth_lt
  rw [← Parser.current_past_inside parser (parser.depth + 1)] at completes stops
  rw [accepted less power _ facing.inside (Nat.le_of_lt_succ fits) admitted loose completes]
  exact continued_stops facing.inside.standard.past stops

theorem whole (accepted : Accepted (.expression .equality) tokens tree nesting)
    (facing : parser.Facing count tokens) (fits : nesting < count)
    (ends : Ends (parser.past tokens).current.kind) :
    (levels count).expression .lowest parser = .ok tree (parser.past tokens) :=
  accepted.value facing fits (by decide) (by decide) (ends.completes _) (ends.not_lt _)

/-! Each construct reads its tokens if its parts read theirs. -/

section Expressions

variable {level tight : Level} {operator opening closing keyword token : Token}
  {leftTokens rightTokens conditionTokens otherTokens : List Token} {block other : Block}
  {leftTree rightTree conditionTree : Expr}
  {leftNesting rightNesting conditionNesting otherNesting : Nat}

theorem tighter (step : level.next? = some tight)
    (operand : Accepted (.expression tight) tokens tree nesting) :
    Accepted (.expression level) tokens tree nesting := by
  intro count power parser facing fits admitted loose completes
  refine operand count power parser facing fits ?_ loose (completes.tighten step)
  exact Nat.le_trans admitted (by rw [Level.next?_eq_some_iff.1 step]; exact Nat.le_succ _)

theorem binary (step : level.next? = some tight) (operates : operator.kind ∈ level.operators)
    (left : Accepted (.expression level) leftTokens leftTree leftNesting)
    (right : Accepted (.expression tight) rightTokens rightTree rightNesting) :
    Accepted (.expression level) (leftTokens ++ operator :: rightTokens)
      (.binary operator leftTree operator.text rightTree)
      (max leftNesting (rightNesting + 1)) := by
  intro count power parser facing fits admitted loose completes
  obtain ⟨registered, rfl, low⟩ := Level.rule_of_operates operates step
  have after := facing.past
  have plain : operator.kind ≠ .integer := by
    intro same
    simp [same, Table.standard] at registered
  rw [left count power parser facing.left (by omega) admitted loose
    (by rw [after.current]; exact .of_infixRule registered)]
  rw [Parser.past_append, Parser.past_cons] at completes
  refine continued_again ⟨level.bound, .binary⟩ after.standard
    (by rw [after.current, registered]) (Level.lt_bound operates admitted) ?_ ?_
  · show Routine.binary _ _ _ _ = _
    rw [Routine.binary, bind_eq (advance_eq after plain), bind_eq (right.value after.tail (by omega)
      (Nat.le_refl _) (Nat.lt_trans low (by decide)) (completes.tighten step)
      (Nat.not_lt_of_le completes.power))]
    rw [Parser.past_append]
    rfl
  · rw [Parser.past_append]
    exact after.shorter (by simp)

theorem unary (operates : operator.kind = .not ∨ operator.kind = .dash)
    (operand : Accepted (.expression .unary) tokens tree nesting) :
    Accepted (.expression .unary) (operator :: tokens) (.unary operator operator.text tree)
      (nesting + 1) := by
  intro count power parser facing fits admitted loose completes
  have registered : Table.standard.prefixForm operator.kind = some .unary :=
    Table.standard_prefixForm_iff.2 (by simpa [PrefixForm.kinds] using operates)
  have plain : operator.kind ≠ .integer := by
    rcases operates with isNot | isDash <;> simp_all
  have run : (levels count).expression .unary (parser.pass operator) =
      .ok tree ((parser.pass operator).past tokens) :=
    operand.value facing.tail fits (by decide) (by decide) completes
      (Nat.not_lt_of_le completes.power)
  apply expressionBody_eq
  rw [leading_eq .unary facing.standard (by rw [facing.current, registered])]
  show Routine.unary _ _ = _
  rw [Routine.unary, bind_eq (advance_eq facing plain), bind_eq run]
  rfl

theorem atom (registered : Table.standard.prefixForm token.kind = some .atom)
    (made : Expr.ofToken token = tree) : Accepted (.expression .primary) [token] tree 0 := by
  subst made
  intro count power parser facing fits admitted loose completes
  apply expressionBody_eq
  rw [leading_eq .atom facing.standard (by rw [facing.current, registered])]
  show Routine.atom _ = _
  rw [atom_apply, facing.current]
  rfl

theorem group (opens : opening.kind = .openParen)
    (inside : Accepted (.expression .equality) tokens tree nesting)
    (closes : closing.kind = .closeParen) :
    Accepted (.expression .primary) (opening :: (tokens ++ [closing])) tree (nesting + 1) := by
  intro count power parser facing fits admitted loose completes
  have after := facing.tail.past
  apply expressionBody_eq
  rw [leading_eq .group facing.standard (by rw [facing.current, opens]; rfl)]
  show Routine.group _ _ = _
  rw [Routine.group, bind_eq (advance_eq facing (by simp [opens])),
    bind_eq (inside.whole facing.tail.left fits (by rw [after.current, closes]; exact .closeParen)),
    bind_eq (expect_eq after closes (by decide)), Parser.past_cons, Parser.past_append]
  rfl

theorem conditional (starts : keyword.kind = .ifKeyword) (opens : opening.kind = .openParen)
    (condition : Accepted (.expression .equality) conditionTokens conditionTree conditionNesting)
    (closes : closing.kind = .closeParen) (consequence : Accepted .block tokens block nesting) :
    Accepted (.expression .primary) (keyword :: opening :: (conditionTokens ++ closing :: tokens))
      (.conditional keyword conditionTree block none) (max (conditionNesting + 1) nesting) := by
  intro count power parser facing fits admitted loose completes
  have after := facing.tail.tail.past
  simp only [Parser.past_cons, Parser.past_append] at completes ⊢
  apply expressionBody_eq
  rw [leading_eq .conditional facing.standard (by rw [facing.current, starts]; rfl)]
  show Routine.conditional _ _ = _
  rw [Routine.conditional, bind_eq (advance_eq facing (by simp [starts])),
    bind_eq (expect_eq facing.tail opens (by decide)),
    bind_eq (condition.whole facing.tail.tail.left (by omega)
      (by rw [after.current, closes]; exact .closeParen)),
    bind_eq (expect_eq after closes (by decide)),
    bind_eq (consequence _ _ after.tail (by omega)), bind_eq (skip_eq_false completes.separate)]
  rfl

theorem alternative (starts : keyword.kind = .ifKeyword) (opens : opening.kind = .openParen)
    (condition : Accepted (.expression .equality) conditionTokens conditionTree conditionNesting)
    (closes : closing.kind = .closeParen) (consequence : Accepted .block tokens block nesting)
    (otherwise : token.kind = .elseKeyword)
    (alternative : Accepted .block otherTokens other otherNesting) :
    Accepted (.expression .primary)
      (keyword :: opening :: (conditionTokens ++ closing :: (tokens ++ token :: otherTokens)))
      (.conditional keyword conditionTree block (some other))
      (max (conditionNesting + 1) (max nesting otherNesting)) := by
  intro count power parser facing fits admitted loose completes
  have after := facing.tail.tail.past
  have separated := after.tail.past
  simp only [Parser.past_cons, Parser.past_append] at completes ⊢
  apply expressionBody_eq
  rw [leading_eq .conditional facing.standard (by rw [facing.current, starts]; rfl)]
  show Routine.conditional _ _ = _
  rw [Routine.conditional, bind_eq (advance_eq facing (by simp [starts])),
    bind_eq (expect_eq facing.tail opens (by decide)),
    bind_eq (condition.whole facing.tail.tail.left (by omega)
      (by rw [after.current, closes]; exact .closeParen)),
    bind_eq (expect_eq after closes (by decide)),
    bind_eq (consequence _ _ after.tail.left (by omega)),
    bind_eq (skip_eq_true separated otherwise (by decide)),
    if_pos rfl, bind_eq (alternative _ _ separated.tail (by omega))]
  rfl

theorem names {names : List Identifier} (list : Names tokens names) :
    ∀ (items : Array Identifier) (parser : Parser), parser.Facing count tokens →
      (parser.past tokens).current.kind = .closeParen →
      iterate (separatedRound identifier) items parser =
        .ok (items.toList ++ names) (parser.past tokens) := by
  induction list with
  | one isName =>
      intro items parser facing closes
      rw [separatedRound_last (identifier_eq facing isName)
        (by rw [closes]; decide), Array.toList_push]
  | @more tokens names token comma isName separates others ih =>
      intro items parser facing closes
      have first : parser.Facing count ([token] ++ [comma]) :=
        (show parser.Facing count ([token, comma] ++ tokens) from facing).left
      have run := ih (items.push ⟨token, token.text⟩) _ facing.tail.tail closes
      rw [separatedRound_more first (identifier_eq facing isName) separates]
      rw [Array.toList_push, List.append_assoc] at run
      exact run

theorem parameters {names : List Identifier} (allowed : Parameters tokens names)
    (facing : parser.Facing count (tokens ++ [closing])) (closes : closing.kind = .closeParen) :
    enclosed identifier parser = .ok names (parser.past (tokens ++ [closing])) := by
  cases allowed with
  | none => exact enclosed_none facing closes
  | some list =>
      have starts : parser.current.kind = .identifier := by
        cases list <;> rw [facing.current] <;> assumption
      apply enclosed_some facing closes (by simp [starts])
      exact Accepted.names list #[] _ facing.left (by rw [facing.past.current, closes])

theorem function {names : List Identifier} (starts : keyword.kind = .functionKeyword)
    (opens : opening.kind = .openParen) (allowed : Parameters conditionTokens names)
    (closes : closing.kind = .closeParen) (body : Accepted .block tokens block nesting) :
    Accepted (.expression .primary) (keyword :: opening :: (conditionTokens ++ closing :: tokens))
      (.function keyword names block) nesting := by
  intro count power parser facing fits admitted loose completes
  have enclosed : ((parser.pass keyword).pass opening).Facing count
      ((conditionTokens ++ [closing]) ++ tokens) := by
    simpa using facing.tail.tail
  apply expressionBody_eq
  rw [leading_eq .function facing.standard (by rw [facing.current, starts]; rfl)]
  show Routine.function _ _ = _
  rw [Routine.function, bind_eq (advance_eq facing (by simp [starts])),
    bind_eq (expect_eq facing.tail opens (by decide)),
    bind_eq (parameters allowed enclosed.left closes), bind_eq (body _ _ enclosed.past fits)]
  simp

theorem call {trees : List Expr}
    (callee : Accepted (.expression .call) leftTokens leftTree leftNesting)
    (opens : opening.kind = .openParen) (arguments : Accepted .arguments tokens trees nesting)
    (closes : closing.kind = .closeParen) :
    Accepted (.expression .call) (leftTokens ++ opening :: (tokens ++ [closing]))
      (.call opening leftTree trees) (max leftNesting nesting) := by
  intro count power parser facing fits admitted loose completes
  have after := facing.past
  have registered : Table.standard.infixRule opening.kind = some ⟨.call, .call⟩ := by
    rw [opens]
    rfl
  rw [callee count power parser facing.left (by omega) admitted loose
    (by rw [after.current]; exact .of_infixRule registered)]
  refine continued_again ⟨.call, .call⟩ after.standard (by rw [after.current, registered]) loose
    ?_ ?_
  · show Routine.call _ _ _ = _
    rw [Routine.call, bind_eq (advance_eq after (by simp [opens])),
      bind_eq (arguments _ _ _ after.tail (by omega) closes)]
    simp
  · rw [Parser.past_append]
    exact after.shorter (by simp)

end Expressions

section Lists

variable {closing comma : Token} {otherTokens : List Token} {trees : List Expr} {otherNesting : Nat}

theorem lastItem (value : Accepted (.expression .equality) tokens tree nesting) :
    Accepted .items tokens [tree] (nesting + 1) := by
  intro count items parser facing fits closes
  rw [separatedRound_last (value.whole facing fits (by rw [closes]; exact .closeParen))
    (by rw [closes]; decide), Array.toList_push]

theorem item_step {items : Array Expr}
    (value : Accepted (.expression .equality) tokens tree nesting)
    (facing : parser.Facing count (tokens ++ [comma])) (fits : nesting < count)
    (separates : comma.kind = .comma) :
    iterate (separatedRound ((levels count).expression .lowest)) items parser =
      iterate (separatedRound ((levels count).expression .lowest)) (items.push tree)
        (parser.past (tokens ++ [comma])) := by
  refine separatedRound_more facing (value.whole facing.left fits ?_) separates
  rw [facing.past.current, separates]
  exact .comma

theorem item (value : Accepted (.expression .equality) tokens tree nesting)
    (separates : comma.kind = .comma) (others : Accepted .items otherTokens trees otherNesting) :
    Accepted .items (tokens ++ comma :: otherTokens) (tree :: trees)
      (max (nesting + 1) otherNesting) := by
  intro count items parser facing fits closes
  have split : tokens ++ comma :: otherTokens = (tokens ++ [comma]) ++ otherTokens := by simp
  rw [split, Parser.past_append] at closes
  rw [split] at facing ⊢
  rw [value.item_step facing.left (by omega) separates,
    others _ _ _ facing.past (by omega) closes, Array.toList_push, List.append_assoc,
    ← Parser.past_append]
  rfl

theorem noArguments : Accepted .arguments [] [] 0 :=
  fun _ _ _ facing _ closes => enclosed_none facing closes

theorem not_closes (starts : StartsExpression tokens) (facing : parser.Facing count tokens) :
    parser.current.kind ≠ .closeParen := by
  obtain ⟨first, rest, rfl, form⟩ := starts
  rw [facing.current]
  intro same
  simp [same, Table.standard] at form

theorem someArguments (starts : StartsExpression tokens)
    (items : Accepted .items tokens trees nesting) : Accepted .arguments tokens trees nesting := by
  intro count parser closing facing fits closes
  apply enclosed_some facing closes (not_closes starts facing.left)
  exact items _ #[] _ facing.left fits (by rw [facing.past.current, closes])

end Lists

section Statements

variable {keyword name sign first opening closing semicolon : Token} {otherTokens : List Token}
  {statement : Statement} {trees : List Statement} {otherNesting : Nat}

theorem ending {skipped : Bool} (value : Accepted (.expression .equality) tokens tree nesting)
    (facing : parser.Facing count tokens) (fits : nesting < count)
    (ends : Ends (parser.past tokens).current.kind)
    (skips : skip .semicolon (parser.past tokens) = .ok skipped after) :
    Routine.ending (levels count) parser = .ok tree after := by
  rw [Routine.ending, bind_eq (value.whole facing fits ends), bind_eq skips]
  rfl

theorem binding (starts : keyword.kind = .letKeyword) (isName : name.kind = .identifier)
    (binds : sign.kind = .assignment)
    (value : Accepted (.expression .equality) tokens tree nesting) :
    Accepted .statement (keyword :: name :: sign :: tokens)
      (.binding keyword ⟨name, name.text⟩ tree) (nesting + 1) := by
  intro count parser facing fits ends skipped after skips
  rw [statementBody_apply, facing.standard.table, facing.current, starts]
  show Routine.binding _ _ = _
  rw [Routine.binding, bind_eq (advance_eq facing (by simp [starts])),
    bind_eq (identifier_eq facing.tail isName),
    bind_eq (expect_eq facing.tail.tail binds (by decide)),
    bind_eq (value.ending facing.tail.tail.tail fits ends skips)]
  rfl

theorem result (starts : keyword.kind = .returnKeyword)
    (value : Accepted (.expression .equality) tokens tree nesting) :
    Accepted .statement (keyword :: tokens) (.result keyword tree) (nesting + 1) := by
  intro count parser facing fits ends skipped after skips
  rw [statementBody_apply, facing.standard.table, facing.current, starts]
  show Routine.result _ _ = _
  rw [Routine.result, bind_eq (advance_eq facing (by simp [starts])),
    bind_eq (value.ending facing.tail fits ends skips)]
  rfl

theorem expression (starts : (Table.standard.prefixForm first.kind).isSome)
    (value : Accepted (.expression .equality) (first :: tokens) tree nesting) :
    Accepted .statement (first :: tokens) (.expression first tree) (nesting + 1) := by
  intro count parser facing fits ends skipped after skips
  have other := Table.standard_statementForm_eq_none starts
  rw [statementBody_apply, facing.standard.table, facing.current, other, expressionStatement_apply,
    bind_eq (value.ending facing fits ends skips), facing.current]
  rfl

theorem not_ends {ends : Kind → Bool} (starts : StartsStatement tokens)
    (facing : parser.Facing count tokens)
    (few : ∀ kind, ends kind = true → kind = .closeCurly ∨ kind = .endOfInput) :
    ¬ ends parser.current.kind = true := by
  obtain ⟨first, rest, rfl, form⟩ := starts
  rw [facing.current]
  intro finished
  rcases few _ finished with same | same <;> simp [same, Table.standard] at form

theorem statementsRound_more {ends : Kind → Bool} {statements : Array Statement}
    (starts : StartsStatement tokens) (facing : parser.Facing count tokens)
    (few : ∀ kind, ends kind = true → kind = .closeCurly ∨ kind = .endOfInput)
    (run : statementBody inner parser = .ok statement after)
    (shorter : after.pending.length < parser.pending.length) :
    iterate (statementsRound ends (statementBody inner)) statements parser =
      iterate (statementsRound ends (statementBody inner)) (statements.push statement) after := by
  refine iterate_again ?_ shorter
  have kept : recovering (statementBody inner) parser = .ok (some statement) after := by
    rw [recovering, run]
  rw [statementsRound, if_neg (not_ends starts facing few), bind_eq kept]
  rfl

theorem noStatements : Accepted .statements [] [] 0 := by
  intro count ends statements parser facing fits few finished
  apply iterate_done
  rw [statementsRound, if_pos (by simpa using finished), List.append_nil]
  rfl

theorem closed_step {ends : Kind → Bool} {statements : Array Statement}
    (first : Accepted .statement tokens statement nesting) (starts : StartsStatement tokens)
    (facing : parser.Facing count (tokens ++ [semicolon])) (fits : nesting ≤ count)
    (closes : semicolon.kind = .semicolon)
    (few : ∀ kind, ends kind = true → kind = .closeCurly ∨ kind = .endOfInput) :
    iterate (statementsRound ends (statementBody (levels count))) statements parser =
      iterate (statementsRound ends (statementBody (levels count))) (statements.push statement)
        (parser.past (tokens ++ [semicolon])) := by
  have after := facing.past
  have boundary : Ends (parser.past tokens).current.kind := by
    rw [after.current, closes]
    exact .semicolon
  have run := first count parser facing.left fits boundary _ _
    (skip_eq_true after closes (by decide))
  have shorter := facing.shorter (by simp)
  rw [Parser.past_append] at shorter ⊢
  exact statementsRound_more starts facing.left few run shorter

theorem closed (first : Accepted .statement tokens statement nesting)
    (starts : StartsStatement tokens) (closes : semicolon.kind = .semicolon)
    (others : Accepted .statements otherTokens trees otherNesting) :
    Accepted .statements (tokens ++ semicolon :: otherTokens) (statement :: trees)
      (max nesting otherNesting) := by
  intro count ends statements parser facing fits few finished
  have split : tokens ++ semicolon :: otherTokens = (tokens ++ [semicolon]) ++ otherTokens := by
    simp
  rw [split, Parser.past_append] at finished
  rw [split] at facing ⊢
  rw [first.closed_step starts facing.left (by omega) closes few,
    others _ _ _ _ facing.past (by omega) few finished, Array.toList_push, List.append_assoc,
    ← Parser.past_append]
  rfl

/-- A statement that is not continued by what comes after it. -/
theorem unclosed_step {ends : Kind → Bool} {statements : Array Statement}
    (first : Accepted .statement tokens statement nesting) (starts : StartsStatement tokens)
    (facing : parser.Facing count (tokens ++ otherTokens)) (fits : nesting ≤ count)
    (continues : otherTokens = [] ∨ StartsStatement otherTokens)
    (separate : ∀ next ∈ otherTokens.head?, ¬ continuesStatement next.kind)
    (few : ∀ kind, ends kind = true → kind = .closeCurly ∨ kind = .endOfInput)
    (finished : ends (parser.past (tokens ++ otherTokens)).current.kind = true) :
    iterate (statementsRound ends (statementBody (levels count))) statements parser =
      iterate (statementsRound ends (statementBody (levels count))) (statements.push statement)
        (parser.past tokens) := by
  rw [Parser.past_append] at finished
  have boundary : Ends (parser.past tokens).current.kind ∧
      (parser.past tokens).current.kind ≠ .semicolon := by
    rcases continues with rfl | ⟨next, rest, rfl, form⟩
    · rcases few _ finished with same | same <;> rw [Parser.past_nil] at same <;> rw [same]
      · exact ⟨.closeCurly, by decide⟩
      · exact ⟨.endOfInput, by decide⟩
    · rw [facing.past.current]
      exact Ends.of_starts form (separate next rfl)
  have run := first count parser facing.left fits boundary.1 _ _ (skip_eq_false boundary.2)
  have present : tokens ≠ [] := by
    obtain ⟨_, _, rfl, _⟩ := starts
    simp
  exact statementsRound_more starts facing.left few run (facing.left.shorter present)

theorem unclosed (first : Accepted .statement tokens statement nesting)
    (starts : StartsStatement tokens) (continues : otherTokens = [] ∨ StartsStatement otherTokens)
    (separate : ∀ next ∈ otherTokens.head?, ¬ continuesStatement next.kind)
    (others : Accepted .statements otherTokens trees otherNesting) :
    Accepted .statements (tokens ++ otherTokens) (statement :: trees)
      (max nesting otherNesting) := by
  intro count ends statements parser facing fits few finished
  rw [first.unclosed_step starts facing (by omega) continues separate few finished]
  rw [Parser.past_append] at finished ⊢
  rw [others _ _ _ _ facing.past (by omega) few finished, Array.toList_push, List.append_assoc]
  rfl

theorem block (opens : opening.kind = .openCurly)
    (body : Accepted .statements tokens trees nesting) (closes : closing.kind = .closeCurly) :
    Accepted .block (opening :: (tokens ++ [closing])) (.mk opening trees) (nesting + 1) := by
  intro count parser facing fits
  obtain ⟨less, rfl⟩ : ∃ less, count = less + 1 := ⟨count - 1, by omega⟩
  have inside := facing.inside
  have after := inside.tail.past
  apply nested_eq facing.depth_lt
  show blockBody _ _ = _
  rw [blockBody, bind_eq (expect_eq inside opens (by decide)), statementsUntil_eq,
    bind_eq (body _ _ #[] _ inside.tail.left (Nat.le_of_succ_le_succ fits) (by simp)
      (by rw [after.current, closes]; rfl)),
    bind_eq (expect_eq after closes (by decide))]
  simp

end Statements

end Accepted

theorem Derives.accepted {symbol : Symbol} {tokens : List Token} {tree : symbol.Tree}
    {nesting : Nat} (derivation : Derives symbol tokens tree nesting) :
    Accepted symbol tokens tree nesting := by
  induction derivation with
  | tighter step operand ih => exact .tighter step ih
  | binary step operates left right leftIH rightIH => exact .binary step operates leftIH rightIH
  | unary operates operand ih => exact .unary operates ih
  | call callee opens arguments closes calleeIH argumentsIH =>
      exact .call calleeIH opens argumentsIH closes
  | name isName => exact .atom (by rw [isName]; rfl) (by simp [Expr.ofToken, isName])
  | integer isInteger => exact .atom (by rw [isInteger]; rfl) (by simp [Expr.ofToken, isInteger])
  | true isTrue => exact .atom (by rw [isTrue]; rfl) (by simp [Expr.ofToken, isTrue])
  | false isFalse => exact .atom (by rw [isFalse]; rfl) (by simp [Expr.ofToken, isFalse])
  | group opens value closes ih => exact .group opens ih closes
  | conditional starts opens condition closes consequence conditionIH consequenceIH =>
      exact .conditional starts opens conditionIH closes consequenceIH
  | alternative starts opens condition closes consequence otherwise alternative conditionIH
      consequenceIH alternativeIH =>
      exact .alternative starts opens conditionIH closes consequenceIH otherwise alternativeIH
  | function starts opens parameters closes body ih =>
      exact .function starts opens parameters closes ih
  | lastItem value ih => exact .lastItem ih
  | item value separates others valueIH othersIH => exact .item valueIH separates othersIH
  | noArguments => exact .noArguments
  | someArguments items ih => exact .someArguments items.starts ih
  | block opens body closes ih => exact .block opens ih closes
  | binding starts isName binds value ih => exact .binding starts isName binds ih
  | result starts value ih => exact .result starts ih
  | expression value ih =>
      obtain ⟨_, _, same, form⟩ := value.starts
      cases same
      exact .expression form ih
  | noStatements => exact .noStatements
  | closed statement closes others statementIH othersIH =>
      exact .closed statementIH statement.starts closes othersIH
  | unclosed statement separate others statementIH othersIH =>
      exact .unclosed statementIH statement.starts others.starts separate othersIH
  | program => trivial

theorem Derives.statements_of_program {tokens : List Token} {finish : Token} {program : Program}
    {nesting : Nat} (derivation : Derives .program (tokens ++ [finish]) program nesting) :
    Derives .statements tokens program.statements nesting := by
  generalize whole : tokens ++ [finish] = all at derivation
  cases derivation with
  | program body finishes =>
      obtain ⟨rfl, _⟩ := List.append_inj' whole rfl
      exact body

/-- A source that can be derived with levels enough is parsed to what its tokens stand for. -/
theorem Derives.parse_eq {source : String} {file : Option String} {program : Program}
    {nesting : Nat} (derivation : Derives .program (tokenize source file) program nesting)
    (fits : nesting ≤ nestingLimit) :
    ∃ after, parse source file = .ok program after ∧
      after.diagnostics.toList = (tokenize source file).flatMap Token.excess := by
  have standard := Parser.ofSource_standard source file
  rw [Parser.tokenize_eq] at derivation
  have body := derivation.statements_of_program
  have facing : (Parser.ofSource source file).Facing nestingLimit
      (Parser.ofSource source file).pending :=
    ⟨standard, Nat.le_of_eq (Nat.zero_add _), List.prefix_refl _⟩
  have run := body.accepted nestingLimit (· = .endOfInput) #[] _ facing fits (by simp)
    (by rw [Parser.current_past_pending, standard.finish]; rfl)
  refine ⟨(Parser.ofSource source file).past (Parser.ofSource source file).pending, ?_, ?_⟩
  · show programBody (levels nestingLimit) _ = _
    rw [programBody, statementsUntil_eq, bind_eq run]
    rfl
  · rw [Parser.past_eq_beyond, Parser.beyond_diagnostics, Parser.tokenize_eq, List.flatMap_append]
    simp [Parser.ofSource, Parser.ofTokens, Lexer.finish, Token.endOfInput, Token.excess]

end Monkey.Grammar
