import Monkey.Proofs.Tree.Relocation
import Monkey.Tree.Alike
import Monkey.Tree.Rendering

namespace Monkey

/-! Trees that are alike.

Wherever its tokens are put, a tree stays alike, and trees that are alike have the same text.
-/

section Places

variable (first second : Position → Position)

theorem Token.relocate_alike (token : Token) :
    (token.relocate first).alike (token.relocate second) = true :=
  Token.alike_iff.2 ⟨rfl, rfl⟩

theorem Identifier.relocate_alike (name : Identifier) :
    (name.relocate first).alike (name.relocate second) = true := by
  simp [Identifier.alike, Identifier.relocate, Token.relocate_alike]

theorem identifiersAlike_relocate (names : List Identifier) :
    identifiersAlike (names.map (·.relocate first)) (names.map (·.relocate second)) = true := by
  induction names with
  | nil => rfl
  | cons name names ih =>
      simp only [List.map_cons, identifiersAlike, Identifier.relocate_alike, ih, Bool.and_self]

mutual

theorem Expr.relocate_alike :
    (tree : Expr) → (tree.relocate first).alike (tree.relocate second) = true
  | .identifier name => name.relocate_alike first second
  | .integer token value => by
      simp [Expr.relocate, Expr.alike, Token.relocate_alike]
  | .boolean token value => by
      simp [Expr.relocate, Expr.alike, Token.relocate_alike]
  | .unary token operator operand => by
      simp [Expr.relocate, Expr.alike, Token.relocate_alike, operand.relocate_alike]
  | .binary token left operator right => by
      simp [Expr.relocate, Expr.alike, Token.relocate_alike, left.relocate_alike,
        right.relocate_alike]
  | .conditional token condition consequence alternative => by
      simp [Expr.relocate, Expr.alike, Token.relocate_alike, condition.relocate_alike,
        consequence.relocate_alike, alternativesAlike_relocate alternative]
  | .function token parameters body => by
      simp [Expr.relocate, Expr.alike, Token.relocate_alike, identifiersAlike_relocate,
        body.relocate_alike]
  | .call token callee arguments => by
      simp [Expr.relocate, Expr.alike, Token.relocate_alike, callee.relocate_alike,
        argumentsAlike_relocate arguments]
termination_by structural tree => tree

theorem Statement.relocate_alike :
    (tree : Statement) → (tree.relocate first).alike (tree.relocate second) = true
  | .binding token name value => by
      simp [Statement.relocate, Statement.alike, Token.relocate_alike, Identifier.relocate_alike,
        value.relocate_alike]
  | .result token value => by
      simp [Statement.relocate, Statement.alike, Token.relocate_alike, value.relocate_alike]
  | .expression token value => by
      simp [Statement.relocate, Statement.alike, Token.relocate_alike, value.relocate_alike]
termination_by structural tree => tree

theorem Block.relocate_alike :
    (tree : Block) → (tree.relocate first).alike (tree.relocate second) = true
  | .mk token statements => by
      simp [Block.relocate, Block.alike, Token.relocate_alike, statementsAlike_relocate statements]
termination_by structural tree => tree

theorem alternativesAlike_relocate : (alternative : Option Block) →
    alternativesAlike (relocateAlternative first alternative)
      (relocateAlternative second alternative) = true
  | none => rfl
  | some block => block.relocate_alike
termination_by structural tree => tree

theorem argumentsAlike_relocate : (arguments : List Expr) →
    argumentsAlike (relocateArguments first arguments)
      (relocateArguments second arguments) = true
  | [] => rfl
  | argument :: arguments => by
      simp [relocateArguments, argumentsAlike, argument.relocate_alike,
        argumentsAlike_relocate arguments]
termination_by structural tree => tree

theorem statementsAlike_relocate : (statements : List Statement) →
    statementsAlike (relocateStatements first statements)
      (relocateStatements second statements) = true
  | [] => rfl
  | statement :: statements => by
      simp [relocateStatements, statementsAlike, statement.relocate_alike,
        statementsAlike_relocate statements]
termination_by structural tree => tree

end

end Places

theorem Identifier.value_eq_of_alike {left right : Identifier} (same : left.alike right = true) :
    left.value = right.value := by
  simpa using (Bool.and_eq_true_iff.1 same).2

theorem values_eq_of_identifiersAlike {left right : List Identifier}
    (same : identifiersAlike left right = true) :
    left.map Identifier.value = right.map Identifier.value := by
  induction left generalizing right with
  | nil =>
      cases right with
      | nil => rfl
      | cons => cases same
  | cons name left ih =>
      cases right with
      | nil => cases same
      | cons other right =>
          obtain ⟨first, rest⟩ := Bool.and_eq_true_iff.1 same
          rw [List.map_cons, List.map_cons, Identifier.value_eq_of_alike first, ih rest]

mutual

theorem Expr.text_eq_of_alike : (left right : Expr) → left.alike right = true →
    left.text = right.text
  | .identifier _, right, same => by
      cases right with
      | identifier name => exact Identifier.value_eq_of_alike same
      | _ => cases same
  | .integer _ _, right, same => by
      cases right with
      | integer =>
          simp only [Expr.alike, Bool.and_eq_true, Token.alike_iff] at same
          exact same.1.2
      | _ => cases same
  | .boolean _ _, right, same => by
      cases right with
      | boolean =>
          simp only [Expr.alike, Bool.and_eq_true, Token.alike_iff] at same
          exact same.1.2
      | _ => cases same
  | .unary _ _ operand, right, same => by
      cases right with
      | unary _ _ other =>
          simp only [Expr.alike, Bool.and_eq_true, decide_eq_true_eq] at same
          obtain ⟨⟨_, rfl⟩, operands⟩ := same
          rw [Expr.text, Expr.text, operand.text_eq_of_alike other operands]
      | _ => cases same
  | .binary _ first _ second, right, same => by
      cases right with
      | binary _ otherFirst _ otherSecond =>
          simp only [Expr.alike, Bool.and_eq_true, decide_eq_true_eq] at same
          obtain ⟨⟨⟨_, firsts⟩, rfl⟩, seconds⟩ := same
          rw [Expr.text, Expr.text, first.text_eq_of_alike otherFirst firsts,
            second.text_eq_of_alike otherSecond seconds]
      | _ => cases same
  | .conditional _ condition consequence alternative, right, same => by
      cases right with
      | conditional _ otherCondition otherConsequence otherAlternative =>
          simp only [Expr.alike, Bool.and_eq_true] at same
          obtain ⟨⟨⟨_, conditions⟩, consequences⟩, alternatives⟩ := same
          rw [Expr.text, Expr.text, condition.text_eq_of_alike otherCondition conditions,
            consequence.text_eq_of_alike otherConsequence consequences,
            alternativeText_eq_of_alike alternative otherAlternative alternatives]
      | _ => cases same
  | .function token _ body, right, same => by
      cases right with
      | function other _ otherBody =>
          simp only [Expr.alike, Bool.and_eq_true, Token.alike_iff] at same
          obtain ⟨⟨tokens, parameters⟩, bodies⟩ := same
          rw [Expr.text, Expr.text, tokens.2, values_eq_of_identifiersAlike parameters,
            body.text_eq_of_alike otherBody bodies]
      | _ => cases same
  | .call _ callee arguments, right, same => by
      cases right with
      | call _ otherCallee otherArguments =>
          simp only [Expr.alike, Bool.and_eq_true] at same
          obtain ⟨⟨_, callees⟩, items⟩ := same
          rw [Expr.text, Expr.text, callee.text_eq_of_alike otherCallee callees,
            argumentTexts_eq_of_alike arguments otherArguments items]
      | _ => cases same
termination_by structural tree => tree

theorem Statement.text_eq_of_alike : (left right : Statement) → left.alike right = true →
    left.text = right.text
  | .binding _ _ value, right, same => by
      cases right with
      | binding _ _ other =>
          simp only [Statement.alike, Bool.and_eq_true, Token.alike_iff] at same
          obtain ⟨⟨tokens, names⟩, values⟩ := same
          rw [Statement.text, Statement.text, tokens.2, Identifier.value_eq_of_alike names,
            value.text_eq_of_alike other values]
      | _ => cases same
  | .result _ value, right, same => by
      cases right with
      | result _ other =>
          simp only [Statement.alike, Bool.and_eq_true, Token.alike_iff] at same
          obtain ⟨tokens, values⟩ := same
          rw [Statement.text, Statement.text, tokens.2, value.text_eq_of_alike other values]
      | _ => cases same
  | .expression _ value, right, same => by
      cases right with
      | expression _ other =>
          simp only [Statement.alike, Bool.and_eq_true] at same
          rw [Statement.text, Statement.text, value.text_eq_of_alike other same.2]
      | _ => cases same
termination_by structural tree => tree

theorem Block.text_eq_of_alike : (left right : Block) → left.alike right = true →
    left.text = right.text
  | .mk _ statements, .mk _ others, same => by
      simp only [Block.alike, Bool.and_eq_true] at same
      rw [Block.text, Block.text, statementsText_eq_of_alike statements others same.2]
termination_by structural tree => tree

theorem alternativeText_eq_of_alike : (left right : Option Block) →
    alternativesAlike left right = true → alternativeText left = alternativeText right
  | none, none, _ => rfl
  | some block, some other, same => by
      rw [alternativeText, alternativeText, block.text_eq_of_alike other same]
termination_by structural tree => tree

theorem argumentTexts_eq_of_alike : (left right : List Expr) →
    argumentsAlike left right = true → argumentTexts left = argumentTexts right
  | [], [], _ => rfl
  | argument :: arguments, other :: others, same => by
      simp only [argumentsAlike, Bool.and_eq_true] at same
      rw [argumentTexts, argumentTexts, argument.text_eq_of_alike other same.1,
        argumentTexts_eq_of_alike arguments others same.2]
termination_by structural tree => tree

theorem statementsText_eq_of_alike : (left right : List Statement) →
    statementsAlike left right = true → statementsText left = statementsText right
  | [], [], _ => rfl
  | statement :: statements, other :: others, same => by
      simp only [statementsAlike, Bool.and_eq_true] at same
      rw [statementsText, statementsText, statement.text_eq_of_alike other same.1,
        statementsText_eq_of_alike statements others same.2]
termination_by structural tree => tree

end

theorem Program.relocate_alike (first second : Position → Position) (program : Program) :
    (program.relocate first).alike (program.relocate second) = true := by
  rw [alike, relocate, relocate, ← relocateStatements_eq_map, ← relocateStatements_eq_map]
  exact statementsAlike_relocate first second _

theorem Program.text_eq_of_alike {left right : Program} (same : left.alike right = true) :
    left.text = right.text :=
  statementsText_eq_of_alike _ _ same

end Monkey
