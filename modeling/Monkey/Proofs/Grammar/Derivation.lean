import Monkey.Parser.Table
import Monkey.Token.Integer
import Monkey.Tree.Basic

namespace Monkey.Grammar

/-! The grammar of the language, over tokens.

A derivation says which tokens a construct is made of, which tree it stands for and how
deeply it is nested.  It knows nothing of binding powers: how operators group follows
from levels of expressions, each of which is made of the next tighter one.
-/

/-- How tightly the operators of an expression bind, the loosest first. -/
inductive Level where
  | equality
  | comparison
  | sum
  | product
  | unary
  | call
  | primary
deriving DecidableEq

namespace Level

def next? : Level → Option Level
  | .equality => some .comparison
  | .comparison => some .sum
  | .sum => some .product
  | .product => some .unary
  | .unary => some .call
  | .call => some .primary
  | .primary => none

/-- The operators that stand between two operands of a level. -/
def operators : Level → List Kind
  | .equality => [.equals, .notEquals]
  | .comparison => [.less, .greater]
  | .sum => [.plus, .dash]
  | .product => [.star, .slash]
  | .unary | .call | .primary => []

def rank : Level → Nat
  | .equality => 0
  | .comparison => 1
  | .sum => 2
  | .product => 3
  | .unary => 4
  | .call => 5
  | .primary => 6

theorem rank_injective {left right : Level} (same : left.rank = right.rank) : left = right := by
  cases left <;> cases right <;> simp_all [rank]

theorem next?_eq_some_iff {loose tight : Level} :
    loose.next? = some tight ↔ tight.rank = loose.rank + 1 := by
  cases loose <;> cases tight <;> simp [next?, rank]

end Level

/-- Names with commas between them. -/
inductive Names : List Token → List Identifier → Prop
  | one (isName : token.kind = .identifier) : Names [token] [⟨token, token.text⟩]
  | more (isName : token.kind = .identifier) (separates : comma.kind = .comma)
      (others : Names tokens names) :
      Names (token :: comma :: tokens) (⟨token, token.text⟩ :: names)

/-- What may stand between the parentheses of a function. -/
inductive Parameters : List Token → List Identifier → Prop
  | none : Parameters [] []
  | some (names : Names tokens parameters) : Parameters tokens parameters

inductive Symbol where
  | expression (level : Level)
  /-- One or more expressions with commas between them. -/
  | items
  /-- What may stand between the parentheses of a call. -/
  | arguments
  | block
  /-- A statement without the semicolon after it. -/
  | statement
  | statements
  /-- A whole source, with its end. -/
  | program

@[reducible] def Symbol.Tree : Symbol → Type
  | .expression _ => Expr
  | .items | .arguments => List Expr
  | .block => Block
  | .statement => Statement
  | .statements => List Statement
  | .program => Program

/-- The kinds that would continue the statement before them. -/
def continuesStatement (kind : Kind) : Prop :=
  kind = .openParen ∨ kind = .dash

/-- Derivations.  The number is the nesting: how many levels are open at once, where a level
is opened by the expression of a statement, what a group holds, a condition, an argument,
the operand of a prefix operator, the right operand of an infix operator, and a block. -/
inductive Derives : (symbol : Symbol) → List Token → symbol.Tree → Nat → Prop
  | tighter (step : level.next? = some tight)
      (operand : Derives (.expression tight) tokens tree nesting) :
      Derives (.expression level) tokens tree nesting
  | binary (step : level.next? = some tight) (operates : operator.kind ∈ level.operators)
      (left : Derives (.expression level) leftTokens leftTree leftNesting)
      (right : Derives (.expression tight) rightTokens rightTree rightNesting) :
      Derives (.expression level) (leftTokens ++ operator :: rightTokens)
        (.binary operator leftTree operator.text rightTree)
        (max leftNesting (rightNesting + 1))
  | unary (operates : operator.kind = .not ∨ operator.kind = .dash)
      (operand : Derives (.expression .unary) tokens tree nesting) :
      Derives (.expression .unary) (operator :: tokens)
        (.unary operator operator.text tree) (nesting + 1)
  | call (callee : Derives (.expression .call) calleeTokens calleeTree calleeNesting)
      (opens : opening.kind = .openParen)
      (arguments : Derives .arguments argumentTokens trees nesting)
      (closes : closing.kind = .closeParen) :
      Derives (.expression .call) (calleeTokens ++ opening :: (argumentTokens ++ [closing]))
        (.call opening calleeTree trees) (max calleeNesting nesting)
  | name (isName : token.kind = .identifier) :
      Derives (.expression .primary) [token] (.identifier ⟨token, token.text⟩) 0
  | integer (isInteger : token.kind = .integer) :
      Derives (.expression .primary) [token] (.integer token (token.integer?.getD 0)) 0
  | true (isTrue : token.kind = .trueKeyword) :
      Derives (.expression .primary) [token] (.boolean token true) 0
  | false (isFalse : token.kind = .falseKeyword) :
      Derives (.expression .primary) [token] (.boolean token false) 0
  | group (opens : opening.kind = .openParen)
      (value : Derives (.expression .equality) tokens tree nesting)
      (closes : closing.kind = .closeParen) :
      Derives (.expression .primary) (opening :: (tokens ++ [closing])) tree (nesting + 1)
  | conditional (starts : keyword.kind = .ifKeyword) (opens : opening.kind = .openParen)
      (condition : Derives (.expression .equality) conditionTokens conditionTree conditionNesting)
      (closes : closing.kind = .closeParen)
      (consequence : Derives .block tokens block nesting) :
      Derives (.expression .primary)
        (keyword :: opening :: (conditionTokens ++ closing :: tokens))
        (.conditional keyword conditionTree block none)
        (max (conditionNesting + 1) nesting)
  | alternative (starts : keyword.kind = .ifKeyword) (opens : opening.kind = .openParen)
      (condition : Derives (.expression .equality) conditionTokens conditionTree conditionNesting)
      (closes : closing.kind = .closeParen)
      (consequence : Derives .block tokens block nesting)
      (otherwise : separator.kind = .elseKeyword)
      (alternative : Derives .block otherTokens otherBlock otherNesting) :
      Derives (.expression .primary)
        (keyword :: opening :: (conditionTokens ++ closing :: (tokens ++ separator :: otherTokens)))
        (.conditional keyword conditionTree block (some otherBlock))
        (max (conditionNesting + 1) (max nesting otherNesting))
  | function (starts : keyword.kind = .functionKeyword) (opens : opening.kind = .openParen)
      (parameters : Parameters parameterTokens names) (closes : closing.kind = .closeParen)
      (body : Derives .block tokens block nesting) :
      Derives (.expression .primary)
        (keyword :: opening :: (parameterTokens ++ closing :: tokens))
        (.function keyword names block) nesting
  | lastItem (value : Derives (.expression .equality) tokens tree nesting) :
      Derives .items tokens [tree] (nesting + 1)
  | item (value : Derives (.expression .equality) tokens tree nesting)
      (separates : comma.kind = .comma)
      (others : Derives .items otherTokens trees otherNesting) :
      Derives .items (tokens ++ comma :: otherTokens) (tree :: trees)
        (max (nesting + 1) otherNesting)
  | noArguments : Derives .arguments [] [] 0
  | someArguments (items : Derives .items tokens trees nesting) :
      Derives .arguments tokens trees nesting
  | block (opens : opening.kind = .openCurly)
      (body : Derives .statements tokens statements nesting)
      (closes : closing.kind = .closeCurly) :
      Derives .block (opening :: (tokens ++ [closing])) (.mk opening statements) (nesting + 1)
  | binding (starts : keyword.kind = .letKeyword) (isName : name.kind = .identifier)
      (binds : sign.kind = .assignment)
      (value : Derives (.expression .equality) tokens tree nesting) :
      Derives .statement (keyword :: name :: sign :: tokens)
        (.binding keyword ⟨name, name.text⟩ tree) (nesting + 1)
  | result (starts : keyword.kind = .returnKeyword)
      (value : Derives (.expression .equality) tokens tree nesting) :
      Derives .statement (keyword :: tokens) (.result keyword tree) (nesting + 1)
  | expression (value : Derives (.expression .equality) (first :: tokens) tree nesting) :
      Derives .statement (first :: tokens) (.expression first tree) (nesting + 1)
  | noStatements : Derives .statements [] [] 0
  | closed (statement : Derives .statement tokens tree nesting)
      (closes : semicolon.kind = .semicolon)
      (others : Derives .statements otherTokens trees otherNesting) :
      Derives .statements (tokens ++ semicolon :: otherTokens) (tree :: trees)
        (max nesting otherNesting)
  /-- A statement without a semicolon must not be followed by what would continue it. -/
  | unclosed (statement : Derives .statement tokens tree nesting)
      (separate : ∀ next ∈ otherTokens.head?, ¬ continuesStatement next.kind)
      (others : Derives .statements otherTokens trees otherNesting) :
      Derives .statements (tokens ++ otherTokens) (tree :: trees) (max nesting otherNesting)
  | program (body : Derives .statements tokens statements nesting)
      (finishes : finish.kind = .endOfInput) :
      Derives .program (tokens ++ [finish]) ⟨statements⟩ nesting

namespace Derives

/-- What is made of tighter operators stands where looser ones are allowed. -/
theorem loosen {loose tight : Level} {tokens : List Token} {tree : Expr} {nesting : Nat}
    (derived : Derives (.expression tight) tokens tree nesting) (order : loose.rank ≤ tight.rank) :
    Derives (.expression loose) tokens tree nesting := by
  obtain ⟨steps, distance⟩ := Nat.exists_eq_add_of_le order
  induction steps generalizing loose with
  | zero =>
      obtain rfl := Level.rank_injective distance
      exact derived
  | succ steps ih =>
      have step : ∃ next, loose.next? = some next := by
        cases loose <;> simp_all [Level.next?]
        cases tight <;> simp [Level.rank] at distance <;> omega
      obtain ⟨next, step⟩ := step
      have rank := Level.next?_eq_some_iff.1 step
      exact .tighter step (ih (by omega) (by omega))

end Derives

def StartsExpression (tokens : List Token) : Prop :=
  ∃ first rest, tokens = first :: rest ∧ (Table.standard.prefixForm first.kind).isSome

def StartsStatement (tokens : List Token) : Prop :=
  ∃ first rest, tokens = first :: rest ∧
    ((Table.standard.prefixForm first.kind).isSome ∨
      (Table.standard.statementForm first.kind).isSome)

theorem StartsExpression.append {tokens : List Token} (starts : StartsExpression tokens)
    (others : List Token) : StartsExpression (tokens ++ others) := by
  obtain ⟨first, rest, rfl, form⟩ := starts
  exact ⟨first, rest ++ others, rfl, form⟩

theorem StartsStatement.append {tokens : List Token} (starts : StartsStatement tokens)
    (others : List Token) : StartsStatement (tokens ++ others) := by
  obtain ⟨first, rest, rfl, form⟩ := starts
  exact ⟨first, rest ++ others, rfl, form⟩

namespace Symbol

/-- How the tokens of a construct start. -/
def Starts : Symbol → List Token → Prop
  | .expression _, tokens | .items, tokens => StartsExpression tokens
  | .statement, tokens => StartsStatement tokens
  | .statements, tokens => tokens = [] ∨ StartsStatement tokens
  | .arguments, tokens => tokens = [] ∨ StartsExpression tokens
  | .block, _ | .program, _ => True

end Symbol

theorem Derives.starts {symbol : Symbol} {tokens : List Token} {tree : symbol.Tree} {nesting : Nat}
    (derivation : Derives symbol tokens tree nesting) : symbol.Starts tokens := by
  induction derivation with
  | tighter step operand ih => exact ih
  | binary step operates left right leftIH rightIH => exact StartsExpression.append leftIH _
  | unary operates operand ih =>
      refine ⟨_, _, rfl, ?_⟩
      rcases operates with isNot | isDash <;> simp_all [Table.standard]
  | call callee opens arguments closes calleeIH argumentsIH =>
      exact StartsExpression.append calleeIH _
  | name isName => exact ⟨_, _, rfl, by simp [isName, Table.standard]⟩
  | integer isInteger => exact ⟨_, _, rfl, by simp [isInteger, Table.standard]⟩
  | true isTrue => exact ⟨_, _, rfl, by simp [isTrue, Table.standard]⟩
  | false isFalse => exact ⟨_, _, rfl, by simp [isFalse, Table.standard]⟩
  | group opens value closes ih => exact ⟨_, _, rfl, by simp [opens, Table.standard]⟩
  | conditional starts => exact ⟨_, _, rfl, by simp [starts, Table.standard]⟩
  | alternative starts => exact ⟨_, _, rfl, by simp [starts, Table.standard]⟩
  | function starts => exact ⟨_, _, rfl, by simp [starts, Table.standard]⟩
  | lastItem value ih => exact ih
  | item value separates others valueIH othersIH => exact StartsExpression.append valueIH _
  | noArguments => exact .inl rfl
  | someArguments items ih => exact .inr ih
  | block => trivial
  | binding starts => exact ⟨_, _, rfl, .inr (by simp [starts, Table.standard])⟩
  | result starts => exact ⟨_, _, rfl, .inr (by simp [starts, Table.standard])⟩
  | expression value ih =>
      obtain ⟨first, rest, same, form⟩ := ih
      exact ⟨first, rest, same, .inl form⟩
  | noStatements => exact .inl rfl
  | closed statement closes others statementIH othersIH =>
      exact .inr (StartsStatement.append statementIH _)
  | unclosed statement separate others statementIH othersIH =>
      exact .inr (StartsStatement.append statementIH _)
  | program => trivial

/-- An expression that stands alone is a statement, which opens a level for it. -/
theorem Derives.alone {level : Level} {tokens : List Token} {tree : Expr} {nesting : Nat}
    (value : Derives (.expression level) tokens tree nesting) :
    ∃ first, Derives .statements tokens [.expression first tree] (nesting + 1) := by
  obtain ⟨first, rest, rfl, _⟩ := value.starts
  have statement := Derives.expression (value.loosen (Nat.zero_le _))
  have statements := Derives.unclosed statement (by simp) .noStatements
  rw [List.append_nil, Nat.max_zero] at statements
  exact ⟨first, statements⟩

end Monkey.Grammar
